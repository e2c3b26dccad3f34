import VulkanLoader.Layers.Override
import VulkanLoader.Lib.Sweep

/-!
# The blacklist of the override layer

`loader_remove_layers_in_blacklist` takes layers out of the array that its pointer to the override layer points into.
Here it runs on that array, with its `j` and the pointer, which is a place in the array; an access is checked when it is
made.  The pointer is looked for again after each removal, and so it keeps pointing to the first override layer.

No array has `2^31` records, which have more than a kilobyte each; `j` and the `count` it is compared with are integers.
-/

namespace VulkanLoader

/-- `loader_find_layer_property` as a pointer: the place of the layer. -/
def findLayerPlace (name : String) (layerList : LayerArray) : Option ℕ :=
  layerList.layers.findIdx? fun item => name == item.layerName

/-- The state of the loop of `loader_remove_layers_in_blacklist`. -/
structure BlacklistScan where
  layerList : LayerArray
  j : ℤ
  overrideProp : Option ℕ
  inBounds : Bool

namespace BlacklistScan

/-- `j < (int32_t)layer_list->count`. -/
def continues (s : BlacklistScan) : Bool := decide (s.j < s.layerList.count)

/-- One round of the loop, `j++` included. -/
def step (s : BlacklistScan) : BlacklistScan :=
  let curLayerProp := s.layerList.recordAt s.j.toNat
  let inBounds := s.inBounds && s.layerList.inList s.j
  if vkOverrideLayerName == curLayerProp.layerName then { s with j := s.j + 1, inBounds := inBounds }
  else
    match s.overrideProp with
    | none => { s with j := s.j + 1, inBounds := false }
    | some overrideProp =>
      let inBounds := inBounds && s.layerList.inList overrideProp
      if loaderFindLayerNameInBlacklist curLayerProp.layerName (s.layerList.recordAt overrideProp) then
        let layerList := s.layerList.remove s.j.toNat
        { layerList := layerList
          j := s.j - 1 + 1
          overrideProp := findLayerPlace vkOverrideLayerName layerList
          inBounds := inBounds }
      else { s with j := s.j + 1, inBounds := inBounds }

/-- `loader_remove_layers_in_blacklist`; a round takes a layer out or goes on to the next one. -/
def run (layerList : LayerArray) : BlacklistScan :=
  match findLayerPlace vkOverrideLayerName layerList with
  | none => ⟨layerList, 0, none, true⟩
  | some overrideProp =>
    Lib.whileLoop continues step layerList.count ⟨layerList, 0, some overrideProp, true⟩

end BlacklistScan

/-- Where a place is found, the layer there is the one that `loader_find_layer_property` finds. -/
theorem loaderFindLayerProperty_eq_some {name : String} {a : LayerArray} {o : LayerProperties} :
    loaderFindLayerProperty name a.layers = some o ↔ ∃ k, findLayerPlace name a = some k ∧ a.layers[k]? = some o := by
  unfold loaderFindLayerProperty findLayerPlace
  rw [List.find?_eq_bind_findIdx?_getElem?, Option.bind_eq_some_iff]

/-- A layer of another name does not change which layer is found. -/
theorem loaderFindLayerProperty_drop {name : String} {cur : LayerProperties} (hcur : ¬ name = cur.layerName)
    (kept rest : List LayerProperties) :
    loaderFindLayerProperty name (kept ++ cur :: rest) = loaderFindLayerProperty name (kept ++ rest) := by
  unfold loaderFindLayerProperty
  rw [List.find?_append, List.find?_append, List.find?_cons_of_neg (by simpa using hcur)]

/-- A layer that the blacklist of the override layer `o` leaves in. -/
def leftIn (o p : LayerProperties) : Bool :=
  decide (p.layerName = vkOverrideLayerName ∨ p.layerName ∉ o.blacklistLayerNames)

theorem loaderFindLayerNameInBlacklist_eq {o : LayerProperties} {name : String} :
    loaderFindLayerNameInBlacklist name o = decide (name ∈ o.blacklistLayerNames) := by
  unfold loaderFindLayerNameInBlacklist
  rw [List.any_beq']
  exact List.contains_eq_mem _ _

theorem leftIn_of_override {o p : LayerProperties} (h : vkOverrideLayerName = p.layerName) : leftIn o p = true :=
  decide_eq_true (Or.inl h.symm)

/-- A layer of another name stays exactly if it is not in the blacklist. -/
theorem leftIn_of_ne {o p : LayerProperties} (h : ¬ vkOverrideLayerName = p.layerName) :
    leftIn o p = !loaderFindLayerNameInBlacklist p.layerName o := by
  have hne : ¬ p.layerName = vkOverrideLayerName := fun he => h he.symm
  rw [loaderFindLayerNameInBlacklist_eq, leftIn, ← decide_not]
  simp [hne]

namespace BlacklistScan

/-- The loop has come to the end of `kept`, and its pointer points to `o`, the first override layer. -/
structure At (o : LayerProperties) (s : BlacklistScan) (kept rest : List LayerProperties) : Prop where
  layers : s.layerList.layers = kept ++ rest
  fits : s.layerList.count ≤ s.layerList.slots.length
  j : s.j = kept.length
  first : loaderFindLayerProperty vkOverrideLayerName (kept ++ rest) = some o
  pointer : s.overrideProp = findLayerPlace vkOverrideLayerName s.layerList
  inBounds : s.inBounds = true

variable {o : LayerProperties} {s : BlacklistScan} {kept rest : List LayerProperties} {cur : LayerProperties}

theorem At.count (h : At o s kept rest) : s.layerList.count = kept.length + rest.length := by
  have hlen := congrArg List.length h.layers
  rw [LayerArray.layers, List.length_take, List.length_append, Nat.min_eq_left h.fits] at hlen
  exact hlen

/-- The pointer is in the list and points to `o`. -/
theorem At.pointsTo (h : At o s kept rest) :
    ∃ k : ℕ, s.overrideProp = some k ∧ s.layerList.inList k = true ∧ s.layerList.recordAt k = o := by
  have hfirst := h.first
  rw [← h.layers] at hfirst
  obtain ⟨k, hk, ho⟩ := loaderFindLayerProperty_eq_some.1 hfirst
  obtain ⟨hlt, hget⟩ := List.getElem?_eq_some_iff.1 ho
  have hsplit : s.layerList.layers = s.layerList.layers.take k ++ o :: s.layerList.layers.drop (k + 1) := by
    rw [← hget, List.getElem_cons_drop, List.take_append_drop]
  have hlen : (s.layerList.layers.take k).length = k := List.length_take_of_le (by omega)
  obtain ⟨hrecord, hcount⟩ := LayerArray.recordAt_mid hsplit
  rw [hlen] at hrecord hcount
  exact ⟨k, h.pointer.trans hk, by simp [LayerArray.inList, hcount], hrecord⟩

/-- The next layer is kept. -/
theorem At.keep (h : At o s kept (cur :: rest)) :
    At o { s with j := s.j + 1, inBounds := true } (kept ++ [cur]) rest := by
  refine ⟨?_, h.fits, ?_, ?_, h.pointer, rfl⟩
  · rw [List.append_assoc]
    exact h.layers
  · rw [h.j, List.length_append, List.length_singleton]
    rfl
  · rw [List.append_assoc]
    exact h.first

/-- The next layer, which is no override layer, is taken out. -/
theorem At.remove (h : At o s kept (cur :: rest)) (hname : ¬ vkOverrideLayerName = cur.layerName) :
    At o ⟨s.layerList.remove kept.length, s.j - 1 + 1,
      findLayerPlace vkOverrideLayerName (s.layerList.remove kept.length), true⟩ kept rest := by
  refine ⟨LayerArray.layers_remove_mid h.layers h.fits, LayerArray.fits_remove h.fits _, ?_, ?_, rfl, rfl⟩
  · rw [Int.sub_add_cancel]
    exact h.j
  · rw [← loaderFindLayerProperty_drop hname]
    exact h.first

/-- **One round** keeps the next layer or takes it out, and makes no access outside the list. -/
theorem At.step (h : At o s kept (cur :: rest)) :
    s.continues = true ∧ At o s.step (if leftIn o cur then kept ++ [cur] else kept) rest := by
  obtain ⟨k, hk, hin, ho⟩ := h.pointsTo
  obtain ⟨hcur, hlt⟩ := LayerArray.recordAt_mid h.layers
  have hj : s.j.toNat = kept.length := by rw [h.j, Int.toNat_natCast]
  have hinj : s.layerList.inList s.j = true := by simp [LayerArray.inList, h.j, hlt]
  refine ⟨by simp [continues, h.j, hlt], ?_⟩
  unfold BlacklistScan.step
  rw [hj, hcur, hinj, h.inBounds, hk]
  dsimp only
  rw [hin, ho]
  by_cases hname : vkOverrideLayerName = cur.layerName
  · rw [if_pos (beq_iff_eq.2 hname), leftIn_of_override hname, if_pos rfl]
    exact hk ▸ h.keep
  · rw [if_neg (by simpa using hname), leftIn_of_ne hname]
    rcases hblack : loaderFindLayerNameInBlacklist cur.layerName o with _ | _
    · rw [if_neg (by simp), if_pos (by simp)]
      exact hk ▸ h.keep
    · rw [if_pos rfl, if_neg (by simp)]
      exact h.remove hname

theorem At.continues_nil (h : At o s kept []) : s.continues = false := by
  have hcount := h.count
  simp [continues, h.j, hcount]

/-- The loop starts at the first layer. -/
theorem At.start {l spare : List LayerProperties} (ho : loaderFindLayerProperty vkOverrideLayerName l = some o) :
    At o ⟨⟨l ++ spare, l.length⟩, 0, findLayerPlace vkOverrideLayerName ⟨l ++ spare, l.length⟩, true⟩ [] l := by
  refine ⟨List.take_left' rfl, ?_, rfl, ho, rfl, rfl⟩
  rw [List.length_append]
  exact Nat.le_add_right _ _

/-- The loop gets to the end. -/
theorem At.run (l spare : List LayerProperties) (ho : loaderFindLayerProperty vkOverrideLayerName l = some o) :
    At o (run ⟨l ++ spare, l.length⟩) (l.filter (leftIn o)) [] := by
  have hstart : At o ⟨⟨l ++ spare, l.length⟩, 0, findLayerPlace vkOverrideLayerName ⟨l ++ spare, l.length⟩, true⟩ [] l :=
    At.start ho
  obtain ⟨k, hk, -⟩ := hstart.pointsTo
  have hk' : findLayerPlace vkOverrideLayerName ⟨l ++ spare, l.length⟩ = some k := hk
  have hloop := Lib.whileLoop_sweep (fun _ _ _ _ h => At.step h) (fun _ _ h => h.continues_nil) hstart (Nat.le_refl _)
  rw [Lib.foldl_keep, List.nil_append, hk'] at hloop
  unfold BlacklistScan.run
  rw [hk']
  exact hloop

end BlacklistScan

/-- A blacklist that holds the name of its own layer, and one name twice, which two layers in a row have. -/
def blacklistedLayers : List LayerProperties :=
  [{ LayerProperties.zero with layerName := "A" },
    { LayerProperties.zero with
      layerName := vkOverrideLayerName, blacklistLayerNames := ["A", vkOverrideLayerName, "A", "C"] },
    { LayerProperties.zero with layerName := "A" }, { LayerProperties.zero with layerName := "C" },
    { LayerProperties.zero with layerName := "B" }]

/-- **The blacklist is an exact filter.**  It is applied to the whole list, it keeps the order, and every access is
inside the list. -/
theorem removesBlacklisted (l spare : List LayerProperties) (o : LayerProperties)
    (ho : loaderFindLayerProperty vkOverrideLayerName l = some o) :
    (BlacklistScan.run ⟨l ++ spare, l.length⟩).layerList.layers = l.filter (leftIn o) ∧
      (BlacklistScan.run ⟨l ++ spare, l.length⟩).j = (BlacklistScan.run ⟨l ++ spare, l.length⟩).layerList.count ∧
      (BlacklistScan.run ⟨l ++ spare, l.length⟩).inBounds = true := by
  have hrun := BlacklistScan.At.run l spare ho
  refine ⟨by rw [hrun.layers, List.append_nil], ?_, hrun.inBounds⟩
  rw [hrun.j, hrun.count, List.length_nil, Nat.add_zero]

theorem removesBlacklisted_example :
    (BlacklistScan.run ⟨blacklistedLayers ++ [], 5⟩).layerList.layers.map LayerProperties.layerName =
      [vkOverrideLayerName, "B"] := by
  rw [show (5 : ℕ) = blacklistedLayers.length from rfl, (removesBlacklisted blacklistedLayers [] _ rfl).1]
  decide

/-! ### The loop on lists -/

theorem removeLayersInBlacklistFrom_eq (o : LayerProperties) (kept rest : List LayerProperties)
    (ho : loaderFindLayerProperty vkOverrideLayerName (kept ++ rest) = some o) :
    removeLayersInBlacklistFrom o kept rest = kept ++ rest.filter (leftIn o) := by
  induction rest generalizing kept with
  | nil => exact (List.append_nil kept).symm
  | cons cur rest ih =>
    have hkeep : loaderFindLayerProperty vkOverrideLayerName ((kept ++ [cur]) ++ rest) = some o := by
      rw [List.append_assoc]
      exact ho
    unfold removeLayersInBlacklistFrom
    by_cases hname : vkOverrideLayerName = cur.layerName
    · rw [if_pos (beq_iff_eq.2 hname), ih _ hkeep, List.filter_cons_of_pos (leftIn_of_override hname), List.append_assoc]
      rfl
    · rw [if_neg (by simpa using hname)]
      rcases hblack : loaderFindLayerNameInBlacklist cur.layerName o with _ | _
      · rw [if_neg (by simp), ih _ hkeep, List.filter_cons_of_pos (by rw [leftIn_of_ne hname, hblack]; rfl),
          List.append_assoc]
        rfl
      · have hdrop := ho
        rw [loaderFindLayerProperty_drop hname] at hdrop
        rw [if_pos rfl, hdrop]
        dsimp only
        rw [ih kept hdrop, List.filter_cons_of_neg (by rw [leftIn_of_ne hname, hblack]; simp)]

/-- **The loop on lists is the loop on the array.** -/
theorem loaderRemoveLayersInBlacklist_eq_run (l spare : List LayerProperties) :
    loaderRemoveLayersInBlacklist l = (BlacklistScan.run ⟨l ++ spare, l.length⟩).layerList.layers := by
  have hlayers : LayerArray.layers ⟨l ++ spare, l.length⟩ = l := List.take_left' rfl
  unfold loaderRemoveLayersInBlacklist
  rcases ho : loaderFindLayerProperty vkOverrideLayerName l with _ | o
  · have hnone : findLayerPlace vkOverrideLayerName ⟨l ++ spare, l.length⟩ = none := by
      rw [findLayerPlace, hlayers, List.findIdx?_eq_none_iff]
      intro p hp
      exact Bool.eq_false_iff.2 (List.find?_eq_none.1 ho p hp)
    unfold BlacklistScan.run
    rw [hnone]
    exact hlayers.symm
  · dsimp only
    rw [removeLayersInBlacklistFrom_eq o [] l ho, (BlacklistScan.At.run l spare ho).layers, List.append_nil]
    rfl

end VulkanLoader
