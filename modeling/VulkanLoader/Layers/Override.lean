import VulkanLoader.Layers.Properties

/-!
# What scanning removes

The override layers that do not count for the executable, the layers on the blacklist of the override layer, and the
duplicates.  Each of the three passes leaves a sublist of what it is given.

`remove_all_non_valid_override_layers` removes entries while it holds a pointer into the list, so its list is modelled
with the records behind the end of it.
-/

namespace VulkanLoader

/-- `struct loader_layer_list`: the records in its memory, and the `count` of those that belong to the list. -/
structure LayerArray where
  slots : List LayerProperties
  count : ℕ

namespace LayerArray

/-- The layers that belong to the list. -/
def layers (a : LayerArray) : List LayerProperties := a.slots.take a.count

/-- `loader_remove_layer_in_list`: the record is freed, which zeroes it, and the records after it move down.  The last
one is moved only, it stays in its old place too. -/
def remove (a : LayerArray) (layerToRemove : ℕ) : LayerArray :=
  if layerToRemove ≥ a.count then a
  else
    let freed := a.slots.set layerToRemove .zero
    { slots := freed.take layerToRemove ++ (freed.drop (layerToRemove + 1)).take (a.count - 1 - layerToRemove) ++
        freed.drop (a.count - 1)
      count := a.count - 1 }

theorem layers_remove {a : LayerArray} {k : ℕ} (hk : k < a.count) (hcount : a.count ≤ a.slots.length) :
    (a.remove k).layers = a.layers.eraseIdx k := by
  have hlen : ((a.slots.set k .zero).take k ++
      ((a.slots.set k .zero).drop (k + 1)).take (a.count - 1 - k)).length = a.count - 1 := by
    simp only [List.length_append, List.length_take, List.length_drop, List.length_set]
    omega
  unfold remove layers
  rw [if_neg (by omega)]
  dsimp only
  rw [List.take_left' hlen, List.eraseIdx_eq_take_drop_succ]
  congr 1
  · rw [List.take_set_of_le (Nat.le_refl k), List.take_take, Nat.min_eq_left (by omega)]
  · rw [List.drop_set_of_lt (by omega), List.drop_take, show a.count - 1 - k = a.count - (k + 1) by omega]

/-- The record at a place. -/
def recordAt (a : LayerArray) (place : ℕ) : LayerProperties := a.slots.getD place .zero

/-- The place belongs to the list. -/
def inList (a : LayerArray) (place : ℤ) : Bool := decide (0 ≤ place) && decide (place < a.count)

theorem length_layers {a : LayerArray} (hfits : a.count ≤ a.slots.length) : a.layers.length = a.count := by
  rw [layers, List.length_take, Nat.min_eq_left hfits]

/-- A place of the list reads as the layer there. -/
theorem recordAt_mid {a : LayerArray} {kept rest : List LayerProperties} {cur : LayerProperties}
    (h : a.layers = kept ++ cur :: rest) : a.recordAt kept.length = cur ∧ kept.length < a.count := by
  have hget : a.layers[kept.length]? = some cur := by rw [h]; simp
  obtain ⟨hlt, -⟩ := List.getElem?_eq_some_iff.1 hget
  unfold layers at hget hlt
  rw [List.length_take] at hlt
  rw [List.getElem?_take_of_lt (by omega)] at hget
  exact ⟨by rw [recordAt, List.getD_eq_getElem?_getD, hget]; rfl, by omega⟩

/-- The layer after `kept` is removed. -/
theorem layers_remove_mid {a : LayerArray} {kept rest : List LayerProperties} {cur : LayerProperties}
    (h : a.layers = kept ++ cur :: rest) (hfits : a.count ≤ a.slots.length) :
    (a.remove kept.length).layers = kept ++ rest := by
  rw [layers_remove (recordAt_mid h).2 hfits, h, List.eraseIdx_append_of_length_le (Nat.le_refl _), Nat.sub_self]
  rfl

theorem fits_remove {a : LayerArray} (hfits : a.count ≤ a.slots.length) (k : ℕ) :
    (a.remove k).count ≤ (a.remove k).slots.length := by
  unfold remove
  split_ifs
  · exact hfits
  · simp only [List.length_append, List.length_take, List.length_drop, List.length_set]
    omega

end LayerArray

/-! ### `remove_all_non_valid_override_layers` -/

/-- The state of its loop. -/
structure OverrideScan where
  layerList : LayerArray
  i : ℕ
  foundActiveOverrideLayer : Bool
  globalLayerIndex : Option ℕ

namespace OverrideScan

/-- The layer at `i` is removed, and `i`, which is a `uint32_t`, is set back. -/
def removeCurrent (s : OverrideScan) : OverrideScan :=
  { s with layerList := s.layerList.remove s.i, i := (s.i + 2 ^ 32 - 1) % 2 ^ 32 }

/-- The loop over the `app_key_paths`.  It reads them at the place `k` where the layer stood, also after a removal. -/
def checkAppKeys (curPath : String) (k : ℕ) : ℕ → ℕ → OverrideScan → OverrideScan
  | 0, _, s => s
  | fuel + 1, j, s =>
    match ((s.layerList.slots.getD k .zero).appKeyPaths)[j]? with
    | none => s
    | some path =>
      checkAppKeys curPath k fuel (j + 1)
        (if path == curPath then
          if !s.foundActiveOverrideLayer then { s with foundActiveOverrideLayer := true } else s.removeCurrent
        else s)

/-- One round of the loop.  No layer has more `app_key_paths` than all of them together. -/
def step (curPath : String) (s : OverrideScan) : OverrideScan :=
  let props := s.layerList.slots.getD s.i .zero
  if props.layerName == vkOverrideLayerName then
    if props.appKeyPaths.length > 0 then
      let s' := checkAppKeys curPath s.i ((s.layerList.slots.map fun p => p.appKeyPaths.length).sum + 1) 0 s
      if !s'.foundActiveOverrideLayer then s'.removeCurrent else s'
    else
      match s.globalLayerIndex with
      | none => { s with globalLayerIndex := some s.i }
      | some _ => s.removeCurrent
  else s

/-- The loop.  A round removes a layer for each time that it sets `i` back, so there are at most as many rounds as there
are layers. -/
def loop (curPath : String) : ℕ → OverrideScan → OverrideScan
  | 0, s => s
  | fuel + 1, s =>
    if s.i < s.layerList.count then
      let s' := s.step curPath
      loop curPath fuel { s' with i := (s'.i + 1) % 2 ^ 32 }
    else s

end OverrideScan

/-- `remove_all_non_valid_override_layers`; the path of the executable may not be known. -/
def removeAllNonValidOverrideLayers (executablePath : Option String) (instanceLayers : List LayerProperties) :
    List LayerProperties :=
  match executablePath with
  | none => instanceLayers
  | some curPath =>
    let s := OverrideScan.loop curPath instanceLayers.length ⟨⟨instanceLayers, instanceLayers.length⟩, 0, false, none⟩
    match s.foundActiveOverrideLayer, s.globalLayerIndex with
    | true, some globalLayerIndex => (s.layerList.remove globalLayerIndex).layers
    | _, _ => s.layerList.layers

/-! ### The blacklist -/

/-- `loader_find_layer_name_in_blacklist`. -/
def loaderFindLayerNameInBlacklist (layerName : String) (metaLayerProps : LayerProperties) : Bool :=
  metaLayerProps.blacklistLayerNames.any fun name => name == layerName

/-- The loop of `loader_remove_layers_in_blacklist`, its list being `kept ++ rest`.  An override layer is not removed, so
one is found again. -/
def removeLayersInBlacklistFrom :
    LayerProperties → List LayerProperties → List LayerProperties → List LayerProperties
  | _, kept, [] => kept
  | overrideProp, kept, cur :: rest =>
    if vkOverrideLayerName == cur.layerName then removeLayersInBlacklistFrom overrideProp (kept ++ [cur]) rest
    else if loaderFindLayerNameInBlacklist cur.layerName overrideProp then
      match loaderFindLayerProperty vkOverrideLayerName (kept ++ rest) with
      | none => kept ++ rest
      | some overrideProp => removeLayersInBlacklistFrom overrideProp kept rest
    else removeLayersInBlacklistFrom overrideProp (kept ++ [cur]) rest

/-- `loader_remove_layers_in_blacklist`. -/
def loaderRemoveLayersInBlacklist (layerList : List LayerProperties) : List LayerProperties :=
  match loaderFindLayerProperty vkOverrideLayerName layerList with
  | none => layerList
  | some overrideProp => removeLayersInBlacklistFrom overrideProp [] layerList

/-! ### Duplicates -/

/-- The loop of `loader_remove_duplicate_layers`, which removes the first duplicate of each layer it comes to. -/
def removeDuplicateLayersFrom : ℕ → List LayerProperties → List LayerProperties
  | 0, layers => layers
  | _ + 1, [] => []
  | fuel + 1, prop :: rest =>
    prop :: removeDuplicateLayersFrom fuel (rest.eraseP fun other => prop.layerName == other.layerName)

/-- `loader_remove_duplicate_layers`. -/
def loaderRemoveDuplicateLayers (layers : List LayerProperties) : List LayerProperties :=
  removeDuplicateLayersFrom layers.length layers

/-! ### What is left -/

theorem removeLayersInBlacklistFrom_sublist (overrideProp : LayerProperties) (kept rest : List LayerProperties) :
    (removeLayersInBlacklistFrom overrideProp kept rest).Sublist (kept ++ rest) := by
  induction rest generalizing overrideProp kept with
  | nil =>
    rw [List.append_nil]
    exact List.Sublist.refl kept
  | cons cur rest ih =>
    have hkeep : ∀ o, (removeLayersInBlacklistFrom o (kept ++ [cur]) rest).Sublist (kept ++ cur :: rest) := by
      intro o
      have h := ih o (kept ++ [cur])
      rwa [List.append_assoc] at h
    have hdrop : (kept ++ rest).Sublist (kept ++ cur :: rest) :=
      List.Sublist.append (List.Sublist.refl kept) (List.sublist_cons_self cur rest)
    unfold removeLayersInBlacklistFrom
    split_ifs
    · exact hkeep _
    · split
      · exact hdrop
      · exact (ih _ kept).trans hdrop
    · exact hkeep _

theorem loaderRemoveLayersInBlacklist_sublist (l : List LayerProperties) :
    (loaderRemoveLayersInBlacklist l).Sublist l := by
  unfold loaderRemoveLayersInBlacklist
  split
  · exact List.Sublist.refl l
  · exact removeLayersInBlacklistFrom_sublist _ [] l

theorem loaderRemoveDuplicateLayers_sublist (l : List LayerProperties) : (loaderRemoveDuplicateLayers l).Sublist l := by
  unfold loaderRemoveDuplicateLayers
  generalize l.length = fuel
  induction fuel generalizing l with
  | zero => exact List.Sublist.refl l
  | succ fuel ih =>
    cases l with
    | nil => exact List.Sublist.refl []
    | cons prop rest => exact ((ih _).trans List.eraseP_sublist).cons_cons prop

end VulkanLoader
