import VulkanLoader.Layers.Override
import VulkanLoader.Lib.Sweep

/-!
# Duplicates of layers

`loader_remove_duplicate_layers` goes over the array once and takes out, for each layer that it comes to, the first one
of the same name after it.  A third layer of a name is reached itself then, and stays, and takes the fourth out: of the
layers of one name every second one is left.
-/

namespace VulkanLoader

/-- The state of the loop of `loader_remove_duplicate_layers`. -/
structure DuplicateScan where
  layers : LayerArray
  i : ℕ

namespace DuplicateScan

/-- The loop over `j`, which stops at the first duplicate. -/
def duplicateIndex (layers : LayerArray) (i : ℕ) : ℕ → ℕ → Option ℕ
  | 0, _ => none
  | fuel + 1, j =>
    if j < layers.count then
      if (layers.recordAt i).layerName == (layers.recordAt j).layerName then some j
      else duplicateIndex layers i fuel (j + 1)
    else none

/-- `i < layers->count`. -/
def continues (s : DuplicateScan) : Bool := decide (s.i < s.layers.count)

/-- One round of the loop. -/
def step (s : DuplicateScan) : DuplicateScan where
  layers :=
    match duplicateIndex s.layers s.i s.layers.count (s.i + 1) with
    | none => s.layers
    | some j => s.layers.remove j
  i := s.i + 1

/-- `loader_remove_duplicate_layers`. -/
def run (layers : LayerArray) : DuplicateScan := Lib.whileLoop continues step layers.count ⟨layers, 0⟩

/-- The loop has come to the end of `kept`. -/
structure At (s : DuplicateScan) (kept rest : List LayerProperties) : Prop where
  layers : s.layers.layers = kept ++ rest
  fits : s.layers.count ≤ s.layers.slots.length
  i : s.i = kept.length

theorem At.count {s : DuplicateScan} {kept rest : List LayerProperties} (h : At s kept rest) :
    s.layers.count = kept.length + rest.length := by
  rw [← LayerArray.length_layers h.fits, h.layers, List.length_append]

/-- The first layer after `seen` that has the name of the layer at `i` is removed. -/
theorem layers_remove_duplicate {a : LayerArray} {i : ℕ} {cur : LayerProperties} (hcur : a.recordAt i = cur)
    (hfits : a.count ≤ a.slots.length) {seen rest : List LayerProperties} (h : a.layers = seen ++ rest) {fuel : ℕ}
    (hfuel : rest.length ≤ fuel) :
    (match duplicateIndex a i fuel seen.length with
      | none => a
      | some j => a.remove j).layers = seen ++ rest.eraseP fun other => cur.layerName == other.layerName := by
  have hcount := LayerArray.length_layers hfits
  induction rest generalizing seen fuel with
  | nil =>
    have hnone : duplicateIndex a i fuel seen.length = none := by
      cases fuel with
      | zero => rfl
      | succ fuel =>
        rw [duplicateIndex, if_neg]
        rw [← hcount, h, List.append_nil]
        exact Nat.lt_irrefl _
    rw [hnone, List.eraseP_nil]
    exact h
  | cons other rest ih =>
    obtain ⟨fuel, rfl⟩ : ∃ n, fuel = n + 1 := ⟨fuel - 1, by rw [List.length_cons] at hfuel; omega⟩
    obtain ⟨hother, hlt⟩ := LayerArray.recordAt_mid h
    rw [duplicateIndex, if_pos hlt, hcur, hother]
    rcases hname : cur.layerName == other.layerName with _ | _
    · -- the loop goes on after the other layer
      have hnext : a.layers = (seen ++ [other]) ++ rest := by
        rw [h, List.append_assoc]
        rfl
      have hrest := ih hnext (by simpa using hfuel)
      rw [List.length_append, List.append_assoc] at hrest
      rw [if_neg Bool.false_ne_true, List.eraseP_cons, hname]
      exact hrest
    · rw [if_pos rfl, List.eraseP_cons, hname]
      exact LayerArray.layers_remove_mid h hfits

/-- **One round** keeps the next layer and takes its first duplicate out. -/
theorem At.step {s : DuplicateScan} {kept rest : List LayerProperties} {cur : LayerProperties}
    (h : At s kept (cur :: rest)) :
    s.continues = true ∧
      At s.step (kept ++ [cur]) (rest.eraseP fun other => cur.layerName == other.layerName) := by
  obtain ⟨hcur, hlt⟩ := LayerArray.recordAt_mid h.layers
  have hcount := h.count
  rw [List.length_cons] at hcount
  have hseen : s.layers.layers = (kept ++ [cur]) ++ rest := by
    rw [h.layers, List.append_assoc]
    rfl
  have hremove := layers_remove_duplicate hcur h.fits hseen (show rest.length ≤ s.layers.count by omega)
  rw [List.length_append, List.length_singleton] at hremove
  refine ⟨by simpa [continues, h.i] using hlt, ?_, ?_, ?_⟩
  · unfold DuplicateScan.step
    rw [h.i]
    exact hremove
  · unfold DuplicateScan.step
    dsimp only
    split
    · exact h.fits
    · exact LayerArray.fits_remove h.fits _
  · rw [List.length_append, List.length_singleton, ← h.i]
    rfl

/-- The loop leaves what the loop on lists leaves. -/
theorem At.run {fuel : ℕ} {s : DuplicateScan} {kept rest : List LayerProperties} (h : At s kept rest)
    (hfuel : rest.length ≤ fuel) :
    (Lib.whileLoop continues DuplicateScan.step fuel s).layers.layers = kept ++ removeDuplicateLayersFrom fuel rest := by
  induction fuel generalizing s kept rest with
  | zero => exact h.layers
  | succ fuel ih =>
    cases rest with
    | nil =>
      have hcount := h.count
      rw [Lib.whileLoop_of_not (by simp [continues, h.i, hcount])]
      exact h.layers
    | cons cur rest =>
      obtain ⟨hcond, hstep⟩ := h.step
      have hle : (rest.eraseP fun other => cur.layerName == other.layerName).length ≤ fuel :=
        Nat.le_trans (List.eraseP_sublist.length_le) (by simpa using hfuel)
      rw [Lib.whileLoop_succ hcond, ih hstep hle, removeDuplicateLayersFrom, List.append_assoc]
      rfl

end DuplicateScan

/-- **The loop on lists is the loop on the array.** -/
theorem loaderRemoveDuplicateLayers_eq_run (l spare : List LayerProperties) :
    loaderRemoveDuplicateLayers l = (DuplicateScan.run ⟨l ++ spare, l.length⟩).layers.layers := by
  have hstart : DuplicateScan.At ⟨⟨l ++ spare, l.length⟩, 0⟩ [] l := by
    refine ⟨List.take_left' rfl, ?_, rfl⟩
    rw [List.length_append]
    exact Nat.le_add_right _ _
  unfold DuplicateScan.run
  rw [hstart.run (Nat.le_refl _)]
  rfl

/-! ### What is left -/

/-- The number of layers of a name. -/
def copies (name : String) (l : List LayerProperties) : ℕ := l.countP fun p => p.layerName = name

@[simp] theorem copies_nil (name : String) : copies name [] = 0 := rfl

theorem copies_cons (name : String) (p : LayerProperties) (l : List LayerProperties) :
    copies name (p :: l) = copies name l + if p.layerName = name then 1 else 0 := by
  simp [copies, List.countP_cons]

/-- Taking a duplicate of `p` out takes out one layer of its name, if there is one. -/
theorem copies_eraseP (name : String) (p : LayerProperties) (l : List LayerProperties) :
    copies name (l.eraseP fun other => p.layerName == other.layerName) =
      copies name l - if p.layerName = name then 1 else 0 := by
  induction l with
  | nil => simp [copies]
  | cons other l ih =>
    rw [List.eraseP_cons]
    by_cases hname : p.layerName = other.layerName
    · rw [beq_iff_eq.2 hname, cond_true, copies_cons, hname]
      exact (Nat.add_sub_cancel _ _).symm
    · rw [beq_eq_false_iff_ne.2 hname, cond_false, copies_cons, copies_cons, ih]
      split_ifs with hp hother
      · exact absurd (hp.trans hother.symm) hname
      · rfl
      · rfl
      · rfl

/-- **Every second copy is left**, the first one included. -/
theorem copies_removeDuplicateLayersFrom (name : String) {fuel : ℕ} {l : List LayerProperties} (hfuel : l.length ≤ fuel) :
    copies name (removeDuplicateLayersFrom fuel l) = (copies name l + 1) / 2 := by
  induction fuel generalizing l with
  | zero =>
    obtain rfl := List.eq_nil_of_length_eq_zero (Nat.le_zero.1 hfuel)
    simp [removeDuplicateLayersFrom]
  | succ fuel ih =>
    cases l with
    | nil => simp [removeDuplicateLayersFrom]
    | cons p rest =>
      have hle : (rest.eraseP fun other => p.layerName == other.layerName).length ≤ fuel :=
        Nat.le_trans (List.eraseP_sublist.length_le) (by simpa using hfuel)
      rw [removeDuplicateLayersFrom, copies_cons, copies_cons, ih hle, copies_eraseP]
      split_ifs
      · omega
      · omega

theorem nodup_names_iff {l : List LayerProperties} :
    (l.map LayerProperties.layerName).Nodup ↔ ∀ name, copies name l ≤ 1 := by
  rw [List.nodup_iff_count_le_one]
  apply forall_congr'
  intro name
  rw [copies, List.count, List.countP_map]
  exact Iff.of_eq (congrArg (· ≤ 1) (List.countP_congr fun p _ => by simp))

/-- Taking out one duplicate is enough where there is at most one. -/
theorem eraseP_eq_filter {p : LayerProperties} {l : List LayerProperties} (h : copies p.layerName l ≤ 1) :
    (l.eraseP fun other => p.layerName == other.layerName) = l.filter fun other => other.layerName ≠ p.layerName := by
  induction l with
  | nil => rfl
  | cons other l ih =>
    rw [copies_cons] at h
    rw [List.eraseP_cons]
    by_cases hname : p.layerName = other.layerName
    · rw [if_pos hname.symm] at h
      -- no layer after this one has the name
      have hnone : l.filter (fun other => other.layerName ≠ p.layerName) = l := by
        rw [List.filter_eq_self]
        intro q hq
        have hzero : copies p.layerName l = 0 := by omega
        rw [copies, List.countP_eq_zero] at hzero
        simpa using hzero q hq
      rw [beq_iff_eq.2 hname, cond_true, List.filter_cons_of_neg (by simp [hname]), hnone]
    · rw [if_neg (Ne.symm hname)] at h
      rw [beq_eq_false_iff_ne.2 hname, cond_false, List.filter_cons_of_pos (by simpa using Ne.symm hname), ih (by omega)]

/-- Where no name occurs three times, the loop leaves the first layer of each name. -/
theorem removeDuplicateLayersFrom_eq {fuel : ℕ} {l : List LayerProperties} (hfuel : l.length ≤ fuel)
    (h : ∀ name, copies name l ≤ 2) : removeDuplicateLayersFrom fuel l = Lib.firstOccurrences LayerProperties.layerName l := by
  induction fuel generalizing l with
  | zero =>
    obtain rfl := List.eq_nil_of_length_eq_zero (Nat.le_zero.1 hfuel)
    rfl
  | succ fuel ih =>
    cases l with
    | nil => rfl
    | cons p rest =>
      have hp : copies p.layerName rest ≤ 1 := by
        have hp := h p.layerName
        rw [copies_cons, if_pos rfl] at hp
        omega
      have hle : (rest.filter fun other => other.layerName ≠ p.layerName).length ≤ fuel :=
        Nat.le_trans (List.length_filter_le _ _) (by simpa using hfuel)
      have hrest : ∀ name, copies name (rest.filter fun other => other.layerName ≠ p.layerName) ≤ 2 := by
        intro name
        have hname := h name
        rw [copies_cons] at hname
        exact Nat.le_trans (List.Sublist.countP_le List.filter_sublist) (show copies name rest ≤ 2 by omega)
      rw [removeDuplicateLayersFrom, eraseP_eq_filter hp, ih hle hrest, Lib.firstOccurrences,
        Lib.firstOccurrences_filter]

/-- What a deduplication that keeps the order leaves: distinct names, the first layer of each name, and a list that it
does not change again. -/
structure RemovesDuplicates (l : List LayerProperties) : Prop where
  distinct : ((loaderRemoveDuplicateLayers l).map LayerProperties.layerName).Nodup
  first : loaderRemoveDuplicateLayers l = Lib.firstOccurrences LayerProperties.layerName l
  idempotent : loaderRemoveDuplicateLayers (loaderRemoveDuplicateLayers l) = loaderRemoveDuplicateLayers l

/-- A list of distinct names is not changed. -/
theorem loaderRemoveDuplicateLayers_of_nodup {l : List LayerProperties} (h : (l.map LayerProperties.layerName).Nodup) :
    loaderRemoveDuplicateLayers l = l := by
  have hle := nodup_names_iff.1 h
  unfold loaderRemoveDuplicateLayers
  rw [removeDuplicateLayersFrom_eq (Nat.le_refl _) fun name => Nat.le_trans (hle name) (by decide)]
  exact Lib.firstOccurrences_of_nodup h

/-- **The duplicates of a layer are all removed exactly if it has at most one.** -/
theorem removesDuplicates_iff (l : List LayerProperties) : RemovesDuplicates l ↔ ∀ name, copies name l ≤ 2 := by
  constructor
  · intro h name
    have hone := nodup_names_iff.1 h.distinct name
    unfold loaderRemoveDuplicateLayers at hone
    rw [copies_removeDuplicateLayersFrom name (Nat.le_refl _)] at hone
    omega
  · intro h
    have hfirst : loaderRemoveDuplicateLayers l = Lib.firstOccurrences LayerProperties.layerName l :=
      removeDuplicateLayersFrom_eq (Nat.le_refl _) h
    have hdistinct : ((loaderRemoveDuplicateLayers l).map LayerProperties.layerName).Nodup := by
      rw [hfirst]
      exact Lib.nodup_firstOccurrences l
    exact ⟨hdistinct, hfirst, loaderRemoveDuplicateLayers_of_nodup hdistinct⟩

/-- Three layers of one name: the third one is left. -/
def threeCopies : List LayerProperties := List.replicate 3 { LayerProperties.zero with layerName := "A" }

theorem not_removesDuplicates : ¬ RemovesDuplicates threeCopies := by
  intro h
  exact absurd h.distinct (by decide)

end VulkanLoader
