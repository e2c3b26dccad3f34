import VulkanLoader.Layers.Override
import VulkanLoader.Lib.Sweep
import Mathlib.Algebra.Order.BigOperators.Group.List
import Mathlib.Algebra.Order.Ring.Nat
import Mathlib.Data.List.Induction
import Mathlib.Data.List.TakeWhile

/-!
# The override layer for an executable

`remove_all_non_valid_override_layers` should leave one override layer at most: the first one whose `app_keys` have the
path of the executable, or else the first one without `app_keys`.

Its loop is followed here as a fold over the list (`selectStep`).  It does so where the loop over the `app_keys` finds
nothing more after a removal; there it goes on with the keys of the layer that has moved down, from the place after the
match, and with another match it would remove the layer before (`Rereads`).
-/

namespace VulkanLoader

section Kinds

variable (curPath : String) (p : LayerProperties)

/-- An override layer. -/
def isOverrideLayer : Bool := p.layerName == vkOverrideLayerName

/-- An override layer without `app_keys`. -/
def isGlobalOverride : Bool := isOverrideLayer p && p.appKeyPaths.isEmpty

/-- An override layer for the executable. -/
def isForExecutable : Bool := isOverrideLayer p && decide (curPath ∈ p.appKeyPaths)

/-- An override layer for other executables. -/
def isForOthers : Bool := isOverrideLayer p && !p.appKeyPaths.isEmpty && !decide (curPath ∈ p.appKeyPaths)

/-- The layer that is left: the first for the executable, or else the first without `app_keys`. -/
def selectedOverride (l : List LayerProperties) : Option LayerProperties :=
  (l.find? (isForExecutable curPath)).or (l.find? isGlobalOverride)

/-- At most one override layer is left, the selected one, and every layer of another name. -/
structure SelectsOverride (l : List LayerProperties) : Prop where
  overrides : (removeAllNonValidOverrideLayers (some curPath) l).filter isOverrideLayer =
    (selectedOverride curPath l).toList
  others : ((removeAllNonValidOverrideLayers (some curPath) l).filter fun p => !isOverrideLayer p) =
    l.filter fun p => !isOverrideLayer p

/-- What the tests say of the four kinds of layers. -/
inductive OverrideKind : Prop where
  | otherName (name : isOverrideLayer p = false) (global : isGlobalOverride p = false)
      (executable : isForExecutable curPath p = false) (others : isForOthers curPath p = false)
  | withoutKeys (name : isOverrideLayer p = true) (keys : p.appKeyPaths = []) (global : isGlobalOverride p = true)
      (executable : isForExecutable curPath p = false) (others : isForOthers curPath p = false)
  | forExecutable (name : isOverrideLayer p = true) (keys : p.appKeyPaths ≠ []) (mem : curPath ∈ p.appKeyPaths)
      (global : isGlobalOverride p = false) (executable : isForExecutable curPath p = true)
      (others : isForOthers curPath p = false)
  | forOthers (name : isOverrideLayer p = true) (keys : p.appKeyPaths ≠ []) (mem : curPath ∉ p.appKeyPaths)
      (global : isGlobalOverride p = false) (executable : isForExecutable curPath p = false)
      (others : isForOthers curPath p = true)

theorem overrideKind : OverrideKind curPath p := by
  rcases hname : isOverrideLayer p with _ | _
  · exact .otherName hname (by simp [isGlobalOverride, hname]) (by simp [isForExecutable, hname])
      (by simp [isForOthers, hname])
  · by_cases hkeys : p.appKeyPaths = []
    · exact .withoutKeys hname hkeys (by simp [isGlobalOverride, hname, hkeys]) (by simp [isForExecutable, hkeys])
        (by simp [isForOthers, hkeys])
    · have hglobal : isGlobalOverride p = false := by simp [isGlobalOverride, hkeys]
      by_cases hmem : curPath ∈ p.appKeyPaths
      · exact .forExecutable hname hkeys hmem hglobal (by simp [isForExecutable, hname, hmem])
          (by simp [isForOthers, hmem])
      · exact .forOthers hname hkeys hmem hglobal (by simp [isForExecutable, hmem])
          (by simp [isForOthers, hname, hkeys, hmem])

end Kinds

/-- The layer `p` is removed at a key, the first match or the one after it, and the layer `r` after it has a match at a
later place. -/
def RereadsNext (curPath : String) (found : Bool) (p r : LayerProperties) : Prop :=
  isOverrideLayer p = true ∧ ∃ before after, p.appKeyPaths = before ++ curPath :: after ∧
    before.count curPath = (if found then 0 else 1) ∧ curPath ∈ r.appKeyPaths.drop (before.length + 1)

/-- Somewhere in the list. -/
def Rereads (curPath : String) (l : List LayerProperties) : Prop :=
  ∃ before p r after, l = before ++ p :: r :: after ∧ RereadsNext curPath (before.any (isForExecutable curPath)) p r

/-- The first layer for the executable has its path once, and no layer for other executables comes after it. -/
def FirstMatchClean (curPath : String) (l : List LayerProperties) : Prop :=
  match l.dropWhile fun p => !isForExecutable curPath p with
  | [] => True
  | p :: after => p.appKeyPaths.count curPath = 1 ∧ after.any (isForOthers curPath) = false

/-! ### The loop as a fold -/

/-- What the loop has made of the layers before `i`. -/
structure Selection where
  kept : List LayerProperties
  found : Bool
  global : Option ℕ

/-- What a round makes of the next layer. -/
def selectStep (curPath : String) (t : Selection) (p : LayerProperties) : Selection :=
  if isGlobalOverride p then
    match t.global with
    | none => { t with kept := t.kept ++ [p], global := some t.kept.length }
    | some _ => t
  else if isForExecutable curPath p then
    if t.found = false ∧ p.appKeyPaths.count curPath = 1 then { t with kept := t.kept ++ [p], found := true }
    else { t with found := true }
  else if isForOthers curPath p && !t.found then t
  else { t with kept := t.kept ++ [p] }

namespace OverrideScan

section AppKeys

variable {curPath : String} {k : ℕ} {s : OverrideScan}

/-- Keys without a match do nothing. -/
theorem checkAppKeys_of_not_mem {j : ℕ} (h : curPath ∉ (s.layerList.recordAt k).appKeyPaths.drop j) (fuel : ℕ) :
    checkAppKeys curPath k fuel j s = s := by
  induction fuel generalizing j with
  | zero => rfl
  | succ fuel ih =>
    unfold checkAppKeys
    unfold LayerArray.recordAt at h ih
    split
    · rfl
    · rename_i path hpath
      rw [List.drop_eq_getElem?_toList_append, hpath] at h
      have hne : (path == curPath) = false := by
        refine beq_eq_false_iff_ne.2 fun he => h ?_
        simp [he]
      rw [hne, if_neg Bool.false_ne_true]
      exact ih fun hmem => h (List.mem_append_right _ hmem)

/-- The keys are read up to the first match. -/
theorem checkAppKeys_match {j : ℕ} {before after : List String}
    (h : (s.layerList.recordAt k).appKeyPaths.drop j = before ++ curPath :: after) (hbefore : curPath ∉ before)
    (fuel : ℕ) :
    checkAppKeys curPath k (before.length + 1 + fuel) j s = checkAppKeys curPath k fuel (j + before.length + 1)
      (if !s.foundActiveOverrideLayer then { s with foundActiveOverrideLayer := true } else s.removeCurrent) := by
  induction before generalizing j with
  | nil =>
    have hj : (s.layerList.recordAt k).appKeyPaths[j]? = some curPath := by
      rw [← List.head?_drop, h]
      rfl
    unfold LayerArray.recordAt at hj
    rw [List.length_nil, Nat.add_zero, show 0 + 1 + fuel = fuel + 1 by omega, checkAppKeys, hj]
    dsimp only
    rw [if_pos (beq_self_eq_true _)]
  | cons a before ih =>
    have hj : (s.layerList.recordAt k).appKeyPaths[j]? = some a := by
      rw [← List.head?_drop, h]
      rfl
    have hnext : (s.layerList.recordAt k).appKeyPaths.drop (j + 1) = before ++ curPath :: after := by
      rw [← List.drop_drop, h]
      rfl
    have ha : (a == curPath) = false := beq_eq_false_iff_ne.2 fun he => hbefore (he ▸ List.mem_cons_self)
    have hrest := ih hnext fun hmem => hbefore (List.mem_cons_of_mem _ hmem)
    unfold LayerArray.recordAt at hj
    rw [List.length_cons, show before.length + 1 + 1 + fuel = (before.length + 1 + fuel) + 1 by omega, checkAppKeys, hj]
    dsimp only
    rw [ha, if_neg Bool.false_ne_true, hrest, show j + 1 + before.length + 1 = j + (before.length + 1) + 1 by omega]

/-- There are rounds enough for the keys of each layer. -/
theorem length_appKeyPaths_le (a : LayerArray) (k : ℕ) :
    (a.recordAt k).appKeyPaths.length ≤ (a.slots.map fun p => p.appKeyPaths.length).sum := by
  unfold LayerArray.recordAt
  rw [List.getD_eq_getElem?_getD]
  rcases hk : a.slots[k]? with _ | p
  · exact Nat.zero_le _
  · exact List.le_sum_of_mem (List.mem_map.2 ⟨p, List.mem_of_getElem? hk, rfl⟩)

end AppKeys

/-- Where a layer was removed, the next one is read, or zeros. -/
theorem recordAt_remove {a : LayerArray} {kept rest : List LayerProperties} {cur : LayerProperties}
    (h : a.layers = kept ++ cur :: rest) (hfits : a.count ≤ a.slots.length) :
    (a.remove kept.length).recordAt kept.length = rest.headD .zero := by
  cases rest with
  | cons r rest => exact (LayerArray.recordAt_mid (LayerArray.layers_remove_mid h hfits)).1
  | nil =>
    have hcount : a.count = kept.length + 1 := by
      rw [← LayerArray.length_layers hfits, h, List.length_append]
      rfl
    have hlen : (a.slots.set kept.length LayerProperties.zero).length = a.slots.length := List.length_set
    unfold LayerArray.remove LayerArray.recordAt
    rw [if_neg (by omega), hcount]
    dsimp only
    rw [show kept.length + 1 - 1 - kept.length = 0 by omega, List.take_zero, List.append_nil, Nat.add_sub_cancel,
      List.take_append_drop, List.getD_eq_getElem?_getD, List.getElem?_set_self (by omega)]
    rfl

section Round

variable {curPath : String} {s : OverrideScan} {kept rest : List LayerProperties} {p : LayerProperties}

/-- After the removal of `p` the loop over the keys does nothing more. -/
theorem checkAppKeys_removeCurrent (hlayers : s.layerList.layers = kept ++ p :: rest)
    (hfits : s.layerList.count ≤ s.layerList.slots.length) (hi : s.i = kept.length) {j : ℕ}
    (hnext : ∀ r ∈ rest.head?, curPath ∉ r.appKeyPaths.drop j) (fuel : ℕ) :
    checkAppKeys curPath kept.length fuel j s.removeCurrent = s.removeCurrent := by
  apply checkAppKeys_of_not_mem
  have hrecord : s.removeCurrent.layerList.recordAt kept.length = rest.headD .zero := by
    unfold removeCurrent
    rw [hi]
    exact recordAt_remove hlayers hfits
  rw [hrecord]
  cases rest with
  | nil => simp [LayerProperties.zero]
  | cons r rest => exact hnext r rfl

/-- The keys of the layer at the place of the loop. -/
theorem keys_drop (hlayers : s.layerList.layers = kept ++ p :: rest) {before after : List String}
    (hkeys : p.appKeyPaths = before ++ curPath :: after) :
    (s.layerList.recordAt kept.length).appKeyPaths.drop 0 = before ++ curPath :: after ∧
      (s.layerList.recordAt kept.length).appKeyPaths.drop (before.length + 1) = after := by
  rw [(LayerArray.recordAt_mid hlayers).1, List.drop_zero, hkeys, ← List.drop_drop, List.drop_left]
  exact ⟨rfl, rfl⟩

/-- A layer was found before: the next one is removed at its first match. -/
theorem checkAppKeys_again (hlayers : s.layerList.layers = kept ++ p :: rest)
    (hfits : s.layerList.count ≤ s.layerList.slots.length) (hi : s.i = kept.length) (hname : isOverrideLayer p = true)
    (hnext : ∀ r ∈ rest.head?, ¬ RereadsNext curPath s.foundActiveOverrideLayer p r)
    (hfound : s.foundActiveOverrideLayer = true) {before after : List String}
    (hkeys : p.appKeyPaths = before ++ curPath :: after) (hbefore : curPath ∉ before) (fuel : ℕ) :
    checkAppKeys curPath kept.length (before.length + 1 + fuel) 0 s = s.removeCurrent := by
  rw [checkAppKeys_match (keys_drop hlayers hkeys).1 hbefore, Nat.zero_add, if_neg (by simp [hfound])]
  apply checkAppKeys_removeCurrent hlayers hfits hi
  intro r hr hreads
  refine hnext r hr ⟨hname, before, after, hkeys, ?_, hreads⟩
  rw [hfound, List.count_eq_zero_of_not_mem hbefore]
  rfl

/-- The first layer, with the path once, is found. -/
theorem checkAppKeys_once (hlayers : s.layerList.layers = kept ++ p :: rest)
    (hfound : s.foundActiveOverrideLayer = false) {before after : List String}
    (hkeys : p.appKeyPaths = before ++ curPath :: after) (hbefore : curPath ∉ before) (hafter : curPath ∉ after)
    (fuel : ℕ) :
    checkAppKeys curPath kept.length (before.length + 1 + fuel) 0 s = { s with foundActiveOverrideLayer := true } := by
  obtain ⟨hdrop, hagain⟩ := keys_drop hlayers hkeys
  rw [checkAppKeys_match hdrop hbefore, Nat.zero_add, if_pos (by simp [hfound])]
  apply checkAppKeys_of_not_mem
  rw [show (LayerArray.recordAt _ kept.length).appKeyPaths.drop (before.length + 1) = after from hagain]
  exact hafter

/-- The first layer, with the path twice, is found at the first match and removed at the second. -/
theorem checkAppKeys_twice (hlayers : s.layerList.layers = kept ++ p :: rest)
    (hfits : s.layerList.count ≤ s.layerList.slots.length) (hi : s.i = kept.length) (hname : isOverrideLayer p = true)
    (hnext : ∀ r ∈ rest.head?, ¬ RereadsNext curPath s.foundActiveOverrideLayer p r)
    (hfound : s.foundActiveOverrideLayer = false) {before mid after : List String}
    (hkeys : p.appKeyPaths = before ++ curPath :: (mid ++ curPath :: after)) (hbefore : curPath ∉ before)
    (hmid : curPath ∉ mid) (fuel : ℕ) :
    checkAppKeys curPath kept.length (before.length + 1 + (mid.length + 1 + fuel)) 0 s =
      { s with foundActiveOverrideLayer := true }.removeCurrent := by
  obtain ⟨hdrop, hagain⟩ := keys_drop hlayers hkeys
  have hmatch := checkAppKeys_match (s := { s with foundActiveOverrideLayer := true }) (k := kept.length) hagain hmid
  rw [checkAppKeys_match hdrop hbefore, Nat.zero_add, if_pos (by simp [hfound]), hmatch, if_neg (by simp)]
  apply checkAppKeys_removeCurrent (s := { s with foundActiveOverrideLayer := true }) hlayers hfits hi
  intro r hr hreads
  refine hnext r hr ⟨hname, before ++ curPath :: mid, after, ?_, ?_, ?_⟩
  · rw [hkeys, List.append_assoc, List.cons_append]
  · rw [hfound, List.count_append, List.count_cons_self, List.count_eq_zero_of_not_mem hbefore,
      List.count_eq_zero_of_not_mem hmid]
    rfl
  · rw [List.length_append, List.length_cons]
    rwa [show before.length + 1 + mid.length + 1 = before.length + (mid.length + 1) + 1 by omega] at hreads

/-- **The loop over the keys** of an override layer: it finds that the layer is for the executable, or removes it, if it
finds so a second time. -/
theorem checkAppKeys_eq (hlayers : s.layerList.layers = kept ++ p :: rest)
    (hfits : s.layerList.count ≤ s.layerList.slots.length) (hi : s.i = kept.length) (hname : isOverrideLayer p = true)
    (hnext : ∀ r ∈ rest.head?, ¬ RereadsNext curPath s.foundActiveOverrideLayer p r) :
    checkAppKeys curPath kept.length ((s.layerList.slots.map fun p => p.appKeyPaths.length).sum + 1) 0 s =
      if curPath ∉ p.appKeyPaths then s
      else if s.foundActiveOverrideLayer = false ∧ p.appKeyPaths.count curPath = 1 then
        { s with foundActiveOverrideLayer := true }
      else { s with foundActiveOverrideLayer := true }.removeCurrent := by
  have hrecord := (LayerArray.recordAt_mid hlayers).1
  have hlen := length_appKeyPaths_le s.layerList kept.length
  rw [hrecord] at hlen
  generalize (s.layerList.slots.map fun p => p.appKeyPaths.length).sum = total at hlen ⊢
  by_cases hmem : curPath ∈ p.appKeyPaths
  · rw [if_neg (not_not.2 hmem)]
    obtain ⟨before, after, hkeys, hbefore⟩ := List.eq_append_cons_of_mem hmem
    rw [hkeys, List.length_append, List.length_cons] at hlen
    have hcount : p.appKeyPaths.count curPath = after.count curPath + 1 := by
      rw [hkeys, List.count_append, List.count_cons_self, List.count_eq_zero_of_not_mem hbefore, Nat.zero_add]
    obtain ⟨fuel, hfuel⟩ : ∃ fuel, total + 1 = before.length + 1 + (after.length + 1 + fuel) :=
      ⟨total - (before.length + after.length + 1), by omega⟩
    rw [hfuel]
    rcases hfound : s.foundActiveOverrideLayer with _ | _
    · by_cases hafter : curPath ∈ after
      · obtain ⟨mid, after', rfl, hmid⟩ := List.eq_append_cons_of_mem hafter
        have htwice : ¬ p.appKeyPaths.count curPath = 1 := by
          rw [hcount, List.count_append, List.count_cons_self]
          omega
        rw [if_neg fun h => htwice h.2, List.length_append, List.length_cons,
          show mid.length + (after'.length + 1) + 1 + fuel = mid.length + 1 + (after'.length + 1 + fuel) by omega]
        exact checkAppKeys_twice hlayers hfits hi hname hnext hfound hkeys hbefore hmid _
      · have honce : p.appKeyPaths.count curPath = 1 := by
          rw [hcount, List.count_eq_zero_of_not_mem hafter]
        rw [if_pos ⟨rfl, honce⟩]
        exact checkAppKeys_once hlayers hfound hkeys hbefore hafter _
    · have hsame : { s with foundActiveOverrideLayer := true } = s := by rw [← hfound]
      rw [if_neg (by simp), hsame]
      exact checkAppKeys_again hlayers hfits hi hname hnext hfound hkeys hbefore _
  · rw [if_pos hmem]
    apply checkAppKeys_of_not_mem
    rw [hrecord, List.drop_zero]
    exact hmem

/-- The loop has come to the layers `rest`, and has made `t` of the others. -/
structure At (curPath : String) (s : OverrideScan) (t : Selection) (rest : List LayerProperties) : Prop where
  layers : s.layerList.layers = t.kept ++ rest
  fits : s.layerList.count ≤ s.layerList.slots.length
  small : s.layerList.count < 2 ^ 32
  i : s.i = t.kept.length
  found : s.foundActiveOverrideLayer = t.found
  global : s.globalLayerIndex = t.global
  noReread : ∀ before p r after, rest = before ++ p :: r :: after →
    ¬ RereadsNext curPath (t.found || before.any (isForExecutable curPath)) p r

/-- The round and the `i++` after it. -/
def round (curPath : String) (s : OverrideScan) : OverrideScan :=
  { s.step curPath with i := ((s.step curPath).i + 1) % 2 ^ 32 }

variable {t : Selection}

theorem At.count (h : At curPath s t rest) : s.layerList.count = t.kept.length + rest.length := by
  rw [← LayerArray.length_layers h.fits, h.layers, List.length_append]

/-- The condition on the rest, once the next layer is behind. -/
theorem At.noReread_tail (h : At curPath s t (p :: rest)) :
    ∀ before q r after, rest = before ++ q :: r :: after →
      ¬ RereadsNext curPath ((t.found || isForExecutable curPath p) || before.any (isForExecutable curPath)) q r := by
  rintro before q r after rfl
  have hnext := h.noReread (p :: before) q r after rfl
  rwa [List.any_cons, ← Bool.or_assoc] at hnext

/-- The next layer is kept. -/
theorem At.keep (h : At curPath s t (p :: rest)) {found : Bool} {global : Option ℕ}
    (hfound : found = (t.found || isForExecutable curPath p)) :
    At curPath ⟨s.layerList, (s.i + 1) % 2 ^ 32, found, global⟩ ⟨t.kept ++ [p], found, global⟩ rest := by
  have hcount := h.count
  have hsmall := h.small
  rw [List.length_cons] at hcount
  refine ⟨by rw [h.layers, List.append_assoc]; rfl, h.fits, h.small, ?_, rfl, rfl, ?_⟩
  · rw [h.i, List.length_append, List.length_singleton]
    exact Nat.mod_eq_of_lt (by omega)
  · rw [hfound]
    exact h.noReread_tail

/-- The next layer is removed. -/
theorem At.drop (h : At curPath s t (p :: rest)) {found : Bool}
    (hfound : found = (t.found || isForExecutable curPath p)) :
    At curPath ⟨s.layerList.remove s.i, ((s.i + 2 ^ 32 - 1) % 2 ^ 32 + 1) % 2 ^ 32, found, s.globalLayerIndex⟩
      ⟨t.kept, found, t.global⟩ rest := by
  have hcount := h.count
  have hsmall := h.small
  rw [List.length_cons] at hcount
  have hlt := (LayerArray.recordAt_mid h.layers).2
  have hremoved : (s.layerList.remove s.i).layers = t.kept ++ rest := by
    rw [h.i]
    exact LayerArray.layers_remove_mid h.layers h.fits
  refine ⟨hremoved, LayerArray.fits_remove h.fits _, ?_, ?_, rfl, h.global, ?_⟩
  · rw [← LayerArray.length_layers (LayerArray.fits_remove h.fits _), hremoved, List.length_append]
    omega
  · rw [h.i]
    dsimp only
    omega
  · rw [hfound]
    exact h.noReread_tail

/-- A round at a layer with `app_keys`. -/
theorem step_of_keys (h : At curPath s t (p :: rest)) (hname : isOverrideLayer p = true) (hkeys : p.appKeyPaths ≠ []) :
    s.step curPath =
      if curPath ∉ p.appKeyPaths then if t.found then s else s.removeCurrent
      else if t.found = false ∧ p.appKeyPaths.count curPath = 1 then { s with foundActiveOverrideLayer := true }
      else { s with foundActiveOverrideLayer := true }.removeCurrent := by
  have hget : s.layerList.slots.getD s.i .zero = p := by
    rw [h.i]
    exact (LayerArray.recordAt_mid h.layers).1
  have hlen : p.appKeyPaths.length > 0 := List.length_pos_iff.2 hkeys
  have hname' : (p.layerName == vkOverrideLayerName) = true := hname
  have hnext : ∀ r ∈ rest.head?, ¬ RereadsNext curPath s.foundActiveOverrideLayer p r := by
    intro r hr
    obtain ⟨after, rfl⟩ : ∃ after, rest = r :: after := ⟨rest.tail, (List.cons_head?_tail hr).symm⟩
    have hnone := h.noReread [] p r after rfl
    rwa [List.any_nil, Bool.or_false, ← h.found] at hnone
  have hcheck := checkAppKeys_eq h.layers h.fits h.i hname hnext
  rw [← h.i, h.found] at hcheck
  unfold OverrideScan.step
  rw [hget]
  dsimp only
  rw [if_pos hname', if_pos hlen, hcheck]
  by_cases hmem : curPath ∈ p.appKeyPaths
  · rw [if_neg (not_not.2 hmem), if_neg (not_not.2 hmem)]
    split_ifs with hclean hfound
    · simp at hfound
    · rfl
    · simp [removeCurrent] at *
    · rfl
  · rw [if_pos hmem, if_pos hmem, h.found]
    rcases t.found with _ | _
    · rfl
    · rfl

/-- **One round** of the loop. -/
theorem At.round (h : At curPath s t (p :: rest)) :
    s.i < s.layerList.count ∧ At curPath (OverrideScan.round curPath s) (selectStep curPath t p) rest := by
  obtain ⟨hrecord, hlt⟩ := LayerArray.recordAt_mid h.layers
  refine ⟨by rw [h.i]; exact hlt, ?_⟩
  have hget : s.layerList.slots.getD s.i .zero = p := by rw [h.i]; exact hrecord
  obtain ⟨layerList, i, found, global⟩ := s
  obtain ⟨kept, found', global'⟩ := t
  obtain rfl : found = found' := h.found
  obtain rfl : global = global' := h.global
  unfold OverrideScan.round selectStep
  cases overrideKind curPath p with
  | otherName hname hglobal hexecutable hothers =>
    have hstep : OverrideScan.step curPath ⟨layerList, i, found, global⟩ = ⟨layerList, i, found, global⟩ := by
      unfold OverrideScan.step
      rw [hget]
      exact if_neg (by rw [show (p.layerName == vkOverrideLayerName) = false from hname]; exact Bool.false_ne_true)
    rw [hstep, hglobal, hexecutable, hothers, if_neg Bool.false_ne_true, if_neg Bool.false_ne_true]
    exact h.keep (by simp [hexecutable])
  | withoutKeys hname hkeys hglobal hexecutable =>
    rw [if_pos hglobal]
    unfold OverrideScan.step
    rw [hget]
    dsimp only
    rw [if_pos (show (p.layerName == vkOverrideLayerName) = true from hname), if_neg (by simp [hkeys])]
    have hsame : found = (found || isForExecutable curPath p) := by simp [hexecutable]
    rcases global with _ | g
    · obtain rfl : i = kept.length := h.i
      exact h.keep hsame
    · exact h.drop hsame
  | forExecutable hname hkeys hmem hglobal hexecutable =>
    have hsame : true = (found || isForExecutable curPath p) := by simp [hexecutable]
    rw [step_of_keys h hname hkeys, hglobal, if_neg Bool.false_ne_true, if_neg (not_not.2 hmem), if_pos hexecutable]
    dsimp only
    by_cases hclean : found = false ∧ p.appKeyPaths.count curPath = 1
    · rw [if_pos hclean, if_pos hclean]
      exact h.keep hsame
    · rw [if_neg hclean, if_neg hclean]
      exact h.drop hsame
  | forOthers hname hkeys hmem hglobal hexecutable hothers =>
    have hsame : found = (found || isForExecutable curPath p) := by simp [hexecutable]
    rw [step_of_keys h hname hkeys, hglobal, hothers, if_neg Bool.false_ne_true, if_pos hmem,
      if_neg (show ¬ isForExecutable curPath p = true by simp [hexecutable])]
    rcases found with _ | _
    · exact h.drop hsame
    · exact h.keep hsame

end Round

/-- The loop is the general one. -/
theorem loop_eq_whileLoop (curPath : String) (fuel : ℕ) (s : OverrideScan) :
    loop curPath fuel s = Lib.whileLoop (fun s => decide (s.i < s.layerList.count)) (round curPath) fuel s := by
  induction fuel generalizing s with
  | zero => rfl
  | succ fuel ih =>
    unfold loop Lib.whileLoop
    by_cases hi : s.i < s.layerList.count
    · rw [if_pos hi, if_pos (decide_eq_true hi)]
      exact ih _
    · rw [if_neg hi, if_neg (by simpa using hi)]

/-- The loop gets to the end. -/
theorem At.loop {curPath : String} {l : List LayerProperties} (hl : l.length < 2 ^ 32) (hreads : ¬ Rereads curPath l) :
    At curPath (OverrideScan.loop curPath l.length ⟨⟨l, l.length⟩, 0, false, none⟩)
      (l.foldl (selectStep curPath) ⟨[], false, none⟩) [] := by
  have hstart : At curPath ⟨⟨l, l.length⟩, 0, false, none⟩ ⟨[], false, none⟩ l := by
    refine ⟨List.take_length, Nat.le_refl _, hl, rfl, rfl, rfl, ?_⟩
    intro before p r after heq hread
    exact hreads ⟨before, p, r, after, heq, hread⟩
  rw [loop_eq_whileLoop]
  refine Lib.whileLoop_sweep (fun s t p rest h => ?_) (fun s t h => ?_) hstart (Nat.le_refl _)
  · exact ⟨decide_eq_true h.round.1, h.round.2⟩
  · have hcount := h.count
    rw [List.length_nil, Nat.add_zero] at hcount
    exact decide_eq_false (by rw [h.i, hcount]; exact Nat.lt_irrefl _)

end OverrideScan

/-- The layers that are left of a selection. -/
def Selection.result (t : Selection) : List LayerProperties :=
  match t.found, t.global with
  | true, some g => t.kept.eraseIdx g
  | _, _ => t.kept

/-- **What is left**, where no layer is read that moved down. -/
theorem removeAllNonValidOverrideLayers_eq {curPath : String} {l : List LayerProperties} (hl : l.length < 2 ^ 32)
    (hreads : ¬ Rereads curPath l) :
    removeAllNonValidOverrideLayers (some curPath) l = (l.foldl (selectStep curPath) ⟨[], false, none⟩).result := by
  have hloop := OverrideScan.At.loop hl hreads
  have hlayers := hloop.layers
  rw [List.append_nil] at hlayers
  unfold removeAllNonValidOverrideLayers Selection.result
  dsimp only
  rw [hloop.found, hloop.global]
  rcases (l.foldl (selectStep curPath) ⟨[], false, none⟩).found with _ | _
  · exact hlayers
  rcases (l.foldl (selectStep curPath) ⟨[], false, none⟩).global with _ | g
  · exact hlayers
  dsimp only
  rcases Nat.lt_or_ge g (OverrideScan.loop curPath l.length ⟨⟨l, l.length⟩, 0, false, none⟩).layerList.count with hg | hg
  · rw [LayerArray.layers_remove hg hloop.fits, hlayers]
  · have hlen := LayerArray.length_layers hloop.fits
    rw [hlayers] at hlen
    unfold LayerArray.remove
    rw [if_pos hg, hlayers, List.eraseIdx_of_length_le (by omega)]

/-! ### What the fold leaves -/

/-- An override layer with `app_keys`. -/
def isKeyedOverride (p : LayerProperties) : Bool := isOverrideLayer p && !p.appKeyPaths.isEmpty

/-- The override layers with `app_keys` that are left: the first one for the executable, if it has the path once, and
after it those for others. -/
def keyedLeft (curPath : String) (l : List LayerProperties) : List LayerProperties :=
  match l.dropWhile fun p => !isForExecutable curPath p with
  | [] => []
  | p :: after => (if p.appKeyPaths.count curPath = 1 then [p] else []) ++ after.filter (isForOthers curPath)

section Left

variable {curPath : String} {p : LayerProperties} {l : List LayerProperties}

theorem keyedLeft_of_not_found (h : l.any (isForExecutable curPath) = false) : keyedLeft curPath l = [] := by
  unfold keyedLeft
  rw [List.dropWhile_eq_nil_iff.2 fun q hq => by simpa using List.any_eq_false.1 h q hq]

theorem keyedLeft_split {before after : List LayerProperties} (hp : isForExecutable curPath p = true)
    (h : before.any (isForExecutable curPath) = false) :
    keyedLeft curPath (before ++ p :: after) =
      (if p.appKeyPaths.count curPath = 1 then [p] else []) ++ after.filter (isForOthers curPath) := by
  unfold keyedLeft
  rw [List.dropWhile_append_of_pos fun q hq => by simpa using List.any_eq_false.1 h q hq,
    List.dropWhile_cons_of_neg (by simp [hp])]

/-- A list with a layer for the executable has a first one. -/
theorem exists_first (h : l.any (isForExecutable curPath) = true) :
    ∃ before p after, l = before ++ p :: after ∧ isForExecutable curPath p = true ∧
      before.any (isForExecutable curPath) = false ∧ l.find? (isForExecutable curPath) = some p := by
  obtain ⟨p, hp⟩ := Option.isSome_iff_exists.1 (List.find?_isSome.2 (List.any_eq_true.1 h))
  obtain ⟨hmatch, before, after, rfl, hbefore⟩ := List.find?_eq_some_iff_append.1 hp
  refine ⟨before, p, after, rfl, hmatch, List.any_eq_false.2 fun q hq => ?_, hp⟩
  simpa using hbefore q hq

/-- The next layer goes to the keyed ones that are left. -/
theorem keyedLeft_concat (curPath : String) (l : List LayerProperties) (p : LayerProperties) :
    keyedLeft curPath (l ++ [p]) =
      if l.any (isForExecutable curPath) then keyedLeft curPath l ++ [p].filter (isForOthers curPath)
      else if isForExecutable curPath p ∧ p.appKeyPaths.count curPath = 1 then [p] else [] := by
  rcases hfound : l.any (isForExecutable curPath) with _ | _
  · rw [if_neg Bool.false_ne_true]
    by_cases hp : isForExecutable curPath p = true
    · rw [keyedLeft_split hp hfound, List.filter_nil, List.append_nil]
      simp [hp]
    · rw [keyedLeft_of_not_found (by simp [hfound, hp]), if_neg fun h => hp h.1]
  · obtain ⟨before, q, after, rfl, hq, hbefore, -⟩ := exists_first hfound
    rw [if_pos rfl, List.append_assoc, List.cons_append, keyedLeft_split hq hbefore, keyedLeft_split hq hbefore,
      List.filter_append, List.append_assoc]

/-- What the fold has made of a list. -/
structure Selected (curPath : String) (l : List LayerProperties) (t : Selection) : Prop where
  others : (t.kept.filter fun p => !isOverrideLayer p) = l.filter fun p => !isOverrideLayer p
  found : t.found = l.any (isForExecutable curPath)
  keyed : t.kept.filter isKeyedOverride = keyedLeft curPath l
  globals : (t.global = none ∧ l.find? isGlobalOverride = none ∧ t.kept.filter isGlobalOverride = []) ∨
    ∃ before g after, t.kept = before ++ g :: after ∧ t.global = some before.length ∧
      l.find? isGlobalOverride = some g ∧ before.filter isGlobalOverride = [] ∧ after.filter isGlobalOverride = []

variable {t : Selection}

theorem find?_concat_of_not {q : LayerProperties → Bool} (hp : q p = false) : (l ++ [p]).find? q = l.find? q := by
  rw [List.find?_append, List.find?_cons_of_neg (by simp [hp]), List.find?_nil, Option.or_none]

/-- The next layer, which has `app_keys` or another name, is kept. -/
theorem Selected.keep (h : Selected curPath l t) (hglobal : isGlobalOverride p = false)
    (hkeyed : keyedLeft curPath (l ++ [p]) = keyedLeft curPath l ++ [p].filter isKeyedOverride) {found : Bool}
    (hfound : found = (t.found || isForExecutable curPath p)) :
    Selected curPath (l ++ [p]) ⟨t.kept ++ [p], found, t.global⟩ := by
  refine ⟨?_, ?_, ?_, ?_⟩
  · rw [List.filter_append, List.filter_append, h.others]
  · rw [List.any_append, ← h.found, hfound]
    simp
  · rw [List.filter_append, h.keyed, hkeyed]
  · rw [find?_concat_of_not hglobal]
    rcases h.globals with ⟨hnone, hfind, hkept⟩ | ⟨before, g, after, hkept, hg, hfind, hbefore, hafter⟩
    · refine Or.inl ⟨hnone, hfind, ?_⟩
      rw [List.filter_append, hkept]
      simp [hglobal]
    · refine Or.inr ⟨before, g, after ++ [p], by simp [hkept], hg, hfind, hbefore, ?_⟩
      rw [List.filter_append, hafter]
      simp [hglobal]

/-- The next layer, an override layer that does not become the global one, is removed. -/
theorem Selected.drop (h : Selected curPath l t) (hname : isOverrideLayer p = true)
    (hglobal : isGlobalOverride p = true → t.global ≠ none)
    (hkeyed : keyedLeft curPath (l ++ [p]) = keyedLeft curPath l) {found : Bool}
    (hfound : found = (t.found || isForExecutable curPath p)) :
    Selected curPath (l ++ [p]) ⟨t.kept, found, t.global⟩ := by
  refine ⟨?_, ?_, by rw [hkeyed]; exact h.keyed, ?_⟩
  · rw [List.filter_append, h.others]
    simp [hname]
  · rw [List.any_append, ← h.found, hfound]
    simp
  · rcases h.globals with ⟨hnone, hfind, hkept⟩ | ⟨before, g, after, hkept, hg, hfind, hbefore, hafter⟩
    · have hp : isGlobalOverride p = false := by
        rcases hp : isGlobalOverride p with _ | _
        · rfl
        · exact absurd hnone (hglobal hp)
      exact Or.inl ⟨hnone, by rw [find?_concat_of_not hp]; exact hfind, hkept⟩
    · exact Or.inr ⟨before, g, after, hkept, hg, by rw [List.find?_append, hfind]; rfl, hbefore, hafter⟩

/-- The first layer without `app_keys` is kept. -/
theorem Selected.keepGlobal (h : Selected curPath l t) (hglobal : isGlobalOverride p = true) (hnone : t.global = none)
    (hkeyed : keyedLeft curPath (l ++ [p]) = keyedLeft curPath l ++ [p].filter isKeyedOverride)
    (hexecutable : isForExecutable curPath p = false) :
    Selected curPath (l ++ [p]) ⟨t.kept ++ [p], t.found, some t.kept.length⟩ := by
  refine ⟨?_, ?_, ?_, ?_⟩
  · rw [List.filter_append, List.filter_append, h.others]
  · rw [List.any_append, ← h.found]
    simp [hexecutable]
  · rw [List.filter_append, h.keyed, hkeyed]
  · rcases h.globals with ⟨-, hfind, hkept⟩ | ⟨before, g, after, -, hg, -⟩
    · refine Or.inr ⟨t.kept, p, [], rfl, rfl, ?_, hkept, rfl⟩
      rw [List.find?_append, hfind]
      simp [hglobal]
    · rw [hnone] at hg
      cases hg

/-- **One step** of the fold. -/
theorem Selected.step (h : Selected curPath l t) (p : LayerProperties) :
    Selected curPath (l ++ [p]) (selectStep curPath t p) := by
  have hconcat := keyedLeft_concat curPath l p
  rw [← h.found] at hconcat
  have hempty : t.found = false → keyedLeft curPath l = [] := fun hf =>
    keyedLeft_of_not_found (h.found.symm.trans hf)
  -- a layer that is for no executable leaves what is left of the keyed ones
  have hplain : isForExecutable curPath p = false → isForOthers curPath p = false →
      keyedLeft curPath (l ++ [p]) = keyedLeft curPath l := by
    intro hexecutable hothers
    rw [hconcat]
    split_ifs with hf hp
    · simp [hothers]
    · simp [hexecutable] at hp
    · exact (hempty (by simpa using hf)).symm
  unfold selectStep
  cases overrideKind curPath p with
  | otherName hname hglobal hexecutable hothers =>
    rw [hglobal, hexecutable, hothers, if_neg Bool.false_ne_true, if_neg Bool.false_ne_true]
    refine h.keep hglobal ?_ (by simp [hexecutable])
    rw [hplain hexecutable hothers]
    simp [isKeyedOverride, hname]
  | withoutKeys hname hkeys hglobal hexecutable hothers =>
    rw [if_pos hglobal]
    rcases hg : t.global with _ | g
    · refine h.keepGlobal hglobal hg ?_ hexecutable
      rw [hplain hexecutable hothers]
      simp [isKeyedOverride, hkeys]
    · exact h.drop hname (fun _ => by simp [hg]) (hplain hexecutable hothers) (by simp [hexecutable])
  | forExecutable hname hkeys hmem hglobal hexecutable hothers =>
    have hkeyed : isKeyedOverride p = true := by simp [isKeyedOverride, hname, hkeys]
    rw [hglobal, if_neg Bool.false_ne_true, if_pos hexecutable]
    by_cases hclean : t.found = false ∧ p.appKeyPaths.count curPath = 1
    · rw [if_pos hclean]
      refine h.keep hglobal ?_ (by simp [hexecutable])
      rw [hconcat, hclean.1, if_neg Bool.false_ne_true, if_pos ⟨hexecutable, hclean.2⟩, hempty hclean.1]
      simp [hkeyed]
    · rw [if_neg hclean]
      refine h.drop hname (by simp [hglobal]) ?_ (by simp [hexecutable])
      rw [hconcat]
      rcases hf : t.found with _ | _
      · rw [if_neg Bool.false_ne_true, if_neg fun hp => hclean ⟨hf, hp.2⟩, hempty hf]
      · simp [hothers]
  | forOthers hname hkeys hmem hglobal hexecutable hothers =>
    have hkeyed : isKeyedOverride p = true := by simp [isKeyedOverride, hname, hkeys]
    rw [hglobal, hothers, if_neg Bool.false_ne_true,
      if_neg (show ¬ isForExecutable curPath p = true by simp [hexecutable])]
    rcases hf : t.found with _ | _
    · refine h.drop hname (by simp [hglobal]) ?_ (by simp [hexecutable, hf])
      rw [hconcat, hf, if_neg Bool.false_ne_true, if_neg (by simp [hexecutable]), hempty hf]
    · refine h.keep hglobal ?_ (by simp [hf])
      rw [hconcat, hf, if_pos rfl]
      simp [hothers, hkeyed]

theorem selected_foldl (curPath : String) (l : List LayerProperties) :
    Selected curPath l (l.foldl (selectStep curPath) ⟨[], false, none⟩) := by
  induction l using List.reverseRecOn with
  | nil => exact ⟨rfl, rfl, rfl, Or.inl ⟨rfl, rfl, rfl⟩⟩
  | append_singleton l p ih =>
    rw [List.foldl_append]
    exact ih.step p

theorem not_keyed_of_global (hp : isGlobalOverride p = true) : isOverrideLayer p = true ∧ isKeyedOverride p = false := by
  obtain ⟨hname, hkeys⟩ := (Bool.and_eq_true_iff).1 hp
  exact ⟨hname, by simp [isKeyedOverride, hname, hkeys]⟩

/-- Among layers that have `app_keys` or another name, the override layers are those with keys. -/
theorem filter_override_eq (h : l.filter isGlobalOverride = []) : l.filter isOverrideLayer = l.filter isKeyedOverride := by
  apply List.filter_congr
  intro p hp
  have hglobal : isGlobalOverride p = false := by simpa using List.filter_eq_nil_iff.1 h p hp
  unfold isGlobalOverride at hglobal
  unfold isKeyedOverride
  rcases hname : isOverrideLayer p with _ | _
  · rfl
  · rw [hname, Bool.true_and] at hglobal
    rw [hglobal]
    rfl

theorem Selected.result_others (h : Selected curPath l t) :
    (t.result.filter fun p => !isOverrideLayer p) = l.filter fun p => !isOverrideLayer p := by
  rw [← h.others]
  unfold Selection.result
  rcases h.globals with ⟨hnone, -, -⟩ | ⟨before, g, after, hkept, hg, hfind, -, -⟩
  · rw [hnone]
    rcases t.found with _ | _
    · rfl
    · rfl
  · rw [hg]
    rcases t.found with _ | _
    · rfl
    · have hname := (not_keyed_of_global (List.find?_some hfind)).1
      dsimp only
      rw [hkept, List.eraseIdx_append_of_length_le (Nat.le_refl _), Nat.sub_self, List.eraseIdx_cons_zero,
        List.filter_append, List.filter_append, List.filter_cons_of_neg (by simp [hname])]

/-- The override layers that are left: those with keys, if one is for the executable, or else the first without. -/
theorem Selected.result_overrides (h : Selected curPath l t) :
    t.result.filter isOverrideLayer =
      if l.any (isForExecutable curPath) then keyedLeft curPath l else (l.find? isGlobalOverride).toList := by
  have hkeyed := h.keyed
  unfold Selection.result
  rw [← h.found]
  rcases h.globals with ⟨hnone, hfind, hkept⟩ | ⟨before, g, after, hkept, hg, hfind, hbefore, hafter⟩
  · rw [← filter_override_eq hkept] at hkeyed
    rw [hnone, hfind]
    rcases hf : t.found with _ | _
    · rw [keyedLeft_of_not_found (h.found.symm.trans hf)] at hkeyed
      exact hkeyed
    · exact hkeyed
  · obtain ⟨hname, hnot⟩ := not_keyed_of_global (List.find?_some hfind)
    rw [hkept, List.filter_append, List.filter_cons_of_neg (by simp [hnot])] at hkeyed
    rw [hg, hfind, hkept]
    rcases hf : t.found with _ | _
    · rw [keyedLeft_of_not_found (h.found.symm.trans hf), List.append_eq_nil_iff] at hkeyed
      dsimp only
      rw [List.filter_append, List.filter_cons_of_pos hname, filter_override_eq hbefore, filter_override_eq hafter,
        hkeyed.1, hkeyed.2]
      rfl
    · dsimp only
      rw [List.eraseIdx_append_of_length_le (Nat.le_refl _), Nat.sub_self, List.eraseIdx_cons_zero, List.filter_append,
        filter_override_eq hbefore, filter_override_eq hafter, hkeyed]
      rfl

/-- The first layer for the executable is the one with keys that is left exactly if the list is clean. -/
theorem keyedLeft_eq_iff (hfound : l.any (isForExecutable curPath) = true) :
    keyedLeft curPath l = (selectedOverride curPath l).toList ↔ FirstMatchClean curPath l := by
  obtain ⟨before, p, after, rfl, hp, hbefore, hfind⟩ := exists_first hfound
  have hselected : (selectedOverride curPath (before ++ p :: after)).toList = [p] := by
    unfold selectedOverride
    rw [hfind]
    rfl
  have hnot : p ∉ after.filter (isForOthers curPath) := by
    intro hmem
    have hothers := (List.mem_filter.1 hmem).2
    obtain ⟨-, hkeys⟩ := (Bool.and_eq_true_iff).1 hp
    unfold isForOthers at hothers
    rw [hkeys] at hothers
    simp at hothers
  have hclean : FirstMatchClean curPath (before ++ p :: after) ↔
      p.appKeyPaths.count curPath = 1 ∧ after.any (isForOthers curPath) = false := by
    unfold FirstMatchClean
    rw [List.dropWhile_append_of_pos fun q hq => by simpa using List.any_eq_false.1 hbefore q hq,
      List.dropWhile_cons_of_neg (by simp [hp])]
  rw [hselected, keyedLeft_split hp hbefore, hclean]
  constructor
  · intro heq
    split_ifs at heq with honce
    · rw [List.cons_append, List.nil_append, List.cons.injEq] at heq
      exact ⟨honce, List.any_eq_false.2 fun q hq => List.filter_eq_nil_iff.1 heq.2 q hq⟩
    · rw [List.nil_append] at heq
      exact absurd (heq ▸ List.mem_singleton_self p) hnot
  · rintro ⟨honce, hothers⟩
    rw [if_pos honce, List.filter_eq_nil_iff.2 fun q hq => List.any_eq_false.1 hothers q hq]
    rfl

end Left

/-- **The selection of the override layer** is right, where no layer is read that moved down, if and only if the first
layer for the executable has its path once and no layer for other executables comes after it. -/
theorem selectsOverride_iff {curPath : String} {l : List LayerProperties} (hl : l.length < 2 ^ 32)
    (hreads : ¬ Rereads curPath l) : SelectsOverride curPath l ↔ FirstMatchClean curPath l := by
  have hselected := selected_foldl curPath l
  have hoverrides := hselected.result_overrides
  rw [← removeAllNonValidOverrideLayers_eq hl hreads] at hoverrides
  have hothers := hselected.result_others
  rw [← removeAllNonValidOverrideLayers_eq hl hreads] at hothers
  rcases hfound : l.any (isForExecutable curPath) with _ | _
  · rw [hfound, if_neg Bool.false_ne_true] at hoverrides
    have hnone : l.find? (isForExecutable curPath) = none := by
      rw [List.find?_eq_none]
      exact fun q hq => List.any_eq_false.1 hfound q hq
    refine iff_of_true ⟨?_, hothers⟩ ?_
    · rw [hoverrides, selectedOverride, hnone, Option.none_or]
    · unfold FirstMatchClean
      rw [List.dropWhile_eq_nil_iff.2 fun q hq => by simpa using List.any_eq_false.1 hfound q hq]
      trivial
  · rw [hfound, if_pos rfl] at hoverrides
    rw [← keyedLeft_eq_iff hfound, ← hoverrides]
    exact ⟨fun h => h.overrides, fun h => ⟨h, hothers⟩⟩

/-- An override layer with these `app_keys`. -/
def overrideFor (appKeyPaths : List String) : LayerProperties :=
  { LayerProperties.zero with layerName := vkOverrideLayerName, appKeyPaths := appKeyPaths }

theorem selectsOverride_iff_globalLast : SelectsOverride "/app" [overrideFor ["/app"], overrideFor []] := by
  refine (selectsOverride_iff (by decide) ?_).2 ⟨by decide, by decide⟩
  rintro ⟨before, p, r, after, heq, -, pre, post, -, -, hmem⟩
  rcases before with _ | ⟨b, _ | ⟨c, before⟩⟩
  · obtain ⟨-, rfl, -⟩ : overrideFor ["/app"] = p ∧ overrideFor [] = r ∧ [] = after := by simpa using heq
    simp [overrideFor] at hmem
  · simp at heq
  · simp at heq

/-- A layer for another executable after the one for this executable. -/
def othersLast : List LayerProperties := [overrideFor ["/app"], overrideFor ["/other"]]

theorem not_selectsOverride : ¬ SelectsOverride "/app" othersLast := by
  intro h
  have hlen := congrArg List.length h.overrides
  exact absurd hlen (by decide)

/-- Reading on takes the layer before out, of whatever name. -/
example : ((removeAllNonValidOverrideLayers (some "/app")
    [overrideFor ["/app"], { LayerProperties.zero with layerName := "A" }, overrideFor ["/app"],
      overrideFor ["/other", "/app"]]).map LayerProperties.layerName) = [vkOverrideLayerName] := by decide

end VulkanLoader
