import Mathlib.Algebra.GroupWithZero.Nat
import Mathlib.Data.List.Forall2
import Mathlib.Data.List.Nodup
import Mathlib.Data.List.Perm.Subperm
import Mathlib.Tactic.Common

/-!
# Lists with places and with keys

Facts about lists read at their places (`zipIdx`), lists related entry by entry, and association lists with distinct
keys.
-/

namespace VulkanLoader.Lib

section Places

variable {α : Type*}

theorem any_zipIdx (l : List α) (p : α → Bool) : (l.zipIdx.any fun x => p x.1) = l.any p := by
  conv_rhs => rw [← List.zipIdx_map_fst 0 l]
  rw [List.any_map]
  rfl

theorem nodup_zipIdx_snd (l : List α) : (l.zipIdx.map Prod.snd).Nodup := by
  rw [List.zipIdx_map_snd]
  exact List.nodup_range'

theorem filterMap_range_getElem? {β : Type*} (f : α → Option β) (l : List α) :
    ((List.range l.length).filterMap fun i => l[i]?.bind f) = l.filterMap f := by
  induction l with
  | nil => rfl
  | cons a l ih =>
    rw [List.length_cons, List.range_succ_eq_map, List.filterMap_cons, List.filterMap_map, List.filterMap_cons, ← ih]
    rfl

theorem sum_set_add_getD {l : List ℕ} {i : ℕ} (hi : i < l.length) (b : ℕ) :
    (l.set i b).sum + l.getD i 0 = l.sum + b := by
  induction l generalizing i with
  | nil => cases hi
  | cons a l ih =>
    rcases i with _ | i
    · simp only [List.set_cons_zero, List.sum_cons, List.getD_cons_zero]
      omega
    · have hrest := ih (Nat.lt_of_succ_lt_succ hi)
      simp only [List.set_cons_succ, List.sum_cons, List.getD_cons_succ]
      omega

/-- Some order of a list ends with a given entry. -/
theorem exists_perm_last {l : List α} {a : α} (ha : a ∈ l) : ∃ l', (l' ++ [a]).Perm l := by
  obtain ⟨l₁, l₂, rfl⟩ := List.append_of_mem ha
  refine ⟨l₁ ++ l₂, ?_⟩
  rw [List.append_assoc]
  exact (show (l₂ ++ [a]).Perm ([a] ++ l₂) from List.perm_append_comm).append_left l₁

/-- An entry with what comes after it is the first entry, or one of the rest. -/
theorem exists_append_cons {P : α → List α → Prop} {a : α} {l : List α} :
    (∃ pre b post, a :: l = pre ++ b :: post ∧ P b post) ↔ P a l ∨ ∃ pre b post, l = pre ++ b :: post ∧ P b post := by
  constructor
  · rintro ⟨_ | ⟨c, pre⟩, b, post, heq, h⟩
    · obtain ⟨rfl, rfl⟩ := List.cons_eq_cons.1 heq
      exact Or.inl h
    · obtain ⟨rfl, rfl⟩ := List.cons_eq_cons.1 heq
      exact Or.inr ⟨pre, b, post, rfl, h⟩
  · rintro (h | ⟨pre, b, post, rfl, h⟩)
    · exact ⟨[], a, l, rfl, h⟩
    · exact ⟨a :: pre, b, post, rfl, h⟩

/-- Among the entries with a property there is a last one. -/
theorem exists_last {P : α → Prop} {l : List α} (h : ∃ a ∈ l, P a) :
    ∃ before a after, l = before ++ a :: after ∧ P a ∧ ∀ b ∈ after, ¬ P b := by
  induction l with
  | nil =>
    obtain ⟨a, ha, -⟩ := h
    cases ha
  | cons a l ih =>
    by_cases hrest : ∃ b ∈ l, P b
    · obtain ⟨before, b, after, rfl, hb, hafter⟩ := ih hrest
      exact ⟨a :: before, b, after, rfl, hb, hafter⟩
    · refine ⟨[], a, l, rfl, ?_, fun b hb hP => hrest ⟨b, hb, hP⟩⟩
      exact ((List.exists_mem_cons_iff P a l).1 h).resolve_right hrest

/-- The entry `a` comes before the entry `b`. -/
def Precedes (l : List α) (a b : α) : Prop := ∃ l₁ l₂, l = l₁ ++ a :: l₂ ∧ b ∈ l₂

theorem precedes_append {l l' : List α} {a b : α} (ha : a ∈ l) (hb : b ∈ l') : Precedes (l ++ l') a b := by
  obtain ⟨l₁, l₂, rfl⟩ := List.append_of_mem ha
  exact ⟨l₁, l₂ ++ l', by simp, List.mem_append_right _ hb⟩

theorem Precedes.append {l l' : List α} {a b : α} (h : Precedes l a b) : Precedes (l ++ l') a b := by
  obtain ⟨l₁, l₂, rfl, hb⟩ := h
  exact ⟨l₁, l₂ ++ l', by simp, List.mem_append_left _ hb⟩

theorem Precedes.mem_left {l : List α} {a b : α} (h : Precedes l a b) : a ∈ l := by
  obtain ⟨l₁, l₂, rfl, -⟩ := h
  simp

/-- The last entry comes after all others. -/
theorem precedes_concat {l : List α} {a b c : α} : Precedes (l ++ [c]) a b ↔ Precedes l a b ∨ (a ∈ l ∧ b = c) := by
  constructor
  · rintro ⟨l₁, l₂, heq, hb⟩
    rcases List.eq_nil_or_concat l₂ with rfl | ⟨l₃, d, rfl⟩
    · cases hb
    · rw [List.concat_eq_append] at heq hb
      have hsplit : l ++ [c] = (l₁ ++ a :: l₃) ++ [d] := by rw [heq, List.append_assoc, List.cons_append]
      obtain ⟨rfl, hd⟩ := List.append_inj' hsplit rfl
      obtain rfl : c = d := by simpa using hd
      rcases List.mem_append.1 hb with hb | hb
      · exact Or.inl ⟨l₁, l₃, rfl, hb⟩
      · exact Or.inr ⟨by simp, List.mem_singleton.1 hb⟩
  · rintro (h | ⟨ha, rfl⟩)
    · exact h.append
    · exact precedes_append ha (List.mem_singleton_self _)

theorem Precedes.exists_lt {l : List α} {a b : α} (h : Precedes l a b) :
    ∃ i j : ℕ, i < j ∧ l[i]? = some a ∧ l[j]? = some b := by
  obtain ⟨l₁, l₂, rfl, hb⟩ := h
  obtain ⟨k, hk⟩ := List.mem_iff_getElem?.1 hb
  refine ⟨l₁.length, l₁.length + 1 + k, by omega, by simp, ?_⟩
  rw [List.getElem?_append_right (by omega), show l₁.length + 1 + k - l₁.length = k + 1 by omega]
  exact hk

/-- In a list without repetition, of two entries only one comes before the other. -/
theorem Precedes.not_symm {l : List α} {a b : α} (h : Precedes l a b) (hl : l.Nodup) : ¬ Precedes l b a := by
  intro h'
  obtain ⟨i, j, hij, hi, hj⟩ := h.exists_lt
  obtain ⟨k, m, hkm, hk, hm⟩ := h'.exists_lt
  have hik : m = i := (List.getElem?_inj (List.getElem?_eq_some_iff.1 hm).1 hl).1 (hm.trans hi.symm)
  have hjk : k = j := (List.getElem?_inj (List.getElem?_eq_some_iff.1 hk).1 hl).1 (hk.trans hj.symm)
  omega

end Places

section Entrywise

variable {α β : Type*} {R : α → α → Prop} {l l' : List α}

theorem forall₂_right {P : α → Prop} (h : List.Forall₂ R l l') (hP : ∀ a b, R a b → P b) : ∀ b ∈ l', P b := by
  induction h with
  | nil => simp
  | cons hab _ ih =>
    intro b hb
    rcases List.mem_cons.1 hb with rfl | hb
    · exact hP _ _ hab
    · exact ih b hb

theorem forall₂_map_eq {f : α → β} (h : List.Forall₂ R l l') (hf : ∀ a b, R a b → f b = f a) : l'.map f = l.map f := by
  induction h with
  | nil => rfl
  | cons hab _ ih => rw [List.map_cons, List.map_cons, hf _ _ hab, ih]

/-- Entries that each belong to one entry of a list without repetition do not repeat. -/
theorem nodup_of_forall₂ {S : α → β → Prop} {as : List α} {bs : List β} (h : List.Forall₂ S as bs)
    (hS : ∀ a b b', S a b → S a b' → b = b') (hbs : bs.Nodup) : as.Nodup := by
  induction h with
  | nil => exact List.nodup_nil
  | @cons a b as bs hab htail ih =>
    obtain ⟨hb, hbs⟩ := List.nodup_cons.1 hbs
    refine List.nodup_cons.2 ⟨fun ha => ?_, ih hbs⟩
    obtain ⟨i, hi, rfl⟩ := List.getElem_of_mem ha
    have hi' : i < bs.length := htail.length_eq ▸ hi
    have hib : S as[i] bs[i] := htail.get hi hi'
    exact hb (hS _ _ _ hab hib ▸ List.getElem_mem hi')

/-- The entries of related lists at one place. -/
theorem forall₂_getElem? {S : α → β → Prop} {as : List α} {bs : List β} (h : List.Forall₂ S as bs) {k : ℕ} {b : β}
    (hk : bs[k]? = some b) : ∃ a, as[k]? = some a ∧ S a b := by
  obtain ⟨hlt, rfl⟩ := List.getElem?_eq_some_iff.1 hk
  have hlt' : k < as.length := h.length_eq ▸ hlt
  exact ⟨as[k], List.getElem?_eq_getElem hlt', h.get hlt' hlt⟩

end Entrywise

section Partial

variable {α β : Type*} {f : α → Option β}

/-- A list is mapped by a partial function exactly if each entry is. -/
theorem isSome_mapM {l : List α} : (l.mapM f).isSome ↔ ∀ a ∈ l, (f a).isSome := by
  induction l with
  | nil => simp
  | cons a l ih =>
    rw [List.mapM_cons, List.forall_mem_cons, ← ih]
    rcases f a with _ | b
    · simp
    · rcases l.mapM f with _ | bs
      · simp
      · simp

/-- Each entry comes from one that was mapped. -/
theorem exists_of_mem_mapM {l : List α} {l' : List β} (h : l.mapM f = some l') {b : β} (hb : b ∈ l') :
    ∃ a ∈ l, f a = some b := by
  induction l generalizing l' with
  | nil =>
    obtain rfl : l' = [] := by simpa using h
    cases hb
  | cons a l ih =>
    rw [List.mapM_cons] at h
    obtain ⟨c, hc, h⟩ := Option.bind_eq_some_iff.1 h
    obtain ⟨cs, hcs, h⟩ := Option.bind_eq_some_iff.1 h
    obtain rfl := Option.some.inj h
    rcases List.mem_cons.1 hb with rfl | hb
    · exact ⟨a, List.mem_cons_self, hc⟩
    · obtain ⟨a', ha', hb'⟩ := ih hcs hb
      exact ⟨a', List.mem_cons_of_mem _ ha', hb'⟩

end Partial

/-- A key in an association list is found. -/
theorem exists_find?_key {α κ : Type*} [DecidableEq κ] {key : α → κ} {l : List α} {k : κ} (hk : k ∈ l.map key) :
    ∃ a ∈ l, key a = k ∧ l.find? (fun b => key b = k) = some a := by
  rcases hfind : l.find? (fun b => key b = k) with _ | a
  · obtain ⟨a, ha, hka⟩ := List.mem_map.1 hk
    exact absurd hka (by simpa using List.find?_eq_none.1 hfind a ha)
  · exact ⟨a, List.mem_of_find?_eq_some hfind, by simpa using List.find?_some hfind, rfl⟩

/-- An entry of a list that was modified at one place. -/
theorem mem_modify {α : Type*} {l : List α} {i : ℕ} {f : α → α} {b : α} (hb : b ∈ l.modify i f) :
    b ∈ l ∨ ∃ a ∈ l, f a = b := by
  obtain ⟨j, hj⟩ := List.mem_iff_getElem?.1 hb
  rw [List.getElem?_modify] at hj
  obtain ⟨a, ha, he⟩ := Option.map_eq_some_iff.1 hj
  split_ifs at he
  · exact Or.inr ⟨a, List.mem_of_getElem? ha, he⟩
  · exact Or.inl (he ▸ List.mem_of_getElem? ha)

/-- Removing a key from an association list whose keys are distinct. -/
theorem perm_cons_filter_ne {α κ : Type*} [DecidableEq κ] {key : α → κ} {l : List α} {a : α}
    (hl : (l.map key).Nodup) (hmem : a ∈ l) : l.Perm (a :: l.filter fun b => key b ≠ key a) := by
  induction l with
  | nil => cases hmem
  | cons x l ih =>
    obtain ⟨hx, hl⟩ := List.nodup_cons.1 hl
    rcases List.mem_cons.1 hmem with rfl | hmem
    · have hall : ∀ b ∈ l, decide (key b ≠ key a) = true := fun b hb =>
        decide_eq_true fun he => hx (List.mem_map.2 ⟨b, hb, he⟩)
      rw [List.filter_cons_of_neg (by simp), List.filter_eq_self.2 hall]
    · have hne : key x ≠ key a := fun he => hx (he ▸ List.mem_map.2 ⟨_, hmem, rfl⟩)
      rw [List.filter_cons_of_pos (by simpa using hne)]
      exact ((ih hl hmem).cons x).trans (List.Perm.swap _ _ _)

/-- The entries with a property are distinct exactly if none of them occurs twice. -/
theorem nodup_filter_iff {α : Type*} [DecidableEq α] {p : α → Bool} {l : List α} :
    (l.filter p).Nodup ↔ ∀ a ∈ l, p a → l.count a ≤ 1 := by
  rw [List.nodup_iff_count_le_one]
  constructor
  · intro h a _ hp
    rw [← List.count_filter hp]
    exact h a
  · intro h a
    by_cases ha : a ∈ l.filter p
    · obtain ⟨hmem, hp⟩ := List.mem_filter.1 ha
      rw [List.count_filter hp]
      exact h a hmem hp
    · rw [List.count_eq_zero_of_not_mem ha]
      exact Nat.zero_le 1

/-- In a list without repetition, the first place of an entry is its only one. -/
theorem idxOf?_eq_some_iff_getElem? {α : Type*} [DecidableEq α] {l : List α} {a : α} {i : ℕ} (hl : l.Nodup) :
    l.idxOf? a = some i ↔ l[i]? = some a := by
  rw [List.idxOf?_eq_some_iff, List.getElem?_eq_some_iff]
  refine ⟨fun ⟨hi, ha, _⟩ => ⟨hi, ha⟩, fun ⟨hi, ha⟩ => ⟨hi, ha, fun j hj he => ?_⟩⟩
  have hij : j = i := (hl.getElem_inj_iff).1 (he.trans ha.symm)
  omega

/-- A list whose keys are distinct and meet all of `ks` by number meets every one of them. -/
theorem mem_map_of_countP_eq_length {α κ : Type*} [DecidableEq κ] {key : α → κ} {l : List α} {ks : List κ}
    (hl : (l.map key).Nodup) (hcount : l.countP (fun a => key a ∈ ks) = ks.length) : ∀ k ∈ ks, k ∈ l.map key := by
  have hfilter : ((l.filter fun a => key a ∈ ks).map key).Nodup := hl.sublist (List.filter_sublist.map key)
  have hsub : ((l.filter fun a => key a ∈ ks).map key) ⊆ ks := by
    intro k hk
    obtain ⟨a, ha, rfl⟩ := List.mem_map.1 hk
    simpa using (List.mem_filter.1 ha).2
  have hperm : ((l.filter fun a => key a ∈ ks).map key).Perm ks := by
    apply (hfilter.subperm hsub).perm_of_length_le
    rw [List.length_map, ← List.countP_eq_length_filter]
    exact Nat.le_of_eq hcount.symm
  intro k hk
  obtain ⟨a, ha, rfl⟩ := List.mem_map.1 (hperm.mem_iff.2 hk)
  exact List.mem_map.2 ⟨a, (List.mem_filter.1 ha).1, rfl⟩

/-! ### Appending what is not there -/

section AddMissing

variable {α : Type*} [DecidableEq α] {xs ys l : List α} {a : α}

/-- The elements are appended, one after the other, that are not there yet. -/
def addMissing (xs l : List α) : List α := xs.foldl (fun l x => if x ∈ l then l else l ++ [x]) l

theorem addMissing_append : addMissing (xs ++ ys) l = addMissing ys (addMissing xs l) := List.foldl_append

theorem addMissing_cons_of_mem (h : a ∈ l) : addMissing (a :: xs) l = addMissing xs l := by
  unfold addMissing
  rw [List.foldl_cons, if_pos h]

theorem addMissing_cons_of_not_mem (h : a ∉ l) : addMissing (a :: xs) l = addMissing xs (l ++ [a]) := by
  unfold addMissing
  rw [List.foldl_cons, if_neg h]

theorem mem_addMissing : a ∈ addMissing xs l ↔ a ∈ l ∨ a ∈ xs := by
  induction xs generalizing l with
  | nil => simp [addMissing]
  | cons x xs ih =>
    by_cases hx : x ∈ l
    · rw [addMissing_cons_of_mem hx, ih, List.mem_cons]
      constructor
      · exact fun h => h.imp_right Or.inr
      · rintro (h | rfl | h)
        · exact Or.inl h
        · exact Or.inl hx
        · exact Or.inr h
    · rw [addMissing_cons_of_not_mem hx, ih, List.mem_append, List.mem_singleton, List.mem_cons, or_assoc]

theorem nodup_addMissing : (addMissing xs l).Nodup ↔ l.Nodup := by
  induction xs generalizing l with
  | nil => rfl
  | cons x xs ih =>
    by_cases hx : x ∈ l
    · rw [addMissing_cons_of_mem hx, ih]
    · rw [addMissing_cons_of_not_mem hx, ih, List.nodup_append]
      simp only [List.nodup_singleton, List.mem_singleton, forall_eq, true_and]
      exact and_iff_left_of_imp fun _ b hb hbx => hx (hbx ▸ hb)

end AddMissing

section AddMissingBy

variable {α κ : Type*} [DecidableEq κ] {key : α → κ} {xs l : List α} {a : α}

/-- The elements of the first list whose keys the second one has not yet are added to its end, in order. -/
def addMissingBy (key : α → κ) (xs l : List α) : List α :=
  xs.foldl (fun l x => if key x ∈ l.map key then l else l ++ [x]) l

theorem addMissingBy_cons_of_mem (h : key a ∈ l.map key) : addMissingBy key (a :: xs) l = addMissingBy key xs l := by
  unfold addMissingBy
  rw [List.foldl_cons, if_pos h]

theorem addMissingBy_cons_of_not_mem (h : key a ∉ l.map key) :
    addMissingBy key (a :: xs) l = addMissingBy key xs (l ++ [a]) := by
  unfold addMissingBy
  rw [List.foldl_cons, if_neg h]

/-- What was there stays in front. -/
theorem prefix_addMissingBy (key : α → κ) (xs l : List α) : l <+: addMissingBy key xs l := by
  induction xs generalizing l with
  | nil => exact List.prefix_rfl
  | cons x xs ih =>
    by_cases hx : key x ∈ l.map key
    · rw [addMissingBy_cons_of_mem hx]
      exact ih l
    · rw [addMissingBy_cons_of_not_mem hx]
      exact (List.prefix_append l [x]).trans (ih _)

theorem map_addMissingBy (key : α → κ) (xs l : List α) :
    (addMissingBy key xs l).map key = addMissing (xs.map key) (l.map key) := by
  induction xs generalizing l with
  | nil => rfl
  | cons x xs ih =>
    rw [List.map_cons]
    by_cases hx : key x ∈ l.map key
    · rw [addMissingBy_cons_of_mem hx, addMissing_cons_of_mem hx, ih]
    · rw [addMissingBy_cons_of_not_mem hx, addMissing_cons_of_not_mem hx, ih, List.map_append]
      rfl

end AddMissingBy

end VulkanLoader.Lib
