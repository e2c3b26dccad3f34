import Mathlib.Data.Int.Order.Basic
import Mathlib.Data.List.Lex
import Mathlib.Data.List.Sort
import Mathlib.Tactic.Common

/-!
# Comparators and sorted arrays

A comparator answers with a negative number, zero or a positive number.  It *compares by* a key if the answer is the
order of the keys.  Where this holds of any two places of an array, sorting the array in any order of its elements gives
the same array, but for ties.
-/

namespace VulkanLoader.Lib

section Comparators

variable {α κ : Type*} [LinearOrder κ]

/-- The answer is the order of two keys. -/
def IsOrder (answer : ℤ) (x y : κ) : Prop := (answer < 0 ↔ x < y) ∧ (0 < answer ↔ y < x)

/-- The answer is the order of the keys. -/
def ComparesBy (cmp : α → α → ℤ) (key : α → κ) (a b : α) : Prop := IsOrder (cmp a b) (key a) (key b)

/-- What a sort may make of an array. -/
structure SortedBy (cmp : α → α → ℤ) (l l' : List α) : Prop where
  perm : l'.Perm l
  sorted : l'.Pairwise fun a b => cmp a b ≤ 0

/-- **A comparator orders an array**: it is antisymmetric and transitive on the places of the array, ties compare alike;
what a sort makes of the array has the elements first that are to be first, and it is the same for any order of the
elements, but for ties. -/
structure OrdersArray (cmp : α → α → ℤ) (isFirst : α → Bool) (l : List α) : Prop where
  antisymm : ∀ i j : Fin l.length, i ≠ j → (cmp l[i] l[j]).sign = -(cmp l[j] l[i]).sign
  trans : ∀ i j k : Fin l.length, i ≠ j → j ≠ k → i ≠ k → cmp l[i] l[j] < 0 → cmp l[j] l[k] < 0 → cmp l[i] l[k] < 0
  ties : ∀ i j k : Fin l.length, i ≠ j → j ≠ k → i ≠ k → cmp l[i] l[j] = 0 →
    (cmp l[i] l[k]).sign = (cmp l[j] l[k]).sign
  sorts : ∃ l', SortedBy cmp l l'
  first : ∀ l', SortedBy cmp l l' → l'.Pairwise fun a b => isFirst b → isFirst a
  unique : ∀ l₁ l₂ l₁' l₂', l₁.Perm l → l₂.Perm l → SortedBy cmp l₁ l₁' → SortedBy cmp l₂ l₂' →
    List.Forall₂ (fun a b => a = b ∨ cmp a b = 0) l₁' l₂'

variable {cmp : α → α → ℤ} {key : α → κ} {l l' : List α} {a b : α} {isFirst : α → Bool}

theorem ComparesBy.nonpos (h : ComparesBy cmp key a b) : cmp a b ≤ 0 ↔ key a ≤ key b := by
  rw [← not_lt, h.2, not_lt]

theorem ComparesBy.nonneg (h : ComparesBy cmp key a b) : 0 ≤ cmp a b ↔ key b ≤ key a := by
  rw [← not_lt, h.1, not_lt]

theorem ComparesBy.eq_zero (h : ComparesBy cmp key a b) : cmp a b = 0 ↔ key a = key b := by
  rw [le_antisymm_iff, le_antisymm_iff, h.nonpos, h.nonneg]

/-- The sign of the answer. -/
theorem ComparesBy.sign (h : ComparesBy cmp key a b) :
    (cmp a b).sign = if key a < key b then -1 else if key b < key a then 1 else 0 := by
  split_ifs with hlt hgt
  · exact Int.sign_eq_neg_one_of_neg (h.1.2 hlt)
  · exact Int.sign_eq_one_of_pos (h.2.2 hgt)
  · rw [h.eq_zero.2 (le_antisymm (not_lt.1 hgt) (not_lt.1 hlt)), Int.sign_zero]

section Places

variable (h : ∀ i j : Fin l.length, i ≠ j → ComparesBy cmp key l[i] l[j])

include h

/-- Elements that differ stand at different places. -/
theorem comparesBy_of_ne (ha : a ∈ l) (hb : b ∈ l) (hne : a ≠ b) : ComparesBy cmp key a b := by
  obtain ⟨i, hi, rfl⟩ := List.mem_iff_getElem.1 ha
  obtain ⟨j, hj, rfl⟩ := List.mem_iff_getElem.1 hb
  exact h ⟨i, hi⟩ ⟨j, hj⟩ fun heq => hne (by cases heq; rfl)

theorem pairwise_comparesBy (hl : l'.Perm l) :
    l'.Pairwise fun a b => ComparesBy cmp key a b ∧ ComparesBy cmp key b a := by
  have hpairs : l.Pairwise fun a b => ComparesBy cmp key a b ∧ ComparesBy cmp key b a := by
    rw [List.pairwise_iff_getElem]
    intro i j hi hj hij
    have hne : (⟨i, hi⟩ : Fin l.length) ≠ ⟨j, hj⟩ := fun heq => Nat.ne_of_lt hij (Fin.mk.inj heq)
    exact ⟨h ⟨i, hi⟩ ⟨j, hj⟩ hne, h ⟨j, hj⟩ ⟨i, hi⟩ hne.symm⟩
  exact (hl.pairwise_iff fun hab => ⟨hab.2, hab.1⟩).2 hpairs

/-- A sorted array is sorted by the keys. -/
theorem SortedBy.keys {l₁ : List α} (hl : l₁.Perm l) (hsorted : SortedBy cmp l₁ l') :
    l'.Pairwise fun a b => key a ≤ key b :=
  ((pairwise_comparesBy h (hsorted.perm.trans hl)).and hsorted.sorted).imp fun hab => hab.1.1.nonpos.1 hab.2

/-- **A comparator that compares by a key orders the array.** -/
theorem ordersArray_of_comparesBy (hfirst : ∀ a ∈ l, ∀ b ∈ l, isFirst a → ¬ isFirst b → key a < key b) :
    OrdersArray cmp isFirst l where
  antisymm i j hij := by
    rw [(h i j hij).sign, (h j i hij.symm).sign]
    split_ifs with h₁ h₂
    · exact absurd h₁ (not_lt.2 h₂.le)
    · rfl
    · rfl
    · rfl
  trans i j k hij hjk hik h₁ h₂ := (h i k hik).1.2 (((h i j hij).1.1 h₁).trans ((h j k hjk).1.1 h₂))
  ties i j k hij hjk hik h₁ := by rw [(h i k hik).sign, (h j k hjk).sign, (h i j hij).eq_zero.1 h₁]
  sorts := by
    have hperm := List.mergeSort_perm l fun a b => decide (key a ≤ key b)
    refine ⟨_, hperm, ?_⟩
    have hkeys := @List.pairwise_mergeSort α (fun a b => decide (key a ≤ key b))
      (fun a b c hab hbc => decide_eq_true ((of_decide_eq_true hab).trans (of_decide_eq_true hbc)))
      (fun a b => by simpa using le_total (key a) (key b)) l
    exact ((pairwise_comparesBy h hperm).and hkeys).imp fun hab => hab.1.1.nonpos.2 (of_decide_eq_true hab.2)
  first l' hsorted := by
    refine (SortedBy.keys h (.refl l) hsorted).imp_of_mem fun {a b} ha hb hab hfirst' => ?_
    by_contra hnot
    exact absurd hab (not_le.2 (hfirst b (hsorted.perm.subset hb) a (hsorted.perm.subset ha) hfirst' hnot))
  unique l₁ l₂ l₁' l₂' h₁ h₂ hs₁ hs₂ := by
    have hperm : l₁'.Perm l₂' := (hs₁.perm.trans h₁).trans (hs₂.perm.trans h₂).symm
    have hkeys : l₁'.map key = l₂'.map key :=
      (hperm.map key).eq_of_pairwise (fun _ _ _ _ hab hba => le_antisymm hab hba)
        (List.pairwise_map.2 (hs₁.keys h h₁)) (List.pairwise_map.2 (hs₂.keys h h₂))
    have hforall : List.Forall₂ (fun a b => key a = key b) l₁' l₂' := by
      rwa [← List.forall₂_eq_eq_eq, List.forall₂_map_left_iff, List.forall₂_map_right_iff] at hkeys
    rw [List.forall₂_iff_zip] at hforall ⊢
    refine ⟨hforall.1, fun {a b} hab => ?_⟩
    obtain ⟨ha, hb⟩ := List.of_mem_zip hab
    by_cases hne : a = b
    · exact .inl hne
    · have ha' := (hs₁.perm.trans h₁).subset ha
      have hb' := (hs₂.perm.trans h₂).subset hb
      exact .inr ((comparesBy_of_ne h ha' hb' hne).eq_zero.2 (hforall.2 hab))

end Places

end Comparators

/-! ### Criteria one after the other -/

section Criteria

/-- A criterion, and what breaks its ties. -/
def thenCompare (first next : ℤ) : ℤ := if first ≠ 0 then first else next

@[simp] theorem thenCompare_zero (next : ℤ) : thenCompare 0 next = next := rfl

theorem thenCompare_assoc (a b c : ℤ) : thenCompare (thenCompare a b) c = thenCompare a (thenCompare b c) := by
  unfold thenCompare
  by_cases ha : a = 0 <;> simp [ha]

variable {κ : Type*} [LinearOrder κ] {answer first next : ℤ} {x y : κ} {xs ys : List κ}

theorem isOrder_neg_one (h : x < y) : IsOrder (-1) x y :=
  ⟨iff_of_true (by decide) h, iff_of_false (by decide) (lt_asymm h)⟩

theorem isOrder_one (h : y < x) : IsOrder 1 x y :=
  ⟨iff_of_false (by decide) (lt_asymm h), iff_of_true (by decide) h⟩

theorem isOrder_cons (x : κ) (h : IsOrder answer xs ys) : IsOrder answer (x :: xs) (x :: ys) := by
  rw [IsOrder, List.cons_lt_cons_self, List.cons_lt_cons_self]
  exact h

theorem isOrder_singleton (h : IsOrder answer x y) : IsOrder answer [x] [y] := by
  rw [IsOrder, List.cons_lt_cons_iff, List.cons_lt_cons_iff]
  simpa [IsOrder] using h

/-- The lists of the keys are compared. -/
theorem isOrder_thenCompare (hfirst : IsOrder first x y) (hnext : x = y → IsOrder next xs ys) :
    IsOrder (thenCompare first next) (x :: xs) (y :: ys) := by
  obtain ⟨h₁, h₂⟩ := hfirst
  by_cases heq : x = y
  · subst heq
    have hzero : first = 0 :=
      le_antisymm (not_lt.1 fun h => lt_irrefl x (h₂.1 h)) (not_lt.1 fun h => lt_irrefl x (h₁.1 h))
    rw [hzero, thenCompare_zero]
    exact isOrder_cons x (hnext rfl)
  · have hne : first ≠ 0 := by
      rintro rfl
      exact heq (le_antisymm (not_lt.1 fun h => lt_irrefl _ (h₂.2 h)) (not_lt.1 fun h => lt_irrefl _ (h₁.2 h)))
    rw [thenCompare, if_pos hne, IsOrder, List.cons_lt_cons_iff, List.cons_lt_cons_iff, h₁, h₂]
    simp [heq, Ne.symm heq]

end Criteria

end VulkanLoader.Lib
