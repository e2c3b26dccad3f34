import Mathlib.Data.List.Perm.Basic
import Mathlib.Data.List.TakeWhile
import Mathlib.Tactic.Common

/-!
# Reorderings of lists with keys

The entries of one key stay in order among themselves.  A list can be reordered so that those of a given key stand
together anywhere between the others.
-/

namespace VulkanLoader.Lib

variable {α β κ : Type*} [DecidableEq κ] {key : α → κ} {k : κ} {l l' : List α}

/-- For each key the lists have the same entries in the same order. -/
def SameByKey (key : α → κ) (l l' : List α) : Prop :=
  ∀ k, (l'.filter fun a => key a = k) = l.filter fun a => key a = k

theorem SameByKey.refl (key : α → κ) (l : List α) : SameByKey key l l := fun _ => rfl

theorem SameByKey.perm (h : SameByKey key l l') : l'.Perm l := by
  classical
  rw [List.perm_iff_count]
  intro a
  have hcount : ∀ m : List α, m.count a = (m.filter fun b => key b = key a).count a :=
    fun m => (List.count_filter (by simp)).symm
  rw [hcount l', hcount l, h (key a)]

/-! ### Entries together -/

/-- The entries of a key, behind the first `i` of the others. -/
def gather (key : α → κ) (k : κ) (i : ℕ) (l : List α) : List α :=
  (l.filter fun a => key a ≠ k).take i ++ (l.filter fun a => key a = k) ++ (l.filter fun a => key a ≠ k).drop i

theorem sameByKey_gather (key : α → κ) (k : κ) (i : ℕ) (l : List α) : SameByKey key l (gather key k i l) := by
  intro k'
  by_cases hk : k' = k
  · subst hk
    have hnone : ∀ m : List α, m ⊆ (l.filter fun a => key a ≠ k') → (m.filter fun a => key a = k') = [] := by
      intro m hm
      refine List.filter_eq_nil_iff.2 fun a ha => ?_
      have hne := (List.mem_filter.1 (hm ha)).2
      simpa using hne
    rw [gather, List.filter_append, List.filter_append, hnone _ (List.take_subset _ _),
      hnone _ (List.drop_subset _ _), List.nil_append, List.append_nil, List.filter_filter]
    simp
  · have hnone : (l.filter fun a => key a = k).filter (fun a => key a = k') = [] := by
      refine List.filter_eq_nil_iff.2 fun a ha => ?_
      have heq : key a = k := by simpa using (List.mem_filter.1 ha).2
      simpa [heq] using fun h => hk h.symm
    rw [gather, List.filter_append, List.filter_append, hnone, List.append_nil, ← List.filter_append,
      List.take_append_drop, List.filter_filter]
    refine List.filter_congr fun a _ => ?_
    by_cases ha : key a = k'
    · simp [ha, hk]
    · simp [ha]

/-- From the first entry of the key on. -/
theorem dropWhile_gather (h : (l.filter fun a => key a = k) ≠ []) (i : ℕ) :
    (gather key k i l).dropWhile (fun a => key a ≠ k) =
      (l.filter fun a => key a = k) ++ (l.filter fun a => key a ≠ k).drop i := by
  rw [gather, List.append_assoc,
    List.dropWhile_append_of_pos fun a ha => (List.mem_filter.1 (List.mem_of_mem_take ha)).2]
  obtain ⟨a, rest, hcons⟩ := List.exists_cons_of_ne_nil h
  have ha : key a = k := by
    have hmem : a ∈ l.filter fun a => key a = k := by rw [hcons]; exact List.mem_cons_self
    simpa using (List.mem_filter.1 hmem).2
  rw [hcons, List.cons_append, List.dropWhile_cons_of_neg (by simpa using ha)]

/-- No entry of the key is left out before the first of them. -/
theorem filter_dropWhile (key : α → κ) (k : κ) (l : List α) :
    (l.dropWhile fun a => key a ≠ k).filter (fun a => key a = k) = l.filter fun a => key a = k := by
  have htake : ((l.takeWhile fun a => key a ≠ k).filter fun a => key a = k) = [] :=
    List.filter_eq_nil_iff.2 fun a ha => by simpa using List.mem_takeWhile_imp ha
  conv_rhs => rw [← List.takeWhile_append_dropWhile (p := fun a => key a ≠ k) (l := l)]
  rw [List.filter_append, htake, List.nil_append]

/-- Where only the entries of the key count, it does not matter what is left out before the first of them. -/
theorem flatMap_dropWhile {f : α → List β} (h : ∀ a ∈ l, key a ≠ k → f a = []) :
    (l.dropWhile fun a => key a ≠ k).flatMap f = (l.filter fun a => key a = k).flatMap f := by
  have hall : ∀ m : List α, m ⊆ l → m.flatMap f = (m.filter fun a => key a = k).flatMap f := by
    intro m hm
    induction m with
    | nil => rfl
    | cons a m ih =>
      have htail := ih fun b hb => hm (List.mem_cons_of_mem _ hb)
      by_cases ha : key a = k
      · rw [List.filter_cons_of_pos (by simpa using ha), List.flatMap_cons, List.flatMap_cons, htail]
      · rw [List.filter_cons_of_neg (by simpa using ha), List.flatMap_cons, h a (hm List.mem_cons_self) ha, htail]
        rfl
  rw [← filter_dropWhile key k l]
  exact hall _ (List.dropWhile_sublist _).subset

end VulkanLoader.Lib
