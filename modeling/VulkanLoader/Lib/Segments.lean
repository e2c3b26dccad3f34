import Mathlib.Data.List.TakeWhile
import Mathlib.Tactic.Common

/-!
# Segments between separators

The segments of a list are what stands between its separators, where there is something: `strtok` gives the segments of
a string, one after the other.
-/

namespace VulkanLoader.Lib

variable {α : Type*} [DecidableEq α] {sep c : α}

/-- The segments of a list, without the empty ones. -/
def segments (sep : α) (l : List α) : List (List α) := (l.splitOn sep).filter fun s => !s.isEmpty

@[simp] theorem segments_nil : segments sep [] = [] := rfl

@[simp] theorem segments_cons_self (l : List α) : segments sep (sep :: l) = segments sep l := by
  simp [segments, List.splitOn_cons_eq_if_modifyHead]

theorem segments_eq_singleton {s : List α} (hs : sep ∉ s) (hne : s ≠ []) : segments sep s = [s] := by
  unfold segments
  rw [List.splitOn_eq_singleton hs, List.filter_cons_of_pos (by simpa using hne), List.filter_nil]

/-- A segment before a separator. -/
theorem segments_append_cons {s : List α} (hs : sep ∉ s) (hne : s ≠ []) (l : List α) :
    segments sep (s ++ sep :: l) = s :: segments sep l := by
  unfold segments
  rw [List.splitOn_append_cons_self_of_not_mem hs, List.filter_cons_of_pos (by simpa using hne)]

theorem not_mem_takeWhile_ne (l : List α) : sep ∉ l.takeWhile (· ≠ sep) := fun h => by
  simpa using List.mem_takeWhile_imp h

/-- What follows the elements before a separator begins with it. -/
theorem dropWhile_ne_eq (sep : α) (l : List α) :
    l.dropWhile (· ≠ sep) = [] ∨ ∃ rest, l.dropWhile (· ≠ sep) = sep :: rest := by
  rcases hrest : l.dropWhile (· ≠ sep) with _ | ⟨d, rest⟩
  · exact .inl rfl
  · have hhead := List.head?_dropWhile_not (· ≠ sep) l
    rw [hrest] at hhead
    have hd : d = sep := by simpa using hhead
    exact .inr ⟨rest, by rw [hd]⟩

/-- A list that does not begin with a separator begins with a segment. -/
theorem segments_cons (h : c ≠ sep) (l : List α) :
    segments sep (c :: l) = (c :: l.takeWhile (· ≠ sep)) :: segments sep (l.dropWhile (· ≠ sep)) := by
  have hs : sep ∉ c :: l.takeWhile (· ≠ sep) := by
    rw [List.mem_cons, not_or]
    exact ⟨h.symm, not_mem_takeWhile_ne l⟩
  have hsplit := List.takeWhile_append_dropWhile (p := (· ≠ sep)) (l := l)
  conv_lhs => rw [← hsplit, ← List.cons_append]
  rcases dropWhile_ne_eq sep l with hrest | ⟨rest, hrest⟩
  · rw [hrest, List.append_nil, segments_eq_singleton hs (List.cons_ne_nil _ _), segments_nil]
  · rw [hrest, segments_append_cons hs (List.cons_ne_nil _ _), segments_cons_self]

/-- Without a segment there are only separators. -/
theorem segments_eq_nil {l : List α} : segments sep l = [] ↔ ∀ a ∈ l, a = sep := by
  induction l with
  | nil => simp
  | cons a l ih =>
    rcases eq_or_ne a sep with rfl | hne
    · simp [ih]
    · simp [segments_cons hne, hne]

theorem ne_nil_of_mem_segments {l s : List α} (h : s ∈ segments sep l) : s ≠ [] := by
  simpa using (List.mem_filter.1 h).2

theorem not_mem_of_mem_segments {l s : List α} (h : s ∈ segments sep l) : sep ∉ s := by
  induction hn : l.length using Nat.strong_induction_on generalizing l with
  | _ n ih =>
    subst hn
    rcases l with _ | ⟨c, l⟩
    · simp at h
    rcases eq_or_ne c sep with rfl | hc
    · rw [segments_cons_self] at h
      exact ih l.length (Nat.lt_succ_self _) h rfl
    · rw [segments_cons hc, List.mem_cons] at h
      rcases h with rfl | h
      · rw [List.mem_cons, not_or]
        exact ⟨hc.symm, not_mem_takeWhile_ne l⟩
      · exact ih _ (Nat.lt_succ_of_le (List.length_dropWhile_le _ l)) h rfl

end VulkanLoader.Lib
