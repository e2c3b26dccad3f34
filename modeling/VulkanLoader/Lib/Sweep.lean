import Mathlib.Data.List.Nodup

/-!
# Loops over an array that they change

A loop goes over an array and takes entries out of it while it does.  `At s t rest` is the invariant of such a loop: it
has the entries `rest` before it, and `t` is what it has made of the others, the ones that are left of them first of all.
Where each round gets past the next entry `a` and turns `t` into `f t a`, the whole loop is a fold; the fold that takes
entries out is `filter`.

`firstOccurrences` is what is left of a list whose later entries of a key are taken out.
-/

namespace VulkanLoader.Lib

section Loops

variable {σ α τ : Type*} {cond : σ → Bool} {body : σ → σ}

/-- `while (cond) body`, for a number of rounds at most. -/
def whileLoop (cond : σ → Bool) (body : σ → σ) : ℕ → σ → σ
  | 0, s => s
  | fuel + 1, s => if cond s then whileLoop cond body fuel (body s) else s

theorem whileLoop_succ {s : σ} (h : cond s = true) (fuel : ℕ) :
    whileLoop cond body (fuel + 1) s = whileLoop cond body fuel (body s) := by
  rw [whileLoop, if_pos h]

theorem whileLoop_of_not {s : σ} (h : cond s = false) (fuel : ℕ) : whileLoop cond body fuel s = s := by
  cases fuel with
  | zero => rfl
  | succ fuel => rw [whileLoop, if_neg (by simp [h])]

/-- **The sweep rule**: a loop that gets past one entry in each round gets to the end, and each entry is treated as one
round treats it. -/
theorem whileLoop_sweep {At : σ → τ → List α → Prop} {f : τ → α → τ}
    (hnext : ∀ s t a rest, At s t (a :: rest) → cond s = true ∧ At (body s) (f t a) rest)
    (hlast : ∀ s t, At s t [] → cond s = false) {s : σ} {t : τ} {rest : List α} (h : At s t rest) {fuel : ℕ}
    (hfuel : rest.length ≤ fuel) : At (whileLoop cond body fuel s) (rest.foldl f t) [] := by
  induction rest generalizing s t fuel with
  | nil =>
    rw [whileLoop_of_not (hlast s t h)]
    exact h
  | cons a rest ih =>
    obtain ⟨fuel, rfl⟩ : ∃ n, fuel = n + 1 := ⟨fuel - 1, by rw [List.length_cons] at hfuel; omega⟩
    obtain ⟨hcond, hbody⟩ := hnext s t a rest h
    rw [whileLoop_succ hcond]
    exact ih hbody (by simpa using hfuel)

theorem foldl_keep (p : α → Bool) (kept rest : List α) :
    rest.foldl (fun kept a => if p a then kept ++ [a] else kept) kept = kept ++ rest.filter p := by
  induction rest generalizing kept with
  | nil => rw [List.foldl_nil, List.filter_nil, List.append_nil]
  | cons a rest ih =>
    rw [List.foldl_cons, ih]
    rcases hp : p a with _ | _
    · rw [List.filter_cons_of_neg (by simp [hp]), if_neg (by simp)]
    · rw [List.filter_cons_of_pos hp, if_pos rfl, List.append_assoc]
      rfl

/-- Of two selections, the one of more entries is the other one only if it selects the same. -/
theorem map_filter_eq_iff {β : Type*} {g : α → β} {p q : α → Bool} {l : List α} (h : ∀ a ∈ l, q a = true → p a = true) :
    (l.filter p).map g = (l.filter q).map g ↔ ∀ a ∈ l, p a = true → q a = true := by
  constructor
  · intro heq a ha hp
    have hlen : (l.filter p).length = (l.filter q).length := by simpa using congrArg List.length heq
    have hsub : (l.filter q).Sublist (l.filter p) := by
      have hboth : l.filter q = (l.filter p).filter q := by
        rw [List.filter_filter]
        apply List.filter_congr
        intro b hb
        rcases hq : q b with _ | _
        · simp
        · simp [h b hb hq]
      rw [hboth]
      exact List.filter_sublist
    have hmem : a ∈ l.filter q := by
      rw [hsub.eq_of_length hlen.symm]
      exact List.mem_filter.2 ⟨ha, hp⟩
    exact (List.mem_filter.1 hmem).2
  · intro h'
    rw [List.filter_congr fun a ha => Bool.eq_iff_iff.2 ⟨h' a ha, h a ha⟩]

end Loops

section FirstOccurrences

variable {α κ : Type*} [DecidableEq κ] {key : α → κ}

/-- The entries of a list whose key no entry before them has. -/
def firstOccurrences (key : α → κ) : List α → List α
  | [] => []
  | a :: l => a :: (firstOccurrences key l).filter fun b => key b ≠ key a

theorem nodup_firstOccurrences (l : List α) : ((firstOccurrences key l).map key).Nodup := by
  induction l with
  | nil => exact List.nodup_nil
  | cons a l ih =>
    refine List.nodup_cons.2 ⟨fun ha => ?_, ih.sublist (List.filter_sublist.map key)⟩
    obtain ⟨b, hb, hkey⟩ := List.mem_map.1 ha
    simpa [hkey] using (List.mem_filter.1 hb).2

theorem firstOccurrences_filter (k : κ) (l : List α) :
    firstOccurrences key (l.filter fun b => key b ≠ k) = (firstOccurrences key l).filter fun b => key b ≠ k := by
  induction l with
  | nil => rfl
  | cons a l ih =>
    by_cases ha : key a = k
    · rw [List.filter_cons_of_neg (by simpa using ha), ih, firstOccurrences, List.filter_cons_of_neg (by simpa using ha),
        List.filter_filter]
      apply List.filter_congr
      intro b _
      simp [ha]
    · rw [List.filter_cons_of_pos (by simpa using ha), firstOccurrences, firstOccurrences,
        List.filter_cons_of_pos (by simpa using ha), ih, List.filter_filter, List.filter_filter]
      congr 1
      apply List.filter_congr
      intro b _
      rw [Bool.and_comm]

theorem firstOccurrences_of_nodup {l : List α} (h : (l.map key).Nodup) : firstOccurrences key l = l := by
  induction l with
  | nil => rfl
  | cons a l ih =>
    obtain ⟨ha, hl⟩ := List.nodup_cons.1 h
    rw [firstOccurrences, ih hl, List.filter_eq_self.2]
    intro b hb
    exact decide_eq_true fun he => ha (List.mem_map.2 ⟨b, hb, he⟩)

theorem mem_map_firstOccurrences {k : κ} {l : List α} : k ∈ (firstOccurrences key l).map key ↔ k ∈ l.map key := by
  induction l with
  | nil => rfl
  | cons a l ih =>
    by_cases hk : k = key a
    · simp [firstOccurrences, hk]
    · have hfilter : k ∈ ((firstOccurrences key l).filter fun b => key b ≠ key a).map key ↔
          k ∈ (firstOccurrences key l).map key := by
        simp only [List.mem_map, List.mem_filter, decide_eq_true_eq]
        constructor
        · rintro ⟨b, ⟨hb, -⟩, rfl⟩
          exact ⟨b, hb, rfl⟩
        · rintro ⟨b, hb, rfl⟩
          exact ⟨b, ⟨hb, hk⟩, rfl⟩
      rw [firstOccurrences, List.map_cons, List.map_cons, List.mem_cons, List.mem_cons, hfilter, ih]

/-- One more element at the end is a first occurrence if its key is new. -/
theorem firstOccurrences_concat (l : List α) (a : α) :
    firstOccurrences key (l ++ [a]) =
      if key a ∈ l.map key then firstOccurrences key l else firstOccurrences key l ++ [a] := by
  induction l with
  | nil => rfl
  | cons b l ih =>
    rw [List.cons_append, firstOccurrences, ih, firstOccurrences, List.map_cons]
    by_cases hrest : key a ∈ l.map key
    · rw [if_pos hrest, if_pos (List.mem_cons_of_mem _ hrest)]
    · rw [if_neg hrest, List.filter_append]
      by_cases hb : key a = key b
      · rw [if_pos (hb ▸ List.mem_cons_self), List.filter_cons_of_neg (by simpa using hb), List.filter_nil,
          List.append_nil]
      · rw [if_neg (by rw [List.mem_cons, not_or]; exact ⟨hb, hrest⟩), List.filter_cons_of_pos (by simpa using hb),
          List.filter_nil, List.cons_append]

end FirstOccurrences

end VulkanLoader.Lib
