import Mathlib.Data.List.Nodup
import Mathlib.Tactic.Common

/-!
# A heap of objects

Objects of one type at addresses, `0` being the null pointer.  An allocator may answer with any address that is not in
use, so `alloc` takes the address that it proposes, and another one where the proposal is in use.  `free` is undefined
on a pointer that is neither null nor in use: a run that is defined frees nothing twice.  `freed` logs the addresses
that were freed, in order, so that an object that was freed and made again at its old address can be told from an
object that stayed.
-/

namespace VulkanLoader.Lib

/-- Objects at addresses below a bound, and the log of `free`. -/
structure Heap (α : Type*) where
  get : ℕ → Option α
  bound : ℕ
  freed : List ℕ
  get_null : get 0 = none
  bound_pos : 0 < bound
  get_bound : ∀ a, bound ≤ a → get a = none

namespace Heap

variable {α : Type*}

/-- The heap with no object. -/
def empty : Heap α := ⟨fun _ => none, 1, [], rfl, Nat.one_pos, fun _ _ => rfl⟩

@[simp] theorem empty_get (a : ℕ) : (empty : Heap α).get a = none := rfl

@[simp] theorem empty_freed : (empty : Heap α).freed = [] := rfl

/-- The address that a request gets. -/
def place (h : Heap α) (wish : ℕ) : ℕ := if wish = 0 ∨ (h.get wish).isSome then h.bound else wish

/-- A new object. -/
def alloc (h : Heap α) (wish : ℕ) (v : α) : Heap α where
  get a := if a = h.place wish then some v else h.get a
  bound := max h.bound (h.place wish + 1)
  freed := h.freed
  get_null := by
    have hpos := h.bound_pos
    have hne : 0 ≠ h.place wish := by
      unfold place
      split_ifs <;> omega
    rw [if_neg hne]
    exact h.get_null
  bound_pos := by have := h.bound_pos; omega
  get_bound a ha := by
    rw [if_neg (by omega)]
    exact h.get_bound a (by omega)

/-- `free`; `none` is undefined behaviour. -/
def free (h : Heap α) (p : ℕ) : Option (Heap α) :=
  if p = 0 then some h
  else if (h.get p).isSome then
    some { h with
      get := fun a => if a = p then none else h.get a
      freed := h.freed ++ [p]
      get_null := by
        show (if _ then none else _) = none
        rw [h.get_null, ite_self]
      get_bound := fun a ha => by
        show (if _ then none else _) = none
        rw [h.get_bound a ha, ite_self] }
  else none

/-- A write to an object; `none` is undefined behaviour. -/
def put (h : Heap α) (p : ℕ) (v : α) : Option (Heap α) :=
  if hp : (h.get p).isSome then
    some { h with
      get := fun a => if a = p then some v else h.get a
      get_null := by
        show (if _ then some v else _) = none
        rw [if_neg, h.get_null]
        rintro rfl
        rw [h.get_null] at hp
        cases hp
      get_bound := fun a ha => by
        show (if _ then some v else _) = none
        rw [if_neg, h.get_bound a ha]
        rintro rfl
        rw [h.get_bound a ha] at hp
        cases hp }
  else none

/-- Objects are written in turn. -/
def putAll : Heap α → List (ℕ × α) → Option (Heap α)
  | h, [] => some h
  | h, w :: ws => (h.put w.1 w.2).bind fun h => h.putAll ws

/-- The pointers are freed in turn. -/
def freeAll : Heap α → List ℕ → Option (Heap α)
  | h, [] => some h
  | h, p :: ps => (h.free p).bind fun h => h.freeAll ps

/-! ### The address of a new object -/

variable {h h' : Heap α} {a p wish : ℕ} {v w : α}

theorem get_place (h : Heap α) (wish : ℕ) : h.get (h.place wish) = none := by
  unfold place
  split_ifs with hc
  · exact h.get_bound _ (Nat.le_refl _)
  · simpa using fun hs => hc (Or.inr hs)

theorem place_ne_null (h : Heap α) (wish : ℕ) : h.place wish ≠ 0 := by
  have hpos := h.bound_pos
  unfold place
  split_ifs <;> omega

@[simp] theorem alloc_freed (h : Heap α) (wish : ℕ) (v : α) : (h.alloc wish v).freed = h.freed := rfl

@[simp] theorem alloc_get_self (h : Heap α) (wish : ℕ) (v : α) : (h.alloc wish v).get (h.place wish) = some v :=
  if_pos rfl

/-- What is in use stays as it is when an object is made. -/
theorem alloc_get_of_get (hp : h.get p = some w) : (h.alloc wish v).get p = some w := by
  have hne : p ≠ h.place wish := fun he => by
    rw [he, get_place] at hp
    cases hp
  exact (if_neg hne).trans hp

theorem alloc_get_of_ne (hp : p ≠ h.place wish) : (h.alloc wish v).get p = h.get p := if_neg hp

/-! ### Writing -/

theorem put_of_isSome (hp : (h.get p).isSome) (v : α) :
    ∃ h', h.put p v = some h' ∧ h'.get = (fun a => if a = p then some v else h.get a) ∧ h'.freed = h.freed := by
  unfold put
  rw [dif_pos hp]
  exact ⟨_, rfl, rfl, rfl⟩

/-- Writing distinct objects in use is defined, and changes nothing else. -/
theorem putAll_of_isSome {ws : List (ℕ × α)} (hnd : (ws.map Prod.fst).Nodup)
    (hlive : ∀ p ∈ ws.map Prod.fst, (h.get p).isSome) :
    ∃ h', h.putAll ws = some h' ∧ h'.freed = h.freed ∧ (∀ w ∈ ws, h'.get w.1 = some w.2) ∧
      ∀ p ∉ ws.map Prod.fst, h'.get p = h.get p := by
  induction ws generalizing h with
  | nil => exact ⟨h, rfl, rfl, by simp, fun _ _ => rfl⟩
  | cons w ws ih =>
    obtain ⟨hw, hnd⟩ := List.nodup_cons.1 hnd
    obtain ⟨h₁, hput, hget₁, hfreed₁⟩ := put_of_isSome (hlive w.1 List.mem_cons_self) w.2
    have hlive₁ : ∀ p ∈ ws.map Prod.fst, (h₁.get p).isSome := by
      intro p hp
      rw [hget₁]
      dsimp only
      split_ifs
      · rfl
      · exact hlive p (List.mem_cons_of_mem _ hp)
    obtain ⟨h', hall, hfreed, hget, hframe⟩ := ih hnd hlive₁
    refine ⟨h', by rw [putAll, hput]; exact hall, hfreed.trans hfreed₁, fun v hv => ?_, fun p hp => ?_⟩
    · rcases List.mem_cons.1 hv with rfl | hv
      · rw [hframe _ hw, hget₁]
        exact if_pos rfl
      · exact hget v hv
    · obtain ⟨hne, hp⟩ := not_or.1 fun h => hp (List.mem_cons.2 h)
      rw [hframe p hp, hget₁]
      exact if_neg hne

/-! ### Freeing -/

theorem ne_null_of_get (hp : h.get p = some v) : p ≠ 0 := fun h0 => by
  rw [h0, h.get_null] at hp
  cases hp

/-- Freeing null does nothing. -/
@[simp] theorem free_null (h : Heap α) : h.free 0 = some h := if_pos rfl

/-- Freeing an object in use. -/
theorem free_of_get (hp : h.get p = some v) :
    ∃ h', h.free p = some h' ∧ h'.get = (fun a => if a = p then none else h.get a) ∧ h'.freed = h.freed ++ [p] := by
  unfold free
  rw [if_neg (ne_null_of_get hp), if_pos (by rw [hp]; rfl)]
  exact ⟨_, rfl, rfl, rfl⟩

/-- Freeing leaves the other addresses alone. -/
theorem freeAll_get_of_not_mem {l : List ℕ} (h₀ : h.freeAll l = some h') (hp : p ∉ l) : h'.get p = h.get p := by
  induction l generalizing h with
  | nil =>
    obtain rfl := Option.some.inj h₀
    rfl
  | cons q l ih =>
    obtain ⟨hne, hp⟩ := not_or.1 fun he => hp (List.mem_cons.2 he)
    obtain ⟨h₁, hfree, hrest⟩ := Option.bind_eq_some_iff.1 h₀
    rw [ih hrest hp]
    unfold free at hfree
    split_ifs at hfree
    · obtain rfl := Option.some.inj hfree
      rfl
    · obtain rfl := Option.some.inj hfree
      exact if_neg hne

/-- **Freeing distinct objects in use**, and null pointers among them, is defined, and frees exactly them. -/
theorem freeAll_of_get {l : List ℕ} (hnd : (l.filter (· ≠ 0)).Nodup) (hget : ∀ p ∈ l, p ≠ 0 → (h.get p).isSome) :
    ∃ h', h.freeAll l = some h' ∧ (∀ a, h'.get a = if a ∈ l then none else h.get a) ∧
      h'.freed = h.freed ++ l.filter (· ≠ 0) := by
  induction l generalizing h with
  | nil => exact ⟨h, rfl, by simp, by simp⟩
  | cons p l ih =>
    by_cases h0 : p = 0
    · -- a null pointer
      subst h0
      obtain ⟨h', hf, hg, hlog⟩ := ih (h := h) (by simpa using hnd) fun q hq => hget q (List.mem_cons_of_mem _ hq)
      refine ⟨h', by simp [freeAll, hf], fun a => ?_, by simpa using hlog⟩
      rw [hg]
      by_cases ha : a = 0
      · subst ha
        simp [h.get_null]
      · simp [ha]
    · rw [List.filter_cons_of_pos (by simpa using h0), List.nodup_cons] at hnd
      obtain ⟨v, hv⟩ := Option.isSome_iff_exists.1 (hget p List.mem_cons_self h0)
      obtain ⟨h₁, hf₁, hg₁, hlog₁⟩ := free_of_get hv
      have hget₁ : ∀ q ∈ l, q ≠ 0 → (h₁.get q).isSome := by
        intro q hq hq0
        have hne : q ≠ p := fun he => hnd.1 (List.mem_filter.2 ⟨he ▸ hq, by simpa using h0⟩)
        rw [hg₁]
        simpa [hne] using hget q (List.mem_cons_of_mem _ hq) hq0
      obtain ⟨h', hf, hg, hlog⟩ := ih hnd.2 hget₁
      refine ⟨h', by simp [freeAll, hf₁, hf], fun a => ?_, ?_⟩
      · rw [hg, hg₁]
        by_cases ha : a = p <;> simp [ha]
      · rw [hlog, hlog₁, List.append_assoc, List.filter_cons_of_pos (by simpa using h0)]
        rfl

/-- What is freed is in use, and nothing else changes. -/
theorem get_of_free (hf : h.free p = some h') (h0 : p ≠ 0) :
    (h.get p).isSome ∧ h'.get = fun a => if a = p then none else h.get a := by
  unfold free at hf
  rw [if_neg h0] at hf
  split_ifs at hf with hlive
  obtain rfl := Option.some.inj hf
  exact ⟨hlive, rfl⟩

/-- **Pointers can be freed in turn exactly if** those that are not null are distinct objects in use. -/
theorem isSome_freeAll_iff {l : List ℕ} :
    (h.freeAll l).isSome ↔ (l.filter (· ≠ 0)).Nodup ∧ ∀ p ∈ l, p ≠ 0 → (h.get p).isSome := by
  constructor
  · intro hfree
    induction l generalizing h with
    | nil => exact ⟨List.nodup_nil, by simp⟩
    | cons p l ih =>
      obtain ⟨h', hfree⟩ := Option.isSome_iff_exists.1 hfree
      obtain ⟨h₁, hf, hrest⟩ := Option.bind_eq_some_iff.1 hfree
      obtain ⟨hnd, hlive⟩ := ih (h := h₁) (by rw [hrest]; rfl)
      by_cases h0 : p = 0
      · -- a null pointer
        subst h0
        rw [free_null] at hf
        obtain rfl := Option.some.inj hf
        refine ⟨by simpa using hnd, fun q hq hq0 => ?_⟩
        exact hlive q ((List.mem_cons.1 hq).resolve_left hq0) hq0
      · -- what is freed later is another object
        obtain ⟨hp, hget⟩ := get_of_free hf h0
        have hother : ∀ q ∈ l, q ≠ 0 → q ≠ p ∧ (h.get q).isSome := by
          intro q hq hq0
          have hq₁ := hlive q hq hq0
          rw [hget] at hq₁
          dsimp only at hq₁
          split_ifs at hq₁ with hqp
          · cases hq₁
          · exact ⟨hqp, hq₁⟩
        rw [List.filter_cons_of_pos (by simpa using h0)]
        refine ⟨List.nodup_cons.2 ⟨fun hmem => ?_, hnd⟩, fun q hq hq0 => ?_⟩
        · exact (hother p (List.mem_of_mem_filter hmem) h0).1 rfl
        · rcases List.mem_cons.1 hq with rfl | hq
          · exact hp
          · exact (hother q hq hq0).2
  · rintro ⟨hnd, hget⟩
    obtain ⟨h', hfree, -⟩ := freeAll_of_get hnd hget
    rw [hfree]
    rfl

/-! ### Accounting for the objects -/

/-- The objects of the heap are those listed, and what was made, of which `made` is the log, was freed or is listed. -/
structure Accounts (h : Heap α) (made : List ℕ) (ws : List (ℕ × α)) : Prop where
  get : ∀ w ∈ ws, h.get w.1 = some w.2
  distinct : (ws.map Prod.fst).Nodup
  only : ∀ p, (h.get p).isSome → p ∈ ws.map Prod.fst
  made : made.Perm (h.freed ++ ws.map Prod.fst)

namespace Accounts

variable {made : List ℕ} {ws vs : List (ℕ × α)} {o : ℕ × α}

theorem empty : Accounts (Heap.empty : Heap α) [] [] := ⟨by simp, List.nodup_nil, by simp, List.Perm.refl _⟩

theorem perm (ha : h.Accounts made ws) (hp : ws.Perm vs) : h.Accounts made vs where
  get w hw := ha.get w (hp.mem_iff.2 hw)
  distinct := (hp.map Prod.fst).nodup_iff.1 ha.distinct
  only p hg := (hp.map Prod.fst).mem_iff.1 (ha.only p hg)
  made := ha.made.trans ((hp.map Prod.fst).append_left _)

theorem alloc (ha : h.Accounts made ws) (wish : ℕ) (v : α) :
    (h.alloc wish v).Accounts (made ++ [h.place wish]) ((h.place wish, v) :: ws) where
  get w hw := by
    rcases List.mem_cons.1 hw with rfl | hw
    · exact alloc_get_self h wish v
    · exact alloc_get_of_get (ha.get w hw)
  distinct := by
    refine List.nodup_cons.2 ⟨fun hmem => ?_, ha.distinct⟩
    obtain ⟨w, hw, he⟩ := List.mem_map.1 hmem
    have hg := ha.get w hw
    rw [he, get_place] at hg
    cases hg
  only p hg := by
    by_cases hp : p = h.place wish
    · exact hp ▸ List.mem_cons_self
    · rw [alloc_get_of_ne hp] at hg
      exact List.mem_cons_of_mem _ (ha.only p hg)
  made := by
    rw [alloc_freed, List.map_cons, List.perm_iff_count]
    intro p
    have hp := ha.made.count_eq p
    simp only [List.count_append, List.count_cons, List.count_nil] at hp ⊢
    omega

theorem put (ha : h.Accounts made (o :: ws)) (v : α) :
    ∃ h', h.put o.1 v = some h' ∧ h'.get = (fun a => if a = o.1 then some v else h.get a) ∧
      h'.Accounts made ((o.1, v) :: ws) := by
  have ho := ha.get o List.mem_cons_self
  obtain ⟨h', hput, hget, hfreed⟩ := put_of_isSome (by rw [ho]; rfl : (h.get o.1).isSome) v
  refine ⟨h', hput, hget, fun w hw => ?_, ha.distinct, fun p hp => ?_, by rw [hfreed]; exact ha.made⟩
  · rw [hget]
    rcases List.mem_cons.1 hw with rfl | hw
    · exact if_pos rfl
    · refine (if_neg fun he => ?_).trans (ha.get w (List.mem_cons_of_mem _ hw))
      exact (List.nodup_cons.1 ha.distinct).1 (he ▸ List.mem_map_of_mem hw)
  · by_cases he : p = o.1
    · exact he ▸ List.mem_cons_self
    · rw [hget] at hp
      exact ha.only p (by simpa [he] using hp)

theorem free (ha : h.Accounts made (o :: ws)) :
    ∃ h', h.free o.1 = some h' ∧ h'.get = (fun a => if a = o.1 then none else h.get a) ∧ h'.Accounts made ws := by
  obtain ⟨hnew, hdistinct⟩ := List.nodup_cons.1 ha.distinct
  obtain ⟨h', hfree, hget, hfreed⟩ := free_of_get (ha.get o List.mem_cons_self)
  refine ⟨h', hfree, hget, fun w hw => ?_, hdistinct, fun p hp => ?_, ?_⟩
  · rw [hget]
    refine (if_neg fun he => ?_).trans (ha.get w (List.mem_cons_of_mem _ hw))
    exact hnew (he ▸ List.mem_map_of_mem hw)
  · rw [hget] at hp
    by_cases he : p = o.1
    · simp [he] at hp
    · rcases List.mem_cons.1 (ha.only p (by simpa [he] using hp)) with hpo | hp
      · exact absurd hpo he
      · exact hp
  · rw [hfreed, List.append_assoc]
    exact ha.made

end Accounts

end Heap

end VulkanLoader.Lib
