import Mathlib.Data.List.Basic
import Mathlib.Tactic.Common

/-!
# Tables of handles and the log of their makers

A table holds handles at indices, of which some are live; zero is no handle.  The log says which handles were made and
which were given back.  A table and a log are *balanced* when every handle was given back as often as it was made, less
the live entries that still hold it.  The rules below say how growing the table, making a handle at an index, giving
one back and retiring an index keep the balance.
-/

namespace VulkanLoader.Lib

/-- What happened to a handle. -/
inductive HandleEvent (η : Type*) where
  | made (h : η)
  | givenBack (h : η)
  deriving DecidableEq

section Ledger

variable {η : Type*} [DecidableEq η] [Zero η]

open HandleEvent

/-- Live entries that hold `h`. -/
def held (live : List ℕ) (table : List η) (h : η) : ℕ := live.countP fun n => decide (table[n]? = some h)

/-- **Conservation**: a handle that was made was given back, or a live entry holds it. -/
def Balanced (live : List ℕ) (table : List η) (log : List (HandleEvent η)) : Prop :=
  ∀ h ≠ 0, log.count (made h) = log.count (givenBack h) + held live table h

variable {live : List ℕ} {table : List η} {log : List (HandleEvent η)}

theorem balanced_nil : Balanced [] ([] : List η) [] := fun _ _ => rfl

omit [Zero η] in
theorem held_perm {live' : List ℕ} (hp : live.Perm live') (h : η) : held live table h = held live' table h :=
  hp.countP_eq _

omit [Zero η] in
/-- Two tables that agree on the live entries hold the same. -/
theorem held_congr {table' : List η} (ht : ∀ n ∈ live, table[n]? = table'[n]?) (h : η) :
    held live table h = held live table' h :=
  List.countP_congr fun n hn => by simp only [ht n hn]

omit [Zero η] in
@[simp] theorem held_cons (n : ℕ) (h : η) :
    held (n :: live) table h = held live table h + if table[n]? = some h then 1 else 0 := by
  simp [held, List.countP_cons]

theorem Balanced.perm {live' : List ℕ} (hb : Balanced live table log) (hp : live.Perm live') :
    Balanced live' table log := fun h h0 => by rw [hb h h0, held_perm hp]

theorem Balanced.congr {table' : List η} (hb : Balanced live table log) (ht : ∀ n ∈ live, table[n]? = table'[n]?) :
    Balanced live table' log := fun h h0 => by rw [hb h h0, held_congr ht]

/-- Making a handle at an index that becomes live. -/
theorem Balanced.made {n : ℕ} {h : η} (hb : Balanced live table log) (hn : table[n]? = some h) :
    Balanced (n :: live) table (log ++ [made h]) := by
  intro g h0
  rw [held_cons, List.count_append, List.count_append, hb g h0]
  by_cases hg : h = g
  · subst hg
    simp [hn]
    omega
  · simp [hn, hg]

/-- Giving back the handle at an index that is live no more. -/
theorem Balanced.givenBack {n : ℕ} {h : η} (hb : Balanced (n :: live) table log) (hn : table[n]? = some h) :
    Balanced live table (log ++ [givenBack h]) := by
  intro g h0
  have hg0 := hb g h0
  rw [held_cons] at hg0
  rw [List.count_append, List.count_append]
  by_cases hg : h = g
  · subst hg
    simp [hn] at hg0 ⊢
    omega
  · simp [hn, hg] at hg0 ⊢
    omega

/-- An index without a handle may become live, and cease to be. -/
theorem balanced_cons_iff {n : ℕ} (hn : ∀ h ≠ 0, table[n]? ≠ some h) :
    Balanced (n :: live) table log ↔ Balanced live table log := by
  refine forall₂_congr fun h h0 => ?_
  rw [held_cons, if_neg (hn h h0), Nat.add_zero]

end Ledger

end VulkanLoader.Lib
