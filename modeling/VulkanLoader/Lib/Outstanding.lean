import VulkanLoader.Lib.HandleLedger
import Mathlib.Data.Multiset.MapFold

/-!
# What a log leaves outstanding

A log is replayed on what is held before it: something made is held from then on, and only what is held can be given
back.  A log is *settled* if the replay from nothing goes through and ends with nothing, so that everything was given
back once, after it was made.
-/

namespace VulkanLoader.Lib

namespace HandleEvent

/-- The event of another view of the handle. -/
def map {η θ : Type*} (f : η → θ) : HandleEvent η → HandleEvent θ
  | made h => made (f h)
  | givenBack h => givenBack (f h)

@[simp] theorem map_made {η θ : Type*} (f : η → θ) (h : η) : (made h).map f = made (f h) := rfl

@[simp] theorem map_givenBack {η θ : Type*} (f : η → θ) (h : η) : (givenBack h).map f = givenBack (f h) := rfl

/-- What the event is about. -/
def handle {η : Type*} : HandleEvent η → η
  | made h => h
  | givenBack h => h

end HandleEvent

open HandleEvent

section Outstanding

variable {η : Type*} [DecidableEq η]

/-- What is held after a log; `none` if something is given back that is not held. -/
def outstanding (held : Multiset η) : List (HandleEvent η) → Option (Multiset η)
  | [] => some held
  | made h :: log => outstanding (h ::ₘ held) log
  | givenBack h :: log => if h ∈ held then outstanding (held.erase h) log else none

/-- **Everything made is given back, once.** -/
def Settled (log : List (HandleEvent η)) : Prop := outstanding 0 log = some 0

instance (log : List (HandleEvent η)) : Decidable (Settled log) := inferInstanceAs (Decidable (_ = _))

variable {held held' : Multiset η} {log log' : List (HandleEvent η)} {h : η}

@[simp] theorem outstanding_nil : outstanding held [] = some held := rfl

@[simp] theorem outstanding_made : outstanding held (made h :: log) = outstanding (h ::ₘ held) log := rfl

/-- Giving back what is held. -/
@[simp] theorem outstanding_givenBack : outstanding (h ::ₘ held) (givenBack h :: log) = outstanding held log := by
  rw [outstanding, if_pos (Multiset.mem_cons_self h held), Multiset.erase_cons_head]

theorem outstanding_append :
    outstanding held (log ++ log') = (outstanding held log).bind fun held => outstanding held log' := by
  induction log generalizing held with
  | nil => rfl
  | cons e log ih =>
    rcases e with h | h
    · exact ih
    · rw [List.cons_append, outstanding, outstanding]
      split_ifs
      · exact ih
      · rfl

/-- Two parts of a log. -/
theorem outstanding_trans {middle : Multiset η} (h₁ : outstanding held log = some middle)
    (h₂ : outstanding middle log' = some held') : outstanding held (log ++ log') = some held' := by
  rw [outstanding_append, h₁, Option.bind_some, h₂]

/-- **The frame rule**: what a log does not need is held through it. -/
theorem outstanding_frame (frame : Multiset η) (hlog : outstanding held log = some held') :
    outstanding (held + frame) log = some (held' + frame) := by
  induction log generalizing held with
  | nil =>
    obtain rfl := Option.some.inj hlog
    rfl
  | cons e log ih =>
    rcases e with h | h
    · rw [outstanding_made, ← Multiset.cons_add]
      exact ih hlog
    · rw [outstanding] at hlog ⊢
      split_ifs at hlog with hmem
      rw [if_pos (Multiset.mem_add.2 (Or.inl hmem)), Multiset.erase_add_left_pos frame hmem]
      exact ih hlog

/-- Two logs about different parts of what is held. -/
theorem outstanding_add {rest rest' : Multiset η} (h₁ : outstanding held log = some held')
    (h₂ : outstanding rest log' = some rest') : outstanding (held + rest) (log ++ log') = some (held' + rest') := by
  refine outstanding_trans (outstanding_frame rest h₁) ?_
  rw [Multiset.add_comm held' rest, Multiset.add_comm held' rest']
  exact outstanding_frame held' h₂

/-- Giving back all of a list. -/
theorem outstanding_givenBack_list (hs : List η) (held : Multiset η) :
    outstanding ((hs : Multiset η) + held) (hs.map givenBack) = some held := by
  induction hs with
  | nil => rw [Multiset.coe_nil, Multiset.zero_add, List.map_nil, outstanding_nil]
  | cons h hs ih => rw [← Multiset.cons_coe, Multiset.cons_add, List.map_cons, outstanding_givenBack, ih]

/-- What is given back was held or made. -/
theorem made_of_givenBack (hlog : outstanding held log = some held') (hback : givenBack h ∈ log) :
    h ∈ held ∨ made h ∈ log := by
  induction log generalizing held with
  | nil => cases hback
  | cons e log ih =>
    rcases e with g | g
    · rcases ih hlog (by simpa using hback) with hheld | hmade
      · rcases Multiset.mem_cons.1 hheld with rfl | hheld
        · exact Or.inr List.mem_cons_self
        · exact Or.inl hheld
      · exact Or.inr (List.mem_cons_of_mem _ hmade)
    · rw [outstanding] at hlog
      split_ifs at hlog with hmem
      rcases List.mem_cons.1 hback with heq | hback
      · exact Or.inl (HandleEvent.givenBack.inj heq ▸ hmem)
      · exact (ih hlog hback).imp Multiset.mem_of_mem_erase (List.mem_cons_of_mem _)

/-- A replay goes through in every view of it. -/
theorem outstanding_map {θ : Type*} [DecidableEq θ] (f : η → θ) (hlog : outstanding held log = some held') :
    outstanding (held.map f) (log.map fun e => e.map f) = some (held'.map f) := by
  induction log generalizing held with
  | nil =>
    obtain rfl := Option.some.inj hlog
    rfl
  | cons e log ih =>
    rcases e with h | h
    · rw [List.map_cons, map_made, outstanding_made, ← Multiset.map_cons]
      exact ih hlog
    · rw [outstanding] at hlog
      split_ifs at hlog with hmem
      rw [List.map_cons, map_givenBack, ← Multiset.cons_erase hmem, Multiset.map_cons, outstanding_givenBack]
      exact ih hlog

theorem Settled.map {θ : Type*} [DecidableEq θ] (f : η → θ) (hlog : Settled log) :
    Settled (log.map fun e => e.map f) := outstanding_map f hlog

/-- Handles of which a view says everything are settled if the view is. -/
theorem settled_of_map {θ : Type*} [DecidableEq θ] (f : η → θ) (g : θ → η) (hg : ∀ e ∈ log, g (f e.handle) = e.handle)
    (hlog : Settled (log.map fun e => e.map f)) : Settled log := by
  have hlog' := hlog.map g
  have hid : ((log.map fun e => e.map f).map fun e => e.map g) = log := by
    rw [List.map_map]
    refine (List.map_congr_left fun e he => ?_).trans (List.map_id log)
    have h := hg e he
    rcases e with x | x
    · exact congrArg made h
    · exact congrArg givenBack h
  rwa [hid] at hlog'

/-! ### Logs that grow -/

/-- The log has grown, and what is held has gone from `held` to `held'`. -/
def Turns (held held' : Multiset η) (log log' : List (HandleEvent η)) : Prop :=
  ∃ rest, log' = log ++ rest ∧ outstanding held rest = some held'

namespace Turns

variable {held'' : Multiset η} {log'' : List (HandleEvent η)}

theorem refl (held : Multiset η) (log : List (HandleEvent η)) : Turns held held log log :=
  ⟨[], (List.append_nil log).symm, rfl⟩

theorem trans (h : Turns held held' log log') (h' : Turns held' held'' log' log'') : Turns held held'' log log'' := by
  obtain ⟨rest, hlog, hheld⟩ := h
  obtain ⟨rest', hlog', hheld'⟩ := h'
  exact ⟨rest ++ rest', by rw [hlog', hlog, List.append_assoc], outstanding_trans hheld hheld'⟩

theorem frame (h : Turns held held' log log') (frame : Multiset η) : Turns (held + frame) (held' + frame) log log' := by
  obtain ⟨rest, hlog, hheld⟩ := h
  exact ⟨rest, hlog, outstanding_frame frame hheld⟩

theorem made (h : η) (held : Multiset η) (log : List (HandleEvent η)) :
    Turns held (h ::ₘ held) log (log ++ [.made h]) := ⟨_, rfl, rfl⟩

theorem givenBack (hs : List η) (held : Multiset η) (log : List (HandleEvent η)) :
    Turns ((hs : Multiset η) + held) held log (log ++ hs.map .givenBack) := ⟨_, rfl, outstanding_givenBack_list hs held⟩

/-- A log that began with nothing. -/
theorem outstanding_eq (h : Turns 0 held [] log) : outstanding 0 log = some held := by
  obtain ⟨rest, rfl, hheld⟩ := h
  exact hheld

end Turns

end Outstanding

end VulkanLoader.Lib
