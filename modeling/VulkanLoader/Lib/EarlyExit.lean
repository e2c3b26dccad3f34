import Mathlib.Tactic.Common

/-!
# Computations that end early

A computation over a state ends with a value, or early with an exit.  What it does is said by a precondition, a
postcondition for the value and one for the exit.

A loop that may have no result stops early where the result of a step says so.
-/

namespace VulkanLoader.Lib

/-- A computation over a state that may end early. -/
abbrev Exiting (ε σ : Type) := ExceptT ε (StateM σ)

variable {ε σ α β : Type}

/-- How a computation ends, and in which state. -/
def Exiting.from (c : Exiting ε σ α) (s : σ) : Except ε α × σ := c.run.run s

theorem Exiting.from_bind (c : Exiting ε σ α) (f : α → Exiting ε σ β) (s : σ) :
    (c >>= f).from s = match c.from s with
      | (.ok a, s') => (f a).from s'
      | (.error e, s') => (.error e, s') := by
  change (ExceptT.bindCont f (c.from s).1).run (c.from s).2 = _
  rcases c.from s with ⟨_ | _, s'⟩
  · rfl
  · rfl

/-- From a state with `P` the computation ends with a value and in a state of `Q`, or early in a state of `E`. -/
def Ends (P : σ → Prop) (c : Exiting ε σ α) (Q : α → σ → Prop) (E : ε → σ → Prop) : Prop :=
  ∀ s, P s → match c.from s with
    | (.ok a, s') => Q a s'
    | (.error e, s') => E e s'

namespace Ends

variable {P P' : σ → Prop} {Q Q' R : α → σ → Prop} {T : β → σ → Prop} {E E' : ε → σ → Prop} {c : Exiting ε σ α}
  {f : α → Exiting ε σ β} {a : α} {e : ε}

theorem of_pure (h : ∀ s, P s → Q a s) : Ends P (pure a : Exiting ε σ α) Q E := h

theorem of_throw (h : ∀ s, P s → E e s) : Ends P (throw e : Exiting ε σ α) Q E := h

theorem of_modify {g : σ → σ} {Q : PUnit → σ → Prop} (h : ∀ s, P s → Q ⟨⟩ (g s)) :
    Ends P (modify g : Exiting ε σ PUnit) Q E := h

theorem of_get {Q : σ → σ → Prop} (h : ∀ s, P s → Q s s) : Ends P (get : Exiting ε σ σ) Q E := h

theorem of_bind (hc : Ends P c R E) (hf : ∀ a, Ends (R a) (f a) T E) : Ends P (c >>= f) T E := by
  intro s hs
  have hfirst := hc s hs
  rw [Exiting.from_bind]
  rcases hend : c.from s with ⟨e | a, s'⟩
  · rw [hend] at hfirst
    exact hfirst
  · rw [hend] at hfirst
    exact hf a s' hfirst

/-- Stronger before, weaker after. -/
theorem weaken (h : Ends P c Q E) (hP : ∀ s, P' s → P s) (hQ : ∀ a s, Q a s → Q' a s) (hE : ∀ e s, E e s → E' e s) :
    Ends P' c Q' E' := by
  intro s hs
  have hend := h s (hP s hs)
  generalize c.from s = final at hend ⊢
  rcases final with ⟨e | a, s'⟩
  · exact hE e s' hend
  · exact hQ a s' hend

/-- What does not depend on the state. -/
theorem of_and {p : Prop} (h : p → Ends P c Q E) : Ends (fun s => p ∧ P s) c Q E := fun s hs => h hs.1 s hs.2

end Ends

/-! ### Steps that may be the last -/

section Steps

variable {τ : Type*} {stops : τ → Prop} [DecidablePred stops] {first : Option τ} {next : τ → Option τ} {r : τ}

/-- A step, and what follows it unless it was the last, have a result if each of them has one. -/
theorem isSome_bind_unless (hfirst : first.isSome) (hnext : ∀ a, (next a).isSome) :
    (first.bind fun a => if stops a then some a else next a).isSome := by
  obtain ⟨a, rfl⟩ := Option.isSome_iff_exists.1 hfirst
  rw [Option.bind_some]
  split_ifs
  · rfl
  · exact hnext a

/-- Where the result does not say that the loop stopped, it has gone on after the step. -/
theorem next_of_bind_unless (h : (first.bind fun a => if stops a then some a else next a) = some r) (hr : ¬ stops r) :
    ∃ a, first = some a ∧ ¬ stops a ∧ next a = some r := by
  obtain ⟨a, ha, hnext⟩ := Option.bind_eq_some_iff.1 h
  split_ifs at hnext with hstop
  · obtain rfl := Option.some.inj hnext
    exact absurd hstop hr
  · exact ⟨a, ha, hstop, hnext⟩

end Steps

end VulkanLoader.Lib
