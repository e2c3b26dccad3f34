import Mathlib.Data.List.Basic

/-!
# Runs of a state machine

A machine is a step function `step : σ → ι → σ`; a run feeds it a list of inputs.  `AllSteps ok` says that every
step of a run starts in a state and takes an input related by `ok`.  `run_invariant` is the one induction over runs
of this development: what a guarded step preserves, a guarded run preserves.
-/

namespace VulkanLoader.Lib

section Runs

variable {σ ι : Type*} (step : σ → ι → σ)

/-- The state after the inputs `is`. -/
def run : σ → List ι → σ
  | s, [] => s
  | s, i :: is => run (step s i) is

/-- Every step of the run from `s` over the inputs takes its input in a state where `ok` allows it. -/
def AllSteps (ok : σ → ι → Prop) : σ → List ι → Prop
  | _, [] => True
  | s, i :: is => ok s i ∧ AllSteps ok (step s i) is

@[simp] theorem run_nil (s : σ) : run step s [] = s := rfl

@[simp] theorem run_cons (s : σ) (i : ι) (is : List ι) : run step s (i :: is) = run step (step s i) is := rfl

@[simp] theorem allSteps_nil (ok : σ → ι → Prop) (s : σ) : AllSteps step ok s [] := trivial

@[simp] theorem allSteps_cons (ok : σ → ι → Prop) (s : σ) (i : ι) (is : List ι) :
    AllSteps step ok s (i :: is) ↔ ok s i ∧ AllSteps step ok (step s i) is := Iff.rfl

instance decidableAllSteps (ok : σ → ι → Prop) [∀ s i, Decidable (ok s i)] :
    ∀ (s : σ) (is : List ι), Decidable (AllSteps step ok s is)
  | _, [] => isTrue trivial
  | s, i :: is =>
    haveI := decidableAllSteps ok (step s i) is
    inferInstanceAs (Decidable (ok s i ∧ AllSteps step ok (step s i) is))

theorem run_append (s : σ) (is js : List ι) : run step s (is ++ js) = run step (run step s is) js := by
  induction is generalizing s with
  | nil => rfl
  | cons i is ih => exact ih (step s i)

theorem allSteps_append {ok : σ → ι → Prop} {s : σ} {is js : List ι} :
    AllSteps step ok s (is ++ js) ↔ AllSteps step ok s is ∧ AllSteps step ok (run step s is) js := by
  induction is generalizing s with
  | nil => simp
  | cons i is ih => simp [ih, and_assoc]

theorem AllSteps.before {ok : σ → ι → Prop} {s : σ} {is js : List ι} (h : AllSteps step ok s is) (hp : js <+: is) :
    AllSteps step ok s js := by
  obtain ⟨rest, rfl⟩ := hp
  exact ((allSteps_append step).1 h).1

/-- Inputs that are all allowed make a run of allowed steps. -/
theorem allSteps_of_forall {P : ι → Prop} {s : σ} {is : List ι} (h : ∀ i ∈ is, P i) :
    AllSteps step (fun _ i => P i) s is := by
  induction is generalizing s with
  | nil => trivial
  | cons i is ih => exact ⟨h i List.mem_cons_self, ih fun j hj => h j (List.mem_cons_of_mem _ hj)⟩

/-- **The invariant rule.**  What every allowed step preserves holds at the end of every run of allowed steps. -/
theorem run_invariant {ok : σ → ι → Prop} {Inv : σ → Prop}
    (hstep : ∀ s i, Inv s → ok s i → Inv (step s i)) {s : σ} {is : List ι} (h0 : Inv s)
    (hs : AllSteps step ok s is) : Inv (run step s is) := by
  induction is generalizing s with
  | nil => exact h0
  | cons i is ih => exact ih (hstep s i h0 hs.1) hs.2

/-- The invariant rule for a property of one step: it holds of the step taken after any run of allowed steps. -/
theorem run_step_invariant {ok : σ → ι → Prop} {Inv : σ → Prop} {Q : σ → ι → Prop}
    (hstep : ∀ s i, Inv s → ok s i → Inv (step s i)) (hQ : ∀ s i, Inv s → ok s i → Q s i) {s : σ}
    (h0 : Inv s) : ∀ is : List ι, AllSteps step ok s is → AllSteps step Q s is := by
  intro is
  induction is generalizing s with
  | nil => intro _; trivial
  | cons i is ih => intro hs; exact ⟨hQ s i h0 hs.1, ih (hstep s i h0 hs.1) hs.2⟩

/-- Two conditions on steps that agree wherever the invariant holds, the second of which preserves it, agree on runs. -/
theorem allSteps_congr {ok Q : σ → ι → Prop} {Inv : σ → Prop} (hstep : ∀ s i, Inv s → Q s i → Inv (step s i))
    (hiff : ∀ s i, Inv s → (Q s i ↔ ok s i)) {s : σ} (h0 : Inv s) (is : List ι) :
    AllSteps step Q s is ↔ AllSteps step ok s is := by
  induction is generalizing s with
  | nil => exact Iff.rfl
  | cons i is ih =>
    rw [allSteps_cons, allSteps_cons, ← hiff s i h0]
    exact and_congr_right fun hQ => ih (hstep s i h0 hQ)

/-- **The simulation rule.**  Two machines with the same inputs, of which every allowed step keeps a relation, keep it in
every run of allowed steps. -/
theorem run_simulates {σ' : Type*} {step' : σ' → ι → σ'} {ok : σ → ι → Prop} {R : σ → σ' → Prop}
    (hstep : ∀ s s' i, R s s' → ok s i → R (step s i) (step' s' i)) {s : σ} {s' : σ'} {is : List ι} (h0 : R s s')
    (hs : AllSteps step ok s is) : R (run step s is) (run step' s' is) := by
  induction is generalizing s s' with
  | nil => exact h0
  | cons i is ih => exact ih (hstep s s' i h0 hs.1) hs.2

end Runs

end VulkanLoader.Lib
