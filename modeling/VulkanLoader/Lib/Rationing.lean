import Mathlib.Data.Set.Insert
import Mathlib.Tactic.Common

/-!
# Computations whose requests may be refused

A state needs a set of things, and a computation asks for what the states that it comes to need in addition.  If it is
refused something, it gives up.  Such a computation *keeps to* one that is never refused anything: it ends as the other
one does if it is granted all that the other one asks for, and gives up if not; and where it ends without giving up, it
ends as the other one.
-/

namespace VulkanLoader.Lib

/-- What an outcome of a computation says: the state it leaves, and that the computation gave up. -/
structure Outcome (ρ σ : Type*) where
  state : ρ → σ
  gaveUp : ρ → Prop

variable {σ δ ρ ρ' : Type*}

/-- What is asked for on the way between two states is granted. -/
def Granted (need : σ → Set δ) (granted : Set δ) (s s' : σ) : Prop := need s' \ need s ⊆ granted

section Granted

variable {need : σ → Set δ} {granted : Set δ} {s s' s'' : σ}

theorem Granted.of_subset (h : need s' ⊆ need s) : Granted need granted s s' := fun _ hd => absurd (h hd.1) hd.2

/-- The way between two states, through one between. -/
theorem granted_trans_iff (h : need s ⊆ need s') (h' : need s' ⊆ need s'') :
    Granted need granted s s'' ↔ Granted need granted s s' ∧ Granted need granted s' s'' := by
  constructor
  · intro hall
    exact ⟨fun d hd => hall ⟨h' hd.1, hd.2⟩, fun d hd => hall ⟨hd.1, fun hs => hd.2 (h hs)⟩⟩
  · rintro ⟨hfirst, hsecond⟩ d ⟨hd, hnot⟩
    by_cases hs' : d ∈ need s'
    · exact hfirst ⟨hs', hnot⟩
    · exact hsecond ⟨hd, hs'⟩

end Granted

/-- The computation `x`, begun in the state `s`, keeps to the computation `y`. -/
structure KeepsTo (need : σ → Set δ) (granted : Set δ) (o : Outcome ρ σ) (s : σ) (x y : Option ρ) : Prop where
  never : ∀ r, y = some r → ¬ o.gaveUp r
  grows : ∀ r, y = some r → need s ⊆ need (o.state r)
  same : ∀ r, y = some r → Granted need granted s (o.state r) → x = some r
  refused : ∀ r, y = some r → ¬ Granted need granted s (o.state r) → ∃ r', x = some r' ∧ o.gaveUp r'
  agrees : ∀ r, x = some r → ¬ o.gaveUp r → y = some r

namespace KeepsTo

variable {need : σ → Set δ} {granted : Set δ} {o : Outcome ρ σ} {o' : Outcome ρ' σ} {s : σ} {x y : Option ρ}

/-- A computation that asks for nothing. -/
theorem of_some {r : ρ} (hnever : ¬ o.gaveUp r) (hneed : need (o.state r) = need s) :
    KeepsTo need granted o s (some r) (some r) where
  never := by
    rintro _ ⟨⟩
    exact hnever
  grows := by
    rintro _ ⟨⟩
    exact hneed.ge
  same := by
    rintro _ ⟨⟩ -
    rfl
  refused := by
    rintro _ ⟨⟩ hnot
    exact absurd (.of_subset hneed.le) hnot
  agrees _ h _ := h

/-- A computation that asks for one thing. -/
theorem of_request {r : ρ} {d : δ} (hnever : ¬ o.gaveUp r) (hd : d ∉ need s)
    (hneed : need (o.state r) = insert d (need s)) (hgranted : d ∈ granted → x = some r)
    (hrefused : d ∉ granted → ∃ r', x = some r' ∧ o.gaveUp r') : KeepsTo need granted o s x (some r) := by
  have hiff : Granted need granted s (o.state r) ↔ d ∈ granted := by
    rw [Granted, hneed]
    constructor
    · exact fun h => h ⟨Set.mem_insert d _, hd⟩
    · rintro h e ⟨rfl | he, hnot⟩
      · exact h
      · exact absurd he hnot
  constructor
  · rintro _ ⟨⟩
    exact hnever
  · rintro _ ⟨⟩
    rw [hneed]
    exact Set.subset_insert d _
  · rintro _ ⟨⟩ h
    exact hgranted (hiff.1 h)
  · rintro _ ⟨⟩ hnot
    exact hrefused fun h => hnot (hiff.2 h)
  · intro q hq hnot
    by_cases h : d ∈ granted
    · exact (hgranted h).symm.trans hq
    · obtain ⟨r', hr', hgave⟩ := hrefused h
      obtain rfl := Option.some.inj (hq.symm.trans hr')
      exact absurd hgave hnot

/-- Two computations that do not end. -/
theorem of_none : KeepsTo need granted o s none none where
  never := nofun
  grows := nofun
  same := nofun
  refused := nofun
  agrees := nofun

/-- One computation after another; one that gave up is not gone on with. -/
theorem bind (h : KeepsTo need granted o s x y) {f f' : ρ → Option ρ'}
    (hnext : ∀ r, y = some r → KeepsTo need granted o' (o.state r) (f r) (f' r))
    (hup : ∀ r, o.gaveUp r → ∃ r', f r = some r' ∧ o'.gaveUp r') :
    KeepsTo need granted o' s (x.bind f) (y.bind f') where
  never r' hr' := by
    obtain ⟨r, hr, hr'⟩ := Option.bind_eq_some_iff.1 hr'
    exact (hnext r hr).never r' hr'
  grows r' hr' := by
    obtain ⟨r, hr, hr'⟩ := Option.bind_eq_some_iff.1 hr'
    exact (h.grows r hr).trans ((hnext r hr).grows r' hr')
  same r' hr' hgranted := by
    obtain ⟨r, hr, hr'⟩ := Option.bind_eq_some_iff.1 hr'
    have hboth := (granted_trans_iff (h.grows r hr) ((hnext r hr).grows r' hr')).1 hgranted
    rw [h.same r hr hboth.1, Option.bind_some, (hnext r hr).same r' hr' hboth.2]
  refused r' hr' hnot := by
    obtain ⟨r, hr, hr'⟩ := Option.bind_eq_some_iff.1 hr'
    rw [granted_trans_iff (h.grows r hr) ((hnext r hr).grows r' hr')] at hnot
    by_cases hfirst : Granted need granted s (o.state r)
    · obtain ⟨r'', hr'', hgave⟩ := (hnext r hr).refused r' hr' fun hsecond => hnot ⟨hfirst, hsecond⟩
      exact ⟨r'', by rw [h.same r hr hfirst, Option.bind_some, hr''], hgave⟩
    · obtain ⟨q, hq, hgave⟩ := h.refused r hr hfirst
      obtain ⟨q', hq', hgave'⟩ := hup q hgave
      exact ⟨q', by rw [hq, Option.bind_some, hq'], hgave'⟩
  agrees r' hr' hnot := by
    obtain ⟨r, hr, hr'⟩ := Option.bind_eq_some_iff.1 hr'
    have hgoes : ¬ o.gaveUp r := by
      intro hgave
      obtain ⟨q, hq, hgave'⟩ := hup r hgave
      obtain rfl := Option.some.inj (hq.symm.trans hr')
      exact hnot hgave'
    have hy := h.agrees r hr hgoes
    rw [hy, Option.bind_some, (hnext r hy).agrees r' hr' hnot]

/-- The outcome is seen in another way. -/
theorem map (h : KeepsTo need granted o s x y) {g : ρ → ρ'} (hstate : ∀ r, need (o'.state (g r)) = need (o.state r))
    (hup : ∀ r, o'.gaveUp (g r) ↔ o.gaveUp r) : KeepsTo need granted o' s (x.map g) (y.map g) := by
  have hbind : ∀ z : Option ρ, z.map g = z.bind fun r => some (g r) := fun z => by cases z <;> rfl
  rw [hbind, hbind]
  refine h.bind (fun r hr => .of_some (fun hgave => h.never r hr ((hup r).1 hgave)) (hstate r)) ?_
  exact fun r hgave => ⟨g r, rfl, (hup r).2 hgave⟩

end KeepsTo

end VulkanLoader.Lib
