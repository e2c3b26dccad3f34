import Mathlib.Data.Fintype.Card
import Mathlib.Data.Set.Finite.List
import Mathlib.Logic.Relation

/-!
# Walks in a finite graph

A relation `r` is the edge relation of a graph whose edges end in a list of vertices.  A recursion along the edges ends
at a vertex if the vertex is accessible; with finitely many ends, every vertex is if there is no cycle.
-/

namespace VulkanLoader.Lib

open Relation

section Walks

variable {α : Type*} {r : α → α → Prop}

/-- A vertex that is accessible along the edges lies on no cycle. -/
theorem not_transGen_self_of_acc {a : α} (ha : Acc (fun b a => r a b) a) : ¬ TransGen r a a := by
  induction ha with
  | intro a _ ih =>
    intro hcycle
    obtain ⟨b, hab, hba⟩ := TransGen.head'_iff.1 hcycle
    exact ih b hab (TransGen.tail' hba hab)

/-- **No cycle**: every vertex is accessible along the edges. -/
theorem acc_of_no_cycle (l : List α) (hl : ∀ a b, r a b → b ∈ l) (hr : ∀ a, ¬ TransGen r a a) (a : α) :
    Acc (fun b a => r a b) a := by
  -- the ends of edges are finitely many, and walks between them make a strict order
  let after (x y : { x // x ∈ l }) : Prop := TransGen r y.1 x.1
  have : Finite { x // x ∈ l } := l.finite_toSet
  have : IsTrans { x // x ∈ l } after := ⟨fun _ _ _ hxy hyz => hyz.trans hxy⟩
  have : Std.Irrefl after := ⟨fun x hx => hr x.1 hx⟩
  have hwf : WellFounded after := Finite.wellFounded_of_trans_of_irrefl after
  have hend : ∀ x : { x // x ∈ l }, Acc (fun b a => r a b) x.1 := by
    intro x
    induction x using hwf.induction with
    | _ x ih => exact ⟨_, fun b hb => ih ⟨b, hl x.1 b hb⟩ (.single hb)⟩
  exact ⟨_, fun b hb => hend ⟨b, hl a b hb⟩⟩

/-- A vertex is accessible exactly if no walk from it comes to a cycle. -/
theorem acc_iff_no_cycle_after (l : List α) (hl : ∀ a b, r a b → b ∈ l) (a : α) :
    Acc (fun b a => r a b) a ↔ ∀ b, ReflTransGen r a b → ¬ TransGen r b b := by
  constructor
  · intro ha b hab
    have hb : Acc (fun b a => r a b) b := by
      induction hab with
      | refl => exact ha
      | tail _ hbc ih => exact ih.inv hbc
    exact not_transGen_self_of_acc hb
  · intro hr
    -- the graph that the walks from `a` are in
    let near (x y : α) : Prop := r x y ∧ ReflTransGen r a x
    have hcycle : ∀ x, ¬ TransGen near x x := by
      intro x hx
      obtain ⟨_, hstep, -⟩ := TransGen.head'_iff.1 hx
      have hle : near ≤ r := fun _ _ h => h.1
      exact hr x hstep.2 (TransGen.mono hle x x hx)
    have hacc : ∀ x, Acc (fun y x => near x y) x → ReflTransGen r a x → Acc (fun y x => r x y) x := by
      intro x hx
      induction hx with
      | intro x _ ih => exact fun hax => ⟨x, fun y hxy => ih y ⟨hxy, hax⟩ (hax.tail hxy)⟩
    exact hacc a (acc_of_no_cycle l (fun x y h => hl x y h.1) hcycle a) .refl

/-- **A cycle is followed in another graph**: if each step to a vertex of a cycle can be made there, the cycle is a walk
there, from where it is entered to a place that stands for the same vertex. -/
theorem walk_of_cycle {β : Type*} {t : β → β → Prop} {S : β → α → Prop}
    (hstep : ∀ i x y, S i x → TransGen r x x → TransGen r y y → r x y → ∃ j, t i j ∧ S j y) {i : β} {x : α}
    (hx : S i x) (hcycle : TransGen r x x) : ∃ j, TransGen t i j ∧ S j x := by
  have hwalk : ∀ y, TransGen r x y → ReflTransGen r y x → ∃ j, TransGen t i j ∧ S j y := by
    intro y hxy
    induction hxy with
    | single hxy =>
      intro hyx
      obtain ⟨j, hij, hj⟩ := hstep i x _ hx hcycle (TransGen.trans_right hyx (.single hxy)) hxy
      exact ⟨j, .single hij, hj⟩
    | tail hxy hyz ih =>
      intro hzx
      obtain ⟨j, hij, hj⟩ := ih (ReflTransGen.head hyz hzx)
      have hy := TransGen.trans_right (ReflTransGen.head hyz hzx) hxy
      have hz := TransGen.trans_right hzx (hxy.tail hyz)
      obtain ⟨k, hjk, hk⟩ := hstep j _ _ hj hy hz hyz
      exact ⟨k, hij.tail hjk, hk⟩
  exact hwalk x hcycle .refl

end Walks

end VulkanLoader.Lib
