import Mathlib.Data.List.Nodup
import Mathlib.Data.List.Pairwise
import Mathlib.Data.List.Perm.Basic
import VulkanLoader.Lib.Walks

/-!
# Trees in a graph

A graph is given by the list of children of each vertex, in which a child may stand more than once.  What is below a
vertex `r` is a tree if there is no cycle and no vertex is a child twice, be it of two vertices or of one.

A search that goes through all children of all vertices it visits, and visits no vertex twice, has a tree before it
(`onceBelow_of_perm`, `acyclicBelow_of_perm`).  In a tree, what is below two children of a vertex has nothing in common
(`OnceBelow.disjoint`).
-/

namespace VulkanLoader.Lib

open Relation

section Trees

variable {α : Type*} {children : α → List α} {r a : α} {visited : List α}

/-- `b` is a child of `a`. -/
def Child (children : α → List α) (a b : α) : Prop := b ∈ children a

/-- There is no cycle below the vertex. -/
def AcyclicBelow (children : α → List α) (r : α) : Prop :=
  ∀ a, ReflTransGen (Child children) r a → ¬ TransGen (Child children) a a

/-- Below the vertex, every vertex is a child at one place only. -/
def OnceBelow (children : α → List α) (r : α) : Prop :=
  ∀ a b, ReflTransGen (Child children) r a → ReflTransGen (Child children) r b → ∀ (i j : ℕ) (c : α),
    (children a)[i]? = some c → (children b)[j]? = some c → a = b ∧ i = j

theorem AcyclicBelow.below (h : AcyclicBelow children r) (ha : ReflTransGen (Child children) r a) :
    AcyclicBelow children a := fun b hb => h b (ha.trans hb)

theorem OnceBelow.below (h : OnceBelow children r) (ha : ReflTransGen (Child children) r a) : OnceBelow children a :=
  fun b c hb hc => h b c (ha.trans hb) (ha.trans hc)

theorem child_of_getElem? {i : ℕ} {c : α} (h : (children a)[i]? = some c) : Child children a c := List.mem_of_getElem? h

/-- A cycle below a vertex is a cycle below a child. -/
theorem acyclicBelow_of_children (h : ∀ c, Child children r c → AcyclicBelow children c) : AcyclicBelow children r := by
  intro a ha hcycle
  rcases ReflTransGen.cases_head ha with rfl | ⟨c, hrc, hca⟩
  · obtain ⟨c, hrc, hcr⟩ := TransGen.head'_iff.1 hcycle
    exact h c hrc _ hcr hcycle
  · exact h c hrc a hca hcycle

/-- Where a rank grows along the edges there is no cycle. -/
theorem acyclicBelow_of_rank (rank : α → ℕ) (h : ∀ a b, Child children a b → rank a < rank b) :
    AcyclicBelow children r := by
  intro a _ hcycle
  have hlt : ∀ b, TransGen (Child children) a b → rank a < rank b := by
    intro b hab
    induction hab with
    | single hab => exact h _ _ hab
    | tail _ hbc ih => exact Nat.lt_trans ih (h _ _ hbc)
  exact Nat.lt_irrefl _ (hlt a hcycle)

/-- A vertex has one parent below `r`. -/
theorem OnceBelow.parent_eq (h : OnceBelow children r) {b c : α} (ha : ReflTransGen (Child children) r a)
    (hb : ReflTransGen (Child children) r b) (hac : Child children a c) (hbc : Child children b c) : a = b := by
  obtain ⟨i, hi⟩ := List.mem_iff_getElem?.1 hac
  obtain ⟨j, hj⟩ := List.mem_iff_getElem?.1 hbc
  exact (h a b ha hb i j c hi hj).1

/-- **Two children have nothing in common below them.** -/
theorem OnceBelow.disjoint (hacyclic : AcyclicBelow children r) (honce : OnceBelow children r) {i j : ℕ} {c d x : α}
    (hi : (children r)[i]? = some c) (hj : (children r)[j]? = some d) (hij : i ≠ j)
    (hc : ReflTransGen (Child children) c x) (hd : ReflTransGen (Child children) d x) : False := by
  have hrc := child_of_getElem? hi
  have hrd := child_of_getElem? hj
  induction hc with
  | refl =>
    rcases ReflTransGen.cases_tail hd with rfl | ⟨e, hde, hec⟩
    · exact hij (honce r r .refl .refl i j _ hi hj).2
    · obtain rfl := honce.parent_eq .refl (.head hrd hde) hrc hec
      exact hacyclic _ .refl (TransGen.head' hrd hde)
  | @tail y x hcy hyx ih =>
    rcases ReflTransGen.cases_tail hd with rfl | ⟨e, hde, hex⟩
    · obtain rfl := honce.parent_eq .refl (.head hrc hcy) hrd hyx
      exact hacyclic _ .refl (TransGen.head' hrc hcy)
    · obtain rfl := honce.parent_eq (.head hrc hcy) (.head hrd hde) hyx hex
      exact ih hde

/-- The children of a vertex, one after the other. -/
theorem OnceBelow.pairwise_children (hacyclic : AcyclicBelow children r) (honce : OnceBelow children r) :
    (children r).Pairwise fun c d => ∀ x, ReflTransGen (Child children) c x → ¬ ReflTransGen (Child children) d x := by
  rw [List.pairwise_iff_getElem]
  intro i j hi hj hij x hc hd
  exact honce.disjoint hacyclic (List.getElem?_eq_getElem hi) (List.getElem?_eq_getElem hj) (Nat.ne_of_lt hij) hc hd

/-- Without a cycle below a vertex, and with finitely many children, every walk from the vertex ends. -/
theorem AcyclicBelow.acc {l : List α} (hl : ∀ a b, Child children a b → b ∈ l) (h : AcyclicBelow children r) :
    Acc (fun b a => Child children a b) r := by
  let edge (a b : α) : Prop := Child children a b ∧ ReflTransGen (Child children) r a
  have hedge : ∀ a, ¬ TransGen edge a a := by
    intro a hcycle
    obtain ⟨b, hab, -⟩ := TransGen.head'_iff.1 hcycle
    exact h a hab.2 (TransGen.mono (fun _ _ he => he.1) a a hcycle)
  have hacc : ∀ a, Acc (fun b a => edge a b) a := acc_of_no_cycle l (fun a b hab => hl a b hab.1) hedge
  have hbelow : ∀ a, Acc (fun b a => edge a b) a → ReflTransGen (Child children) r a →
      Acc (fun b a => Child children a b) a := by
    intro a ha
    induction ha with
    | intro a _ ih =>
      intro hra
      exact ⟨_, fun b hab => ih b ⟨hab, hra⟩ (hra.tail hab)⟩
  exact hbelow r (hacc r) .refl

/-- **The last one**: a property that some vertex below has is one that some vertex has and none strictly below it. -/
theorem exists_minimal {P : α → Prop} (hacc : Acc (fun b a => Child children a b) a) (ha : P a) :
    ∃ b, ReflTransGen (Child children) a b ∧ P b ∧ ∀ c, TransGen (Child children) b c → ¬ P c := by
  replace hacc := hacc.transGen
  induction hacc with
  | intro a _ ih =>
    by_cases hmin : ∃ c, TransGen (Child children) a c ∧ P c
    · obtain ⟨c, hac, hc⟩ := hmin
      obtain ⟨b, hcb, hb, hbmin⟩ := ih c (transGen_swap.2 hac) hc
      exact ⟨b, hac.to_reflTransGen.trans hcb, hb, hbmin⟩
    · exact ⟨a, .refl, ha, fun c hac hc => hmin ⟨c, hac, hc⟩⟩

/-! ### Two graphs -/

section Congr

variable {children' : α → List α}

/-- Graphs that agree below a vertex have the same vertices below it. -/
theorem below_congr (h : ∀ a, ReflTransGen (Child children) r a → children a = children' a) :
    ReflTransGen (Child children) r a ↔ ReflTransGen (Child children') r a := by
  constructor
  · intro ha
    induction ha with
    | refl => exact .refl
    | @tail b c hb hbc ih =>
      refine ih.tail ?_
      unfold Child
      rw [← h b hb]
      exact hbc
  · intro ha
    induction ha with
    | refl => exact .refl
    | @tail b c _ hbc ih =>
      refine ih.tail ?_
      unfold Child
      rw [h b ih]
      exact hbc

theorem acyclicBelow_congr (h : ∀ a, ReflTransGen (Child children) r a → children a = children' a) :
    AcyclicBelow children r ↔ AcyclicBelow children' r := by
  have hcycle : ∀ a, ReflTransGen (Child children) r a → (TransGen (Child children) a a ↔ TransGen (Child children') a a) := by
    intro a ha
    rw [TransGen.tail'_iff, TransGen.tail'_iff]
    refine exists_congr fun b => ?_
    rw [← below_congr fun c hc => h c (ha.trans hc)]
    refine and_congr_right fun hab => ?_
    unfold Child
    rw [h b (ha.trans hab)]
  unfold AcyclicBelow
  constructor
  · intro hac a ha
    rw [← hcycle a ((below_congr h).2 ha)]
    exact hac a ((below_congr h).2 ha)
  · intro hac a ha
    rw [hcycle a ha]
    exact hac a ((below_congr h).1 ha)

theorem onceBelow_congr (h : ∀ a, ReflTransGen (Child children) r a → children a = children' a) :
    OnceBelow children r ↔ OnceBelow children' r := by
  unfold OnceBelow
  constructor
  · intro honce a b ha hb
    have ha' := (below_congr h).2 ha
    have hb' := (below_congr h).2 hb
    rw [← h a ha', ← h b hb']
    exact honce a b ha' hb'
  · intro honce a b ha hb
    rw [h a ha, h b hb]
    exact honce a b ((below_congr h).1 ha) ((below_congr h).1 hb)

end Congr

/-! ### What a search has visited -/

theorem mem_of_perm (h : (r :: visited.flatMap children).Perm visited) (ha : ReflTransGen (Child children) r a) :
    a ∈ visited := by
  induction ha with
  | refl => exact h.subset List.mem_cons_self
  | tail _ hbc ih => exact h.subset (List.mem_cons_of_mem _ (List.mem_flatMap.2 ⟨_, ih, hbc⟩))

/-- A search that visits each child of what it visits, and nothing twice, has found every child at one place. -/
theorem onceBelow_of_perm (h : (r :: visited.flatMap children).Perm visited) (hnd : visited.Nodup) :
    OnceBelow children r := by
  intro a b ha hb i j c hi hj
  have hflat : (visited.flatMap children).Nodup := (List.nodup_cons.1 (h.nodup_iff.2 hnd)).2
  obtain ⟨hsame, hapart⟩ := List.nodup_flatMap.1 hflat
  have hav := mem_of_perm h ha
  by_cases hab : a = b
  · subst hab
    exact ⟨rfl, (List.getElem?_inj (List.getElem?_eq_some_iff.1 hi).1 (hsame a hav)).1 (hi.trans hj.symm)⟩
  · have : Std.Symm (Function.onFun List.Disjoint children) := ⟨fun _ _ hd _ hb ha => hd ha hb⟩
    have hdisjoint := hapart.forall hav (mem_of_perm h hb) hab
    exact absurd (child_of_getElem? hj) (hdisjoint (child_of_getElem? hi))

/-- And it has not come back to where it started. -/
theorem acyclicBelow_of_perm (h : (r :: visited.flatMap children).Perm visited) (hnd : visited.Nodup) :
    AcyclicBelow children r := by
  have honce := onceBelow_of_perm h hnd
  intro a ha
  induction ha with
  | refl =>
    intro hcycle
    obtain ⟨b, hrb, hbr⟩ := TransGen.tail'_iff.1 hcycle
    have hroot := (List.nodup_cons.1 (h.nodup_iff.2 hnd)).1
    exact hroot (List.mem_flatMap.2 ⟨b, mem_of_perm h hrb, hbr⟩)
  | @tail b c hrb hbc ih =>
    intro hcycle
    -- the cycle comes to `c` from its parent
    obtain ⟨d, hcd, hdc⟩ := TransGen.tail'_iff.1 hcycle
    obtain rfl := honce.parent_eq (hrb.tail hbc |>.trans hcd) hrb hdc hbc
    exact ih (TransGen.head' hbc hcd)

end Trees

end VulkanLoader.Lib
