import VulkanLoader.Lib.Heap
import Mathlib.Data.List.Perm.Subperm

/-!
# Linked structures in a heap

Structures that hold the address of the next one, which `next` reads.  A segment lists what is passed on the way from
one address to another, and a chain is a segment that ends at the null pointer.  A heap has one chain from an address,
in which no address comes twice.
-/

namespace VulkanLoader.Lib.Heap

section Seg

variable {α : Type*} {next : α → ℕ} {h h' : Heap α} {p q : ℕ} {ws vs : List (ℕ × α)} {w v : ℕ × α}

/-- From `p` the structures `ws` lead to `q`. -/
def Seg (next : α → ℕ) (h : Heap α) : ℕ → List (ℕ × α) → ℕ → Prop
  | p, [], q => p = q
  | p, w :: ws, q => p = w.1 ∧ h.get p = some w.2 ∧ Seg next h (next w.2) ws q

/-- From `p` the structures `ws` lead to the null pointer. -/
def Chain (next : α → ℕ) (h : Heap α) (p : ℕ) (ws : List (ℕ × α)) : Prop := Seg next h p ws 0

@[simp] theorem seg_nil : Seg next h p [] q ↔ p = q := Iff.rfl

@[simp] theorem seg_cons : Seg next h p (w :: ws) q ↔ p = w.1 ∧ h.get p = some w.2 ∧ Seg next h (next w.2) ws q :=
  Iff.rfl

@[simp] theorem chain_nil : Chain next h p [] ↔ p = 0 := Iff.rfl

theorem seg_append : Seg next h p (ws ++ vs) q ↔ ∃ r, Seg next h p ws r ∧ Seg next h r vs q := by
  induction ws generalizing p with
  | nil => simp
  | cons w ws ih =>
    rw [List.cons_append, seg_cons, ih]
    constructor
    · rintro ⟨hp, hw, r, hws, hvs⟩
      exact ⟨r, ⟨hp, hw, hws⟩, hvs⟩
    · rintro ⟨r, ⟨hp, hw, hws⟩, hvs⟩
      exact ⟨hp, hw, r, hws, hvs⟩

theorem Seg.get (hs : Seg next h p ws q) (hw : w ∈ ws) : h.get w.1 = some w.2 := by
  induction ws generalizing p with
  | nil => cases hw
  | cons v ws ih =>
    obtain ⟨rfl, hv, hs⟩ := hs
    rcases List.mem_cons.1 hw with rfl | hw
    · exact hv
    · exact ih hs hw

/-- A segment depends on the structures that it passes only. -/
theorem Seg.congr (hs : Seg next h p ws q) (hget : ∀ w ∈ ws, h'.get w.1 = h.get w.1) : Seg next h' p ws q := by
  induction ws generalizing p with
  | nil => exact hs
  | cons w ws ih =>
    obtain ⟨rfl, hw, hs⟩ := hs
    exact ⟨rfl, (hget w List.mem_cons_self).trans hw, ih hs fun v hv => hget v (List.mem_cons_of_mem _ hv)⟩

/-- A change at one address does not touch a segment that does not pass it. -/
theorem Seg.frame {a : ℕ} {x : Option α} (hs : Seg next h p ws q) (ha : a ∉ ws.map Prod.fst)
    (hget : h'.get = fun b => if b = a then x else h.get b) : Seg next h' p ws q := by
  refine hs.congr fun w hw => ?_
  rw [hget]
  refine if_neg fun he => ha ?_
  rw [← he]
  exact List.mem_map_of_mem hw

theorem Seg.head_eq (hs : Seg next h p (w :: ws) q) : p = w.1 := hs.1

theorem Seg.start_mem (hs : Seg next h p ws q) (hne : ws ≠ []) : p ∈ ws.map Prod.fst := by
  cases ws with
  | nil => exact absurd rfl hne
  | cons w ws => exact List.mem_cons.2 (Or.inl hs.head_eq)

theorem Seg.start_ne_null (hs : Seg next h p ws q) (hne : ws ≠ []) : p ≠ 0 := by
  cases ws with
  | nil => exact absurd rfl hne
  | cons w ws => exact ne_null_of_get hs.2.1

/-- What is made in the heap does not touch a segment. -/
theorem Seg.alloc (hs : Seg next h p ws q) (wish : ℕ) (a : α) : Seg next (h.alloc wish a) p ws q :=
  hs.congr fun w hw => by rw [hs.get hw, alloc_get_of_get (hs.get hw)]

/-- **Splicing.**  A structure of a chain is rewritten to lead to another chain: what came after it is cut off, and what
came before it leads to the other chain. -/
theorem Chain.splice {us rest rest' : List (ℕ × α)} {a : α} (hs : Chain next h p (us ++ v :: rest))
    (hrest : Chain next h (next a) rest') (hus : v.1 ∉ us.map Prod.fst) (hv : v.1 ∉ rest'.map Prod.fst)
    (hget : h'.get = fun b => if b = v.1 then some a else h.get b) :
    Chain next h' p (us ++ (v.1, a) :: rest') := by
  obtain ⟨r, hsus, rfl, -, -⟩ := seg_append.1 hs
  refine seg_append.2 ⟨v.1, hsus.frame hus hget, rfl, ?_, Seg.frame hrest hv hget⟩
  rw [hget]
  exact if_pos rfl

/-- **There is one chain** from an address. -/
theorem Chain.unique (hs : Chain next h p ws) (hs' : Chain next h p vs) : ws = vs := by
  induction ws generalizing p vs with
  | nil =>
    cases vs with
    | nil => rfl
    | cons v vs =>
      obtain rfl : p = 0 := hs
      obtain ⟨-, hv, -⟩ := hs'
      rw [h.get_null] at hv
      cases hv
  | cons w ws ih =>
    obtain ⟨hp, hw, hs⟩ := hs
    cases vs with
    | nil =>
      obtain rfl : p = 0 := hs'
      rw [h.get_null] at hw
      cases hw
    | cons v vs =>
      obtain ⟨hp', hv, hs'⟩ := hs'
      obtain rfl : w = v := Prod.ext (hp.symm.trans hp') (Option.some.inj (hw.symm.trans hv))
      rw [ih hs hs']

/-- **No address comes twice in a chain.** -/
theorem Chain.nodup (hs : Chain next h p ws) : (ws.map Prod.fst).Nodup := by
  induction ws generalizing p with
  | nil => exact List.nodup_nil
  | cons w ws ih =>
    have htail : Chain next h (next w.2) ws := hs.2.2
    refine List.nodup_cons.2 ⟨fun hmem => ?_, ih htail⟩
    -- the chain from the second place of the address would be the whole chain
    obtain ⟨v, hv, hvw⟩ := List.mem_map.1 hmem
    obtain ⟨pre, post, hsplit⟩ := List.append_of_mem hv
    rw [hsplit] at htail
    obtain ⟨r, -, hrest⟩ := seg_append.1 htail
    obtain rfl : r = p := hrest.head_eq.trans (hvw.trans hs.head_eq.symm)
    have hsame : w :: ws = v :: post := Chain.unique hs hrest
    have hlen := congrArg List.length hsame
    rw [hsplit] at hlen
    simp only [List.length_cons, List.length_append] at hlen
    omega

/-- Nothing in a chain leads back to its start. -/
theorem Chain.next_ne (hs : Chain next h p ws) (hw : w ∈ ws) : next w.2 ≠ p := by
  intro hback
  obtain ⟨pre, post, rfl⟩ := List.append_of_mem hw
  obtain ⟨r, -, -, -, hpost⟩ := seg_append.1 hs
  -- the chain behind `w` would be the whole chain
  have hlen := congrArg List.length (Chain.unique (hback ▸ hpost : Chain next h p post) hs)
  simp only [List.length_append, List.length_cons] at hlen
  omega

/-- The addresses of a chain are below the bound of the heap, so they are less than it. -/
theorem Chain.length_lt (hs : Chain next h p ws) : ws.length < h.bound := by
  have hsub : 0 :: ws.map Prod.fst ⊆ List.range h.bound := by
    intro a ha
    rw [List.mem_range]
    rcases List.mem_cons.1 ha with rfl | ha
    · exact h.bound_pos
    · obtain ⟨w, hw, rfl⟩ := List.mem_map.1 ha
      by_contra hle
      have hget := hs.get hw
      rw [h.get_bound w.1 (by omega)] at hget
      cases hget
  have hnd : (0 :: ws.map Prod.fst).Nodup := by
    refine List.nodup_cons.2 ⟨fun h0 => ?_, hs.nodup⟩
    obtain ⟨w, hw, hw0⟩ := List.mem_map.1 h0
    exact ne_null_of_get (hs.get hw) hw0
  have hle := (hnd.subperm hsub).length_le
  rw [List.length_cons, List.length_map, List.length_range] at hle
  omega

/-- Chains that list the same start at the same address. -/
theorem Seg.start_unique {p' : ℕ} (hs : Seg next h p ws q) (hs' : Seg next h' p' ws q) : p = p' := by
  cases ws with
  | nil => exact hs.trans hs'.symm
  | cons w ws => exact hs.head_eq.trans hs'.head_eq.symm

/-- A chain starts at none of the objects that are not in it. -/
theorem Chain.start_not_mem {made : List ℕ} (hs : Chain next h p ws) (ha : h.Accounts made (vs ++ ws)) :
    p ∉ vs.map Prod.fst := by
  intro hmem
  obtain ⟨v, hv, rfl⟩ := List.mem_map.1 hmem
  cases ws with
  | nil => exact ne_null_of_get (ha.get v (List.mem_append_left _ hv)) hs
  | cons w ws =>
    have hnd := ha.distinct
    rw [List.map_append, List.nodup_append'] at hnd
    exact hnd.2.2 (List.mem_map_of_mem hv) (by simp [hs.head_eq])

/-- **A structure of a chain is rewritten** to lead to another chain, of objects elsewhere. -/
theorem Chain.relink {made : List ℕ} {us rest rest' others : List (ℕ × α)} {a : α}
    (hs : Chain next h p (us ++ v :: rest)) (ha : h.Accounts made (v :: others))
    (hrest : Chain next h (next a) rest') (hus : v.1 ∉ us.map Prod.fst) (hv : v.1 ∉ rest'.map Prod.fst) :
    ∃ h', h.put v.1 a = some h' ∧ h'.get = (fun b => if b = v.1 then some a else h.get b) ∧
      h'.Accounts made ((v.1, a) :: others) ∧ Chain next h' p (us ++ (v.1, a) :: rest') := by
  obtain ⟨h', hput, hget, ha'⟩ := ha.put a
  exact ⟨h', hput, hget, ha', hs.splice hrest hus hv hget⟩

/-- The address of the last structure, or of the one before the first. -/
def lastAddr (prev : ℕ) : List (ℕ × α) → ℕ
  | [] => prev
  | w :: ws => lastAddr w.1 ws

theorem lastAddr_append (prev : ℕ) (ws : List (ℕ × α)) (w : ℕ × α) : lastAddr prev (ws ++ [w]) = w.1 := by
  induction ws generalizing prev with
  | nil => rfl
  | cons v ws ih => exact ih v.1

end Seg

end VulkanLoader.Lib.Heap
