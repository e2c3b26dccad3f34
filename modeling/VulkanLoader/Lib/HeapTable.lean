import VulkanLoader.Lib.Heap
import VulkanLoader.Lib.Lists

/-!
# Tables of heap objects

A table lists the objects of a heap with their addresses; each object has a key, and no two have the same.  A table is
replaced in three steps: new objects are made, old ones are taken over, and what is left over is freed, which is what
was made if a step failed, and what was not taken over if all succeeded.
-/

namespace VulkanLoader.Lib.Heap

section Keys

variable {α κ : Type*} {key : α → κ} {h h' : Heap α} {ws new : List (ℕ × α)}

/-- The keys of a table. -/
def keys (key : α → κ) (ws : List (ℕ × α)) : List κ := ws.map fun w => key w.2

/-- The objects of the heap are those that the table lists, and their keys are distinct. -/
structure Holds (key : α → κ) (h : Heap α) (ws : List (ℕ × α)) : Prop where
  get : ∀ w ∈ ws, h.get w.1 = some w.2
  nodup : (keys key ws).Nodup
  only : ∀ p, (h.get p).isSome → p ∈ ws.map Prod.fst

@[simp] theorem keys_cons (w : ℕ × α) (ws : List (ℕ × α)) : keys key (w :: ws) = key w.2 :: keys key ws := rfl

@[simp] theorem keys_append (ws ws' : List (ℕ × α)) : keys key (ws ++ ws') = keys key ws ++ keys key ws' :=
  List.map_append

theorem key_mem {w : ℕ × α} (hw : w ∈ ws) : key w.2 ∈ keys key ws := List.mem_map.2 ⟨w, hw, rfl⟩

theorem exists_of_key_mem {k : κ} (hk : k ∈ keys key ws) : ∃ w ∈ ws, key w.2 = k := List.mem_map.1 hk

theorem eq_of_key_eq {w w' : ℕ × α} (hws : (keys key ws).Nodup) (hw : w ∈ ws) (hw' : w' ∈ ws)
    (he : key w.2 = key w'.2) : w = w' := List.inj_on_of_nodup_map hws hw hw' he

theorem nodup_keys_perm {ws' : List (ℕ × α)} (hp : ws.Perm ws') (hws : (keys key ws).Nodup) :
    (keys key ws').Nodup := (hp.map _).nodup_iff.1 hws

/-- Objects with distinct keys are at distinct addresses. -/
theorem nodup_fst (hget : ∀ w ∈ ws, h.get w.1 = some w.2) (hws : (keys key ws).Nodup) : (ws.map Prod.fst).Nodup := by
  apply List.Nodup.map_on _ (List.Nodup.of_map _ hws)
  intro w hw w' hw' he
  have h₁ := hget w hw
  rw [he, hget w' hw'] at h₁
  exact eq_of_key_eq hws hw hw' (congrArg key (Option.some.inj h₁).symm)

theorem Holds.pointers (hws : Holds key h ws) : (ws.map Prod.fst).Nodup := nodup_fst hws.get hws.nodup

theorem Holds.ne_null (hws : Holds key h ws) {w : ℕ × α} (hw : w ∈ ws) : w.1 ≠ 0 := ne_null_of_get (hws.get w hw)

/-- A heap with the same objects holds the same table. -/
theorem Holds.congr (hws : Holds key h ws) (hget : ∀ a, h'.get a = h.get a) : Holds key h' ws :=
  ⟨fun w hw => (hget w.1).trans (hws.get w hw), hws.nodup, fun p hp => hws.only p (by rwa [← hget p])⟩

theorem Holds.empty : Holds key (Heap.empty : Heap α) [] := ⟨by simp, List.nodup_nil, by simp⟩

end Keys

/-! ### Looking an object up -/

section EntryOf

variable {α κ : Type*} [DecidableEq κ] {key : α → κ} {ws : List (ℕ × α)} {k : κ} {w : ℕ × α}

/-- The entry of a key. -/
def entryOf (key : α → κ) (ws : List (ℕ × α)) (k : κ) : Option (ℕ × α) := ws.find? fun w => key w.2 = k

theorem entryOf_eq_some_iff (hws : (keys key ws).Nodup) : entryOf key ws k = some w ↔ w ∈ ws ∧ key w.2 = k := by
  unfold entryOf
  constructor
  · intro hw
    exact ⟨List.mem_of_find?_eq_some hw, by simpa using List.find?_some hw⟩
  · rintro ⟨hw, rfl⟩
    have hkey : key w.2 ∈ ws.map fun w => key w.2 := key_mem hw
    obtain ⟨v, hv, hk, hfind⟩ := exists_find?_key hkey
    rw [hfind, eq_of_key_eq hws hv hw hk]

theorem entryOf_eq_none_iff : entryOf key ws k = none ↔ k ∉ keys key ws := by
  unfold entryOf
  rw [List.find?_eq_none]
  constructor
  · intro hn hk
    obtain ⟨w, hw, rfl⟩ := exists_of_key_mem hk
    exact hn w hw (by simp)
  · rintro hk w hw he
    obtain rfl : key w.2 = k := by simpa using he
    exact hk (key_mem hw)

end EntryOf

/-! ### Making and taking over -/

section Extends

variable {α : Type*} {h h' : Heap α} {new : List (ℕ × α)} {w : ℕ × α}

/-- From `h` to `h'` the entries `new` were made or taken over; what else was made is freed again. -/
structure Extends (h : Heap α) (new : List (ℕ × α)) (h' : Heap α) : Prop where
  freed : ∃ l, h'.freed = h.freed ++ l ∧ ∀ p ∈ l, h.get p = none ∧ p ∉ new.map Prod.fst
  get_old : ∀ p v, h.get p = some v → h'.get p = some v
  get_new : ∀ w ∈ new, h'.get w.1 = some w.2
  only : ∀ p, (h'.get p).isSome → (h.get p).isSome ∨ p ∈ new.map Prod.fst

namespace Extends

theorem nil (h : Heap α) : Extends h [] h :=
  ⟨⟨[], (List.append_nil _).symm, by simp⟩, fun _ _ hp => hp, by simp, fun _ hp => Or.inl hp⟩

/-- An entry that is not in use before was free or is made in between. -/
theorem get_none_of_not_mem (hx : Extends h new h') {p : ℕ} (hp : p ∉ new.map Prod.fst) (hn : h.get p = none) :
    h'.get p = none := by
  rcases hg : h'.get p with _ | v
  · rfl
  · have hlive := (hx.only p (by rw [hg]; rfl)).resolve_right hp
    rw [hn] at hlive
    cases hlive

/-- An object that keeps its address was taken over. -/
theorem mem_of_fst_mem (hx : Extends h new h') (hget : h.get w.1 = some w.2) (hp : w.1 ∈ new.map Prod.fst) :
    w ∈ new := by
  obtain ⟨v, hv, he⟩ := List.mem_map.1 hp
  have h₁ := hx.get_new v hv
  rw [he, hx.get_old _ _ hget] at h₁
  rwa [Prod.ext he (Option.some.inj h₁).symm] at hv

/-- An object in use is taken over. -/
theorem reuse (hx : Extends h new h') (hget : h.get w.1 = some w.2) : Extends h (w :: new) h' := by
  refine ⟨?_, hx.get_old, ?_, ?_⟩
  · obtain ⟨l, hl, hfree⟩ := hx.freed
    refine ⟨l, hl, fun p hp => ⟨(hfree p hp).1, fun hn => ?_⟩⟩
    rcases List.mem_cons.1 hn with rfl | hn
    · rw [(hfree _ hp).1] at hget
      cases hget
    · exact (hfree p hp).2 hn
  · intro v hv
    rcases List.mem_cons.1 hv with rfl | hv
    · exact hx.get_old _ _ hget
    · exact hx.get_new v hv
  · intro p hp
    exact (hx.only p hp).imp_right fun hp => List.mem_cons_of_mem _ hp

/-- The order of the entries does not matter. -/
theorem perm {new' : List (ℕ × α)} (hx : Extends h new h') (hp : new.Perm new') : Extends h new' h' := by
  have hfst : ∀ p, p ∈ new'.map Prod.fst ↔ p ∈ new.map Prod.fst := fun p => (hp.map Prod.fst).symm.mem_iff
  refine ⟨?_, hx.get_old, fun w hw => hx.get_new w (hp.mem_iff.2 hw), fun p hp' => ?_⟩
  · obtain ⟨l, hl, hfree⟩ := hx.freed
    exact ⟨l, hl, fun p hpl => ⟨(hfree p hpl).1, fun hn => (hfree p hpl).2 ((hfst p).1 hn)⟩⟩
  · exact (hx.only p hp').imp_right (hfst p).2

/-- Objects in use are taken over. -/
theorem append_old {old : List (ℕ × α)} (hx : Extends h new h') (hget : ∀ w ∈ old, h.get w.1 = some w.2) :
    Extends h (new ++ old) h' := by
  induction old with
  | nil => rwa [List.append_nil]
  | cons v old ih =>
    have hx' := (ih fun w hw => hget w (List.mem_cons_of_mem _ hw)).reuse (hget v List.mem_cons_self)
    exact hx'.perm List.perm_middle.symm

/-- An object is made before the rest. -/
theorem make {wish : ℕ} {v : α} (hx : Extends (h.alloc wish v) new h') : Extends h ((h.place wish, v) :: new) h' := by
  have hold : ∀ p v', h.get p = some v' → (h.alloc wish v).get p = some v' := fun _ _ hp => alloc_get_of_get hp
  refine ⟨?_, fun p v' hp => hx.get_old p v' (hold p v' hp), ?_, ?_⟩
  · obtain ⟨l, hl, hfree⟩ := hx.freed
    refine ⟨l, hl, fun p hp => ?_⟩
    have hne : p ≠ h.place wish := by
      rintro rfl
      have hnone := (hfree _ hp).1
      rw [alloc_get_self] at hnone
      cases hnone
    refine ⟨(alloc_get_of_ne hne).symm.trans (hfree p hp).1, fun hn => ?_⟩
    exact (List.mem_cons.1 hn).elim hne (hfree p hp).2
  · intro w hw
    rcases List.mem_cons.1 hw with rfl | hw
    · exact hx.get_old _ _ (alloc_get_self h wish v)
    · exact hx.get_new w hw
  · intro p hp
    by_cases hne : p = h.place wish
    · exact Or.inr (List.mem_map.2 ⟨_, List.mem_cons_self, hne.symm⟩)
    · rcases hx.only p hp with hp | hp
      · rw [alloc_get_of_ne hne] at hp
        exact Or.inl hp
      · exact Or.inr (List.mem_cons_of_mem _ hp)

/-- The first entry, which was made, is freed again. -/
theorem free_head (hx : Extends h (w :: new) h') (hmade : h.get w.1 = none) (hnew : w.1 ∉ new.map Prod.fst) :
    ∃ h'', h'.free w.1 = some h'' ∧ Extends h new h'' := by
  obtain ⟨h'', hfree, hget, hlog⟩ := free_of_get (hx.get_new w List.mem_cons_self)
  have hget_ne : ∀ p, p ≠ w.1 → h''.get p = h'.get p := fun p hp => by rw [hget]; exact if_neg hp
  refine ⟨h'', hfree, ?_, ?_, ?_, ?_⟩
  · obtain ⟨l, hl, hfreed⟩ := hx.freed
    refine ⟨l ++ [w.1], by rw [hlog, hl, List.append_assoc], fun p hp => ?_⟩
    rcases List.mem_append.1 hp with hp | hp
    · exact ⟨(hfreed p hp).1, fun hn => (hfreed p hp).2 (List.mem_cons_of_mem _ hn)⟩
    · obtain rfl := List.mem_singleton.1 hp
      exact ⟨hmade, hnew⟩
  · intro p v hp
    have hne : p ≠ w.1 := by
      rintro rfl
      rw [hmade] at hp
      cases hp
    exact (hget_ne p hne).trans (hx.get_old p v hp)
  · intro v hv
    have hne : v.1 ≠ w.1 := fun he => hnew (he ▸ List.mem_map.2 ⟨v, hv, rfl⟩)
    exact (hget_ne v.1 hne).trans (hx.get_new v (List.mem_cons_of_mem _ hv))
  · intro p hp
    have hne : p ≠ w.1 := by
      rintro rfl
      rw [hget] at hp
      simp at hp
    rw [hget_ne p hne] at hp
    exact (hx.only p hp).imp_right fun hn => (List.mem_cons.1 hn).resolve_left hne

/-- The made objects are written. -/
theorem putAll {ws : List (ℕ × α)} (hx : Extends h new h') (hws : ws.map Prod.fst = new.map Prod.fst)
    (hnd : (new.map Prod.fst).Nodup) (hmade : ∀ p ∈ new.map Prod.fst, h.get p = none) :
    ∃ h'', h'.putAll ws = some h'' ∧ Extends h ws h'' := by
  have hlive : ∀ p ∈ ws.map Prod.fst, (h'.get p).isSome := by
    intro p hp
    rw [hws] at hp
    obtain ⟨w, hw, rfl⟩ := List.mem_map.1 hp
    rw [hx.get_new w hw]
    rfl
  obtain ⟨h'', hput, hfreed, hget, hframe⟩ := putAll_of_isSome (hws.symm ▸ hnd) hlive
  refine ⟨h'', hput, by rw [hfreed, hws]; exact hx.freed, fun p v hp => ?_, hget, fun p hp => ?_⟩
  · rw [hframe p]
    · exact hx.get_old p v hp
    · intro hn
      rw [hws] at hn
      rw [hmade p hn] at hp
      cases hp
  · rw [hws]
    by_cases hn : p ∈ ws.map Prod.fst
    · rw [hws] at hn
      exact Or.inr hn
    · rw [hframe p hn] at hp
      exact hx.only p hp

end Extends

/-! ### The two ways out -/

variable {κ : Type*} {key : α → κ} {ws : List (ℕ × α)}

/-- A failure: the new entries that the table does not list are freed, and the heap is as it was. -/
theorem Extends.freeAll_failed (hx : Extends h new h') (hws : Holds key h ws) (hnd : (new.map Prod.fst).Nodup)
    (nulls : ℕ) :
    ∃ h'' l, h'.freeAll ((new.map Prod.fst ++ List.replicate nulls 0).filter (· ∉ ws.map Prod.fst)) = some h'' ∧
      (∀ a, h''.get a = h.get a) ∧ h''.freed = h.freed ++ l ∧ ∀ p ∈ l, h.get p = none := by
  have hmem : ∀ p, p ∈ (new.map Prod.fst ++ List.replicate nulls 0).filter (· ∉ ws.map Prod.fst) → p ≠ 0 →
      p ∈ new.map Prod.fst ∧ h.get p = none := by
    intro p hp h0
    obtain ⟨hp, hold⟩ := List.mem_filter.1 hp
    refine ⟨(List.mem_append.1 hp).resolve_right fun hr => h0 (List.eq_of_mem_replicate hr), ?_⟩
    rcases hg : h.get p with _ | v
    · rfl
    · exact absurd (hws.only p (by rw [hg]; rfl)) (by simpa using hold)
  have hndf : (((new.map Prod.fst ++ List.replicate nulls 0).filter (· ∉ ws.map Prod.fst)).filter (· ≠ 0)).Nodup := by
    rw [List.filter_append, List.filter_append, List.nodup_append]
    refine ⟨(hnd.filter _).filter _, ?_, ?_⟩
    · rw [List.filter_filter, List.filter_eq_nil_iff.2]
      · exact List.nodup_nil
      · intro p hp
        simp [List.eq_of_mem_replicate hp]
    · intro p _ q hq
      obtain ⟨hq, hq0⟩ := List.mem_filter.1 hq
      exact absurd (List.eq_of_mem_replicate (List.mem_filter.1 hq).1) (by simpa using hq0)
  obtain ⟨h'', hfree, hget, hlog⟩ := freeAll_of_get (h := h') hndf (by
    intro p hp h0
    obtain ⟨w, hwn, rfl⟩ := List.mem_map.1 (hmem p hp h0).1
    rw [hx.get_new w hwn]
    rfl)
  obtain ⟨l, hl, hfreed⟩ := hx.freed
  refine ⟨h'', _, hfree, fun a => ?_, by rw [hlog, hl, List.append_assoc], fun p hp => ?_⟩
  · rw [hget]
    split_ifs with ha
    · by_cases h0 : a = 0
      · rw [h0, h.get_null]
      · exact (hmem a ha h0).2.symm
    · rcases hg : h.get a with _ | v
      · -- what was made is among the freed
        apply hx.get_none_of_not_mem _ hg
        intro hn
        refine ha (List.mem_filter.2 ⟨List.mem_append_left _ hn, decide_eq_true fun hold => ?_⟩)
        obtain ⟨w, hw, rfl⟩ := List.mem_map.1 hold
        rw [hws.get w hw] at hg
        cases hg
      · exact hx.get_old a v hg
  · rcases List.mem_append.1 hp with hp | hp
    · exact (hfreed p hp).1
    · obtain ⟨hp, h0⟩ := List.mem_filter.1 hp
      exact (hmem p hp (by simpa using h0)).2

/-- A success: the entries that were not taken over are freed, and the table is replaced. -/
theorem Extends.freeAll_replaced [DecidableEq α] (hx : Extends h new h') (hws : Holds key h ws)
    (hnew : (keys key new).Nodup) (nulls : ℕ) :
    ∃ h'' l, h'.freeAll ((ws.map Prod.fst).filter (· ∉ new.map Prod.fst ++ List.replicate nulls 0)) = some h'' ∧
      Holds key h'' new ∧ h''.freed = h.freed ++ (l ++ (ws.filter (· ∉ new)).map Prod.fst) ∧
      ∀ p ∈ l, h.get p = none ∧ p ∉ new.map Prod.fst := by
  -- an entry survives as an address exactly if it survives as an object
  have hsurvive : ∀ w ∈ ws, (w.1 ∈ new.map Prod.fst ++ List.replicate nulls 0 ↔ w ∈ new) := by
    intro w hw
    constructor
    · intro hp
      rcases List.mem_append.1 hp with hp | hp
      · exact hx.mem_of_fst_mem (hws.get w hw) hp
      · exact absurd (List.eq_of_mem_replicate hp) (hws.ne_null hw)
    · intro hn
      exact List.mem_append_left _ (List.mem_map.2 ⟨w, hn, rfl⟩)
  have hfilter : (ws.map Prod.fst).filter (· ∉ new.map Prod.fst ++ List.replicate nulls 0) =
      (ws.filter (· ∉ new)).map Prod.fst := by
    rw [List.filter_map]
    congr 1
    apply List.filter_congr
    intro w hw
    exact decide_eq_decide.2 (not_congr (hsurvive w hw))
  have hdropped : ∀ p ∈ (ws.filter (· ∉ new)).map Prod.fst, ∃ w ∈ ws, w ∉ new ∧ w.1 = p := by
    intro p hp
    obtain ⟨w, hw, rfl⟩ := List.mem_map.1 hp
    obtain ⟨hw, hn⟩ := List.mem_filter.1 hw
    exact ⟨w, hw, by simpa using hn, rfl⟩
  have hnonnull : ((ws.filter (· ∉ new)).map Prod.fst).filter (· ≠ 0) = (ws.filter (· ∉ new)).map Prod.fst := by
    apply List.filter_eq_self.2
    intro p hp
    obtain ⟨w, hw, -, rfl⟩ := hdropped p hp
    exact decide_eq_true (hws.ne_null hw)
  have hnd : (((ws.filter (· ∉ new)).map Prod.fst).filter (· ≠ 0)).Nodup := by
    rw [hnonnull]
    exact hws.pointers.sublist (List.filter_sublist.map _)
  obtain ⟨h'', hfree, hget, hlog⟩ := freeAll_of_get (h := h') hnd (by
    intro p hp _
    obtain ⟨w, hw, -, rfl⟩ := hdropped p hp
    rw [hx.get_old _ _ (hws.get w hw)]
    rfl)
  obtain ⟨l, hl, hfreed⟩ := hx.freed
  rw [hfilter]
  refine ⟨h'', l, hfree, ⟨fun w hw => ?_, hnew, fun p hp => ?_⟩, ?_, hfreed⟩
  · rw [hget, if_neg]
    · exact hx.get_new w hw
    · intro hd
      obtain ⟨v, hv, hvn, he⟩ := hdropped _ hd
      refine hvn ((hsurvive v hv).1 (List.mem_append_left _ ?_))
      rw [he]
      exact List.mem_map.2 ⟨w, hw, rfl⟩
  · rw [hget] at hp
    split_ifs at hp with hd
    · cases hp
    · refine (hx.only p hp).elim (fun hold => ?_) id
      obtain ⟨w, hw, rfl⟩ := List.mem_map.1 (hws.only p hold)
      by_contra hn
      refine hd (List.mem_map.2 ⟨w, List.mem_filter.2 ⟨hw, decide_eq_true fun hwn => ?_⟩, rfl⟩)
      exact hn (List.mem_map.2 ⟨w, hwn, rfl⟩)
  · rw [hlog, hl, hnonnull, List.append_assoc]

end Extends

end VulkanLoader.Lib.Heap
