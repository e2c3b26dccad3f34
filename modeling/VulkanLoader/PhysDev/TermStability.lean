import VulkanLoader.PhysDev.TermObjects

/-!
# The terminator's objects over any history of enumerations

An application holds terminator objects across enumerations, through its wrappers.  Over any sequence of enumerations,
failed ones included, a device keeps its object as long as it is reported, an object is freed once, when its device is
not reported any more, and a failed enumeration changes nothing.  Drivers report distinct handles in an enumeration,
and no driver reports a handle that another one reported before.
-/

namespace VulkanLoader

open Lib

/-- The instance after an enumeration; `none` once the behaviour is undefined. -/
def termStep (s : Option TermState) (c : TermEnumeration) : Option TermState :=
  s.bind fun s => (setupLoaderTermPhysDevs s c).map (·.2)

/-- An enumeration from `s` with the result `r` treats the objects as applications expect. -/
structure StableObjects (s : TermState) (c : TermEnumeration) (r : VkResult × TermState) : Prop where
  /-- The list has one entry for each reported device, which names its driver. -/
  entries : r.1 = .success → r.2.stored.length = r.2.physDevCountTerm ∧ r.2.stored.Nodup ∧
    ∃ ts : List PhysicalDeviceTerm, ts.Perm c.devices ∧
      List.Forall₂ (fun p t => p ≠ nullHandle ∧ r.2.heap.get p = some t) r.2.stored ts
  /-- A device that was in the list keeps its object. -/
  kept : r.1 = .success → ∀ p ∈ s.stored, ∀ q ∈ r.2.stored, ∀ t u,
    s.heap.get p = some t → r.2.heap.get q = some u → t.physDev = u.physDev → p = q
  /-- What leaves the list is freed once, and nothing in the list is freed. -/
  freed : ∃ l, r.2.heap.freed = s.heap.freed ++ l ∧
    (∀ p ∈ s.stored, l.count p = if p ∈ r.2.stored then 0 else 1) ∧ ∀ p ∈ r.2.stored, p ∉ l
  /-- No other object is left. -/
  noLeak : ∀ p, (r.2.heap.get p).isSome → p ∈ r.2.stored
  /-- A failure leaves the list and its objects. -/
  failed : r.1 ≠ .success → r.2.physDevsTerm = s.physDevsTerm ∧ r.2.physDevCountTerm = s.physDevCountTerm ∧
    ∀ p ∈ s.stored, r.2.heap.get p = s.heap.get p

section Step

variable {s : TermState} {ws ws' : List TermEntry} {c : TermEnumeration} {r : VkResult × TermState}

theorem TermState.Stores.init : TermState.init.Stores [] := ⟨rfl, rfl, .empty⟩

/-- What an outcome stores. -/
theorem TermOutcome.stores {ts : List PhysicalDeviceTerm} (h : TermOutcome s ws ts r ws') (hs : s.Stores ws) :
    r.2.Stores ws' := by
  cases h with
  | failed res s' hres harray hcount hget l hfreed hl =>
    refine ⟨?_, hcount.trans hs.count, hs.holds.congr hget⟩
    show s'.stored = _
    rw [TermState.stored, harray, hcount]
    exact hs.stored
  | replaced new s' hobjects horigin hkept hstores l hfreed hl => exact hstores

theorem TermState.Stores.mem_stored (hs : s.Stores ws) {p : Handle} (hp : p ∈ s.stored) : ∃ w ∈ ws, w.1 = p := by
  rw [hs.stored] at hp
  exact List.mem_map.1 hp

/-- What an outcome frees. -/
theorem TermOutcome.freed {ts : List PhysicalDeviceTerm} (h : TermOutcome s ws ts r ws') (hs : s.Stores ws) :
    ∃ l, r.2.heap.freed = s.heap.freed ++ l ∧
      (∀ p ∈ s.stored, l.count p = if p ∈ r.2.stored then 0 else 1) ∧ ∀ p ∈ r.2.stored, p ∉ l := by
  have hlive : ∀ l : List Handle, (∀ p ∈ l, s.heap.get p = none) → ∀ p ∈ s.stored, p ∉ l := by
    intro l hl p hp hpl
    obtain ⟨w, hw, rfl⟩ := hs.mem_stored hp
    have hget := hs.holds.get w hw
    rw [hl _ hpl] at hget
    cases hget
  have hs' := h.stores hs
  cases h with
  | failed res s' hres harray hcount hget l hfreed hl =>
    have hsame : s'.stored = s.stored := hs'.stored.trans hs.stored.symm
    refine ⟨l, hfreed, fun p hp => ?_, fun p hp => ?_⟩
    · rw [if_pos (show p ∈ s'.stored by rwa [hsame])]
      exact List.count_eq_zero.2 (hlive l hl p hp)
    · exact hlive l hl p (hsame ▸ hp)
  | replaced new s' hobjects horigin hkept hstores l hfreed hl =>
    have hnd : ((ws.filter (· ∉ ws')).map Prod.fst).Nodup := hs.holds.pointers.sublist (List.filter_sublist.map _)
    -- an address is among the dropped ones exactly if it leaves the list
    have hdropped : ∀ w ∈ ws, (w.1 ∈ (ws.filter (· ∉ ws')).map Prod.fst ↔ w.1 ∉ s'.stored) := by
      intro w hw
      rw [hstores.stored]
      constructor
      · intro hd hp
        obtain ⟨v, hv, he⟩ := List.mem_map.1 hd
        obtain ⟨hv, hn⟩ := List.mem_filter.1 hv
        obtain rfl := List.inj_on_of_nodup_map hs.holds.pointers hv hw he
        exact (by simpa using hn : v ∉ ws') (hkept v hw hp)
      · intro hp
        refine List.mem_map.2 ⟨w, List.mem_filter.2 ⟨hw, decide_eq_true fun hn => ?_⟩, rfl⟩
        exact hp (List.mem_map.2 ⟨w, hn, rfl⟩)
    refine ⟨_, hfreed, fun p hp => ?_, fun p hp => ?_⟩
    · have hnl := hlive l (fun q hq => (hl q hq).1) p hp
      obtain ⟨w, hw, rfl⟩ := hs.mem_stored hp
      rw [List.count_append, List.count_eq_zero.2 hnl, Nat.zero_add]
      by_cases hstay : w.1 ∈ s'.stored
      · rw [if_pos hstay]
        exact List.count_eq_zero.2 fun hd => (hdropped w hw).1 hd hstay
      · rw [if_neg hstay]
        exact List.count_eq_one_of_mem hnd ((hdropped w hw).2 hstay)
    · intro hpl
      rcases List.mem_append.1 hpl with hpl | hpl
      · refine (hl p hpl).2 ?_
        rw [← hstores.stored]
        exact hp
      · obtain ⟨w, hw, rfl⟩ := List.mem_map.1 hpl
        exact (hdropped w (List.mem_filter.1 hw).1).1 hpl hp

/-- **An outcome treats the objects as applications expect.** -/
theorem TermOutcome.stable (h : TermOutcome s ws c.devices r ws') (hs : s.Stores ws) : StableObjects s c r := by
  have hs' := h.stores hs
  refine ⟨fun hres => ?_, fun hres => ?_, h.freed hs, fun p hp => ?_, fun hres => ?_⟩
  · refine ⟨?_, ?_, ws'.map Prod.snd, ?_, ?_⟩
    · rw [hs'.stored, hs'.count, List.length_map]
    · rw [hs'.stored]
      exact hs'.holds.pointers
    · cases h with
      | failed res s' hne harray hcount hget l hfreed hl => exact absurd hres hne
      | replaced new s' hobjects horigin hkept hstores l hfreed hl => exact hobjects
    · rw [hs'.stored, List.forall₂_map_left_iff, List.forall₂_map_right_iff, List.forall₂_same]
      intro w hw
      exact ⟨hs'.holds.ne_null hw, hs'.holds.get w hw⟩
  · intro p hp q hq t u ht hu htu
    obtain ⟨w, hw, rfl⟩ := hs.mem_stored hp
    obtain ⟨v, hv, rfl⟩ := hs'.mem_stored hq
    obtain rfl : w.2 = t := Option.some.inj ((hs.holds.get w hw).symm.trans ht)
    obtain rfl : v.2 = u := Option.some.inj ((hs'.holds.get v hv).symm.trans hu)
    have hvw : v ∈ ws := by
      cases h with
      | failed res s' hne harray hcount hget l hfreed hl => exact hv
      | replaced new s' hobjects horigin hkept hstores l hfreed hl =>
        exact horigin v hv (htu ▸ Heap.key_mem hw)
    rw [Heap.eq_of_key_eq hs.holds.nodup hw hvw htu]
  · rw [hs'.stored]
    exact hs'.holds.only p hp
  · cases h with
    | failed res s' hne harray hcount hget l hfreed hl => exact ⟨harray, hcount, fun p _ => hget p⟩
    | replaced new s' hobjects horigin hkept hstores l hfreed hl => exact absurd rfl hres

end Step

/-! ### Any history -/

section Run

variable (owner : Handle → ℕ)

/-- The drivers report distinct handles, each its own. -/
structure ReportsOwn (c : TermEnumeration) : Prop where
  nodup : (c.devices.map (·.physDev)).Nodup
  own : ∀ t ∈ c.devices, t.thisIcdTerm = owner t.physDev

/-- The state is defined, and each object of the list belongs to the driver of its device. -/
def TermDefined (s : Option TermState) : Prop :=
  ∃ t ws, s = some t ∧ t.Stores ws ∧ ∀ w ∈ ws, w.2.thisIcdTerm = owner w.2.physDev

/-- An enumeration is defined and treats the objects as applications expect. -/
def TermStable (s : Option TermState) (c : TermEnumeration) : Prop :=
  ∃ t r, s = some t ∧ setupLoaderTermPhysDevs t c = some r ∧ StableObjects t c r

variable {owner}

theorem sameOwners_of_own {ws : List TermEntry} {c : TermEnumeration}
    (hws : ∀ w ∈ ws, w.2.thisIcdTerm = owner w.2.physDev) (hc : ReportsOwn owner c) : SameOwners ws c.devices := by
  intro w hw t ht hd
  have hicd : w.2.thisIcdTerm = t.thisIcdTerm := by rw [hws w hw, hc.own t ht, hd]
  obtain ⟨p, ⟨icd, d⟩⟩ := w
  obtain ⟨icd', d'⟩ := t
  cases hicd
  cases hd
  rfl

theorem TermOutcome.owned {s : TermState} {ws ws' : List TermEntry} {c : TermEnumeration} {r : VkResult × TermState}
    (h : TermOutcome s ws c.devices r ws') (hws : ∀ w ∈ ws, w.2.thisIcdTerm = owner w.2.physDev)
    (hc : ReportsOwn owner c) : ∀ w ∈ ws', w.2.thisIcdTerm = owner w.2.physDev := by
  cases h with
  | failed res s' hne harray hcount hget l hfreed hl => exact hws
  | replaced new s' hobjects horigin hkept hstores l hfreed hl =>
    intro w hw
    exact hc.own w.2 (hobjects.mem_iff.1 (List.mem_map.2 ⟨w, hw, rfl⟩))

theorem termDefined_step (s : Option TermState) (c : TermEnumeration) (hs : TermDefined owner s)
    (hc : ReportsOwn owner c) : TermDefined owner (termStep s c) := by
  obtain ⟨t, ws, rfl, ht, hws⟩ := hs
  obtain ⟨r, ws', hr, hout⟩ := setupLoaderTermPhysDevs_outcome ht hc.nodup (sameOwners_of_own hws hc)
  refine ⟨r.2, ws', ?_, hout.stores ht, hout.owned hws hc⟩
  rw [termStep, Option.bind_some, hr, Option.map_some]

theorem termStable_step (s : Option TermState) (c : TermEnumeration) (hs : TermDefined owner s)
    (hc : ReportsOwn owner c) : TermStable s c := by
  obtain ⟨t, ws, rfl, ht, hws⟩ := hs
  obtain ⟨r, ws', hr, hout⟩ := setupLoaderTermPhysDevs_outcome ht hc.nodup (sameOwners_of_own hws hc)
  exact ⟨t, r, rfl, hr, hout.stable ht⟩

/-- **The objects of the terminator are stable over any history of enumerations.** -/
theorem termStable_run (owner : Handle → ℕ) (calls : List TermEnumeration)
    (hcalls : ∀ c ∈ calls, ReportsOwn owner c) : AllSteps termStep TermStable (some TermState.init) calls := by
  have hinit : TermDefined owner (some TermState.init) := ⟨_, [], rfl, .init, by simp⟩
  have hall := allSteps_of_forall termStep (s := some TermState.init) hcalls
  exact run_step_invariant termStep termDefined_step termStable_step hinit calls hall

/-- A driver that reports the devices `ds`. -/
def reporting (icdTerm : ℕ) (ds : List Handle) : IcdEnumeration :=
  ⟨icdTerm, (.success, ds.length), fun _ => (.success, ds.length, fun i => ds.getD i nullHandle)⟩

/-- Two drivers; in the second enumeration, which sorts backwards, a device is gone and one is new, and in the third a
request fails. -/
theorem termStable_run_example :
    AllSteps termStep TermStable (some TermState.init)
      [⟨[reporting 0 [10, 20], reporting 1 [11]], none, ⟨true, fun i => some (i + 5), fun _ => ⟨0, 0⟩, true⟩⟩,
        ⟨[reporting 0 [20], reporting 1 [11, 21]], some ⟨List.reverse, List.reverse_perm⟩,
          ⟨true, fun i => some (i + 5), fun _ => ⟨0, 0⟩, true⟩⟩,
        ⟨[reporting 0 [20, 30]], none, ⟨true, fun _ => none, fun _ => ⟨0, 0⟩, true⟩⟩] :=
  termStable_run (· % 10) _ (by
    intro c hc
    simp only [List.mem_cons, List.not_mem_nil, or_false] at hc
    rcases hc with rfl | rfl | rfl
    · exact ⟨by decide, by decide⟩
    · exact ⟨by decide, by decide⟩
    · exact ⟨by decide, by decide⟩)

end Run

end VulkanLoader
