import VulkanLoader.PhysDev.Wrapping

/-!
# The wrappers over any history of calls

`vkEnumeratePhysicalDevices` and `vkEnumeratePhysicalDeviceGroups` wrap what they got from below; in between, other
functions set `total_gpu_count`.  After each call the outputs are stored wrappers of the inputs, the stored wrappers
are distinct and of distinct devices, and a failed call leaves them alone.
-/

namespace VulkanLoader

open Lib

/-- A call, or a write to `total_gpu_count` by another function. -/
inductive TrampCall where
  | setTotalGpuCount (count : ℕ)
  | physDevs (physDevs : List Handle) (req : TrampRequests)
  | physDevGroups (groups : List (List Handle)) (req : TrampRequests)

namespace TrampCall

/-- The handles from below, in their groups. -/
def devices : TrampCall → List (List Handle)
  | setTotalGpuCount _ => []
  | physDevs ds _ => [ds]
  | physDevGroups groups _ => groups

/-- The result, the handles given back, and the instance after the call. -/
def exec (s : TrampState) : TrampCall → Option (VkResult × List (List Handle) × TrampState)
  | setTotalGpuCount count => some (.success, [], { s with totalGpuCount := count })
  | physDevs ds req => (setupLoaderTrampPhysDevs s ds req).map fun r => (r.1, [r.2.1], r.2.2)
  | physDevGroups groups req => setupLoaderTrampPhysDevGroups s groups req

end TrampCall

/-- The instance after a call; `none` once the behaviour is undefined. -/
def trampStep (s : Option TrampState) (c : TrampCall) : Option TrampState :=
  s.bind fun s => (c.exec s).map (·.2.2)

/-- A call from `s` on `devices` with the result `r` wraps soundly. -/
structure WrapsSoundly (s : TrampState) (devices : List (List Handle))
    (r : VkResult × List (List Handle) × TrampState) : Prop where
  /-- Each output is a stored wrapper of the handle at its place. -/
  outputs : r.1 = .success →
    List.Forall₂ (List.Forall₂ fun p d => p ∈ r.2.2.stored ∧ r.2.2.heap.get p = some ⟨d⟩) r.2.1 devices
  outputs_nodup : r.1 = .success → r.2.1.flatten.Nodup
  /-- The entries in use are distinct wrappers of distinct devices. -/
  entries_count : r.2.2.stored.length = r.2.2.physDevCountTramp
  entries_nodup : r.2.2.stored.Nodup
  entries : ∃ ds : List Handle, ds.Nodup ∧
    List.Forall₂ (fun p d => p ≠ nullHandle ∧ r.2.2.heap.get p = some ⟨d⟩) r.2.2.stored ds
  /-- A failed call leaves the array as it was, and frees no wrapper in it. -/
  failed : r.1 ≠ .success → r.2.2.physDevsTramp = s.physDevsTramp ∧ r.2.2.physDevCountTramp = s.physDevCountTramp ∧
    ∃ l, r.2.2.heap.freed = s.heap.freed ++ l ∧ ∀ p ∈ s.stored, p ∉ l ∧ r.2.2.heap.get p = s.heap.get p

section Entries

variable {s s' : TrampState} {ws : List TrampEntry}

theorem TrampState.Stores.entries (hs : s.Stores ws) :
    List.Forall₂ (fun p d => p ≠ nullHandle ∧ s.heap.get p = some ⟨d⟩) s.stored (devicesOf ws) := by
  rw [hs.stored, devicesOf, Heap.keys, List.forall₂_map_left_iff, List.forall₂_map_right_iff, List.forall₂_same]
  intro w hw
  exact ⟨hs.holds.ne_null hw, hs.holds.get w hw⟩

/-- What an outcome stores. -/
theorem TrampOutcome.stores {ds : List Handle} {req : TrampRequests} {r : VkResult × List Handle × TrampState}
    {ws' : List TrampEntry} (h : TrampOutcome s ws ds req r ws') (hs : s.Stores ws) : r.2.2.Stores ws' := by
  cases h with
  | unchanged out hout hkept => exact hs
  | failed out s' hgrants harray hcount hget l hfreed hl =>
    refine ⟨?_, hs.holds.congr hget⟩
    show s'.stored = _
    rw [TrampState.stored, harray, hcount]
    exact hs.stored
  | replaced new s' hne hds horigin hstores l hfreed hl hgrants => exact hstores

theorem TrampState.Stores.init : TrampState.init.Stores [] :=
  ⟨rfl, .empty⟩

end Entries

/-! ### Groups -/

/-- The devices of the groups are replaced place by place. -/
theorem forall₂_regroup {R : Handle → Handle → Prop} {groups : List (List Handle)} {out : List Handle}
    (h : List.Forall₂ R out groups.flatten) : List.Forall₂ (List.Forall₂ R) (regroup groups out) groups := by
  induction groups generalizing out with
  | nil => exact List.Forall₂.nil
  | cons g gs ih =>
    rw [List.flatten_cons] at h
    exact List.Forall₂.cons (List.forall₂_take_append _ _ _ h) (ih (List.forall₂_drop_append _ _ _ h))

/-! ### One call -/

section Call

variable {s : TrampState} {ws : List TrampEntry}

/-- The outputs of a successful call. -/
theorem TrampOutcome.outputs {ds : List Handle} {req : TrampRequests} {r : VkResult × List Handle × TrampState}
    {ws' : List TrampEntry} (h : TrampOutcome s ws ds req r ws') (hres : r.1 = .success) :
    List.Forall₂ (fun p d => (p, ⟨d⟩) ∈ ws') r.2.1 ds := by
  cases h with
  | unchanged out hout hkept => exact hout
  | failed out s' hgrants harray hcount hget l hfreed hl => cases hres
  | replaced new s' hne hds horigin hstores l hfreed hl hgrants =>
    subst hds
    rw [devicesOf, Heap.keys, List.forall₂_map_left_iff, List.forall₂_map_right_iff, List.forall₂_same]
    intro w hw
    exact List.mem_append_left _ hw

/-- A failed call frees none of the stored wrappers. -/
theorem TrampOutcome.failure {ds : List Handle} {req : TrampRequests} {r : VkResult × List Handle × TrampState}
    {ws' : List TrampEntry} (h : TrampOutcome s ws ds req r ws') (hs : s.Stores ws) (hres : r.1 ≠ .success) :
    r.2.2.physDevsTramp = s.physDevsTramp ∧ r.2.2.physDevCountTramp = s.physDevCountTramp ∧
      ∃ l, r.2.2.heap.freed = s.heap.freed ++ l ∧ ∀ p ∈ s.stored, p ∉ l ∧ r.2.2.heap.get p = s.heap.get p := by
  cases h with
  | unchanged out hout hkept => exact absurd rfl hres
  | replaced new s' hne hds horigin hstores l hfreed hl hgrants => exact absurd rfl hres
  | failed out s' hgrants harray hcount hget l hfreed hl =>
    refine ⟨harray, hcount, l, hfreed, fun p hp => ⟨fun hpl => ?_, hget p⟩⟩
    rw [hs.stored] at hp
    obtain ⟨w, hw, rfl⟩ := List.mem_map.1 hp
    have hlive := hs.holds.get w hw
    rw [hl _ hpl] at hlive
    cases hlive

/-- What makes a call sound, in terms of the wrappers with their devices after it. -/
theorem wrapsSoundly_of_stores {s' : TrampState} {ws' : List TrampEntry} {res : VkResult}
    {outs devices : List (List Handle)} (hs' : s'.Stores ws') (hdevices : devices.flatten.Nodup)
    (houts : res = .success → List.Forall₂ (List.Forall₂ fun p d => (p, ⟨d⟩) ∈ ws') outs devices)
    (hfail : res ≠ .success → s'.physDevsTramp = s.physDevsTramp ∧ s'.physDevCountTramp = s.physDevCountTramp ∧
      ∃ l, s'.heap.freed = s.heap.freed ++ l ∧ ∀ p ∈ s.stored, p ∉ l ∧ s'.heap.get p = s.heap.get p) :
    WrapsSoundly s devices (res, outs, s') := by
  have hstored : ∀ p d, (p, ⟨d⟩) ∈ ws' → p ∈ s'.stored ∧ s'.heap.get p = some ⟨d⟩ := by
    intro p d hpd
    rw [hs'.stored]
    exact ⟨List.mem_map.2 ⟨_, hpd, rfl⟩, hs'.holds.get _ hpd⟩
  have hdevice : ∀ p d d', (p, ⟨d⟩) ∈ ws' → (p, ⟨d'⟩) ∈ ws' → d = d' := by
    intro p d d' h h'
    have hget := (hstored p d h).2.symm.trans (hstored p d' h').2
    exact congrArg PhysicalDeviceTramp.physDev (Option.some.inj hget)
  refine ⟨fun hres => (houts hres).imp fun _ _ ho => ho.imp hstored, fun hres => ?_, ?_, ?_, ?_, hfail⟩
  · exact nodup_of_forall₂ (List.rel_flatten (houts hres)) hdevice hdevices
  · rw [hs'.stored, List.length_map]
    exact hs'.count.symm
  · rw [hs'.stored]
    exact hs'.holds.pointers
  · exact ⟨devicesOf ws', hs'.holds.nodup, hs'.entries⟩

/-- **One call.** -/
theorem TrampCall.exec_sound {c : TrampCall} (hs : s.Stores ws) (hc : c.devices.flatten.Nodup) :
    ∃ r ws', c.exec s = some r ∧ r.2.2.Stores ws' ∧ WrapsSoundly s c.devices r := by
  cases c with
  | setTotalGpuCount count =>
    have hs' : { s with totalGpuCount := count }.Stores ws := ⟨hs.stored, hs.holds⟩
    exact ⟨_, ws, rfl, hs', wrapsSoundly_of_stores hs' hc (fun _ => .nil) fun hne => absurd rfl hne⟩
  | physDevs ds req =>
    have hds : ds.Nodup := by simpa [TrampCall.devices] using hc
    obtain ⟨r, ws', hr, hout⟩ := setupLoaderTrampPhysDevs_outcome req hs hds
    refine ⟨(r.1, [r.2.1], r.2.2), ws', by simp [TrampCall.exec, hr], hout.stores hs, ?_⟩
    apply wrapsSoundly_of_stores (hout.stores hs) hc
    · intro hres
      exact .cons (hout.outputs hres) .nil
    · exact hout.failure hs
  | physDevGroups groups req =>
    by_cases hempty : groups = []
    · subst hempty
      exact ⟨(.success, [], s), ws, rfl, hs, wrapsSoundly_of_stores hs hc (fun _ => .nil) fun hne => absurd rfl hne⟩
    obtain ⟨r, ws', hr, hout⟩ := setupLoaderTrampPhysDevs_outcome req hs hc
    have hexec : (physDevGroups groups req).exec s =
        some (if r.1 ≠ .success then (r.1, groups, r.2.2) else (r.1, regroup groups r.2.1, r.2.2)) := by
      show setupLoaderTrampPhysDevGroups s groups req = _
      rw [setupLoaderTrampPhysDevGroups, if_neg hempty]
      show Option.map _ (setupLoaderTrampPhysDevs s (physDevGroups groups req).devices.flatten req) = _
      rw [hr, Option.map_some]
    by_cases hres : r.1 = .success
    · refine ⟨(r.1, regroup groups r.2.1, r.2.2), ws', ?_, hout.stores hs, ?_⟩
      · rw [hexec, if_neg (not_not_intro hres)]
      · exact wrapsSoundly_of_stores (hout.stores hs) hc (fun h => forall₂_regroup (hout.outputs h)) (hout.failure hs)
    · refine ⟨(r.1, groups, r.2.2), ws', ?_, hout.stores hs, ?_⟩
      · rw [hexec, if_pos hres]
      · exact wrapsSoundly_of_stores (hout.stores hs) hc (fun h => absurd h hres) (hout.failure hs)

end Call

/-! ### Any history -/

/-- The state is defined and holds its wrappers. -/
def TrampDefined (s : Option TrampState) : Prop := ∃ t ws, s = some t ∧ t.Stores ws

/-- A call is defined and wraps soundly. -/
def TrampSound (s : Option TrampState) (c : TrampCall) : Prop :=
  ∃ t r, s = some t ∧ c.exec t = some r ∧ WrapsSoundly t c.devices r

theorem trampDefined_step (s : Option TrampState) (c : TrampCall) (hs : TrampDefined s) (hc : c.devices.flatten.Nodup) :
    TrampDefined (trampStep s c) := by
  obtain ⟨t, ws, rfl, ht⟩ := hs
  obtain ⟨r, ws', hr, hs', -⟩ := c.exec_sound ht hc
  refine ⟨r.2.2, ws', ?_, hs'⟩
  rw [trampStep, Option.bind_some, hr, Option.map_some]

theorem trampSound_step (s : Option TrampState) (c : TrampCall) (hs : TrampDefined s) (hc : c.devices.flatten.Nodup) :
    TrampSound s c := by
  obtain ⟨t, ws, rfl, ht⟩ := hs
  obtain ⟨r, ws', hr, -, hsound⟩ := c.exec_sound ht hc
  exact ⟨t, r, rfl, hr, hsound⟩

/-- **Wrapping is sound over any history of calls**: if each call gets distinct handles from below, none runs into
undefined behaviour, and each wraps soundly. -/
theorem trampSound_run (calls : List TrampCall) (hcalls : ∀ c ∈ calls, c.devices.flatten.Nodup) :
    AllSteps trampStep TrampSound (some TrampState.init) calls := by
  have hinit : TrampDefined (some TrampState.init) := ⟨_, [], rfl, .init⟩
  have hall := allSteps_of_forall trampStep (s := some TrampState.init) hcalls
  exact run_step_invariant trampStep trampDefined_step trampSound_step hinit calls hall

/-- A longer list, a shorter one in another order, and one whose request fails. -/
theorem trampSound_run_example :
    AllSteps trampStep TrampSound (some TrampState.init)
      [.physDevs [1, 2, 3] ⟨true, fun i => some (i + 8)⟩, .physDevs [3, 1] ⟨true, fun i => some (i + 8)⟩,
        .physDevGroups [[4], [2, 1]] ⟨true, fun _ => none⟩] :=
  trampSound_run _ (by decide)

end VulkanLoader
