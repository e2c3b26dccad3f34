import VulkanLoader.PhysDev.Enumerate
import VulkanLoader.PhysDev.WrappingSafety

/-!
# How long a wrapper lives

An application may use a physical device that one call returned after later calls.  `handed` lists the wrappers that
calls returned, with their devices, for as long as the device is enumerated.  `vkEnumeratePhysicalDevices` keeps these
wrappers exactly as long as there is room for them: the full path keeps as many unreported wrappers as the call leaves
out devices, the first in the array, whether their devices still exist or not.
-/

namespace VulkanLoader

open Lib

/-- The instance, and what the application may still use. -/
structure LifetimeState where
  tramp : TrampState
  handed : List TrampEntry

namespace LifetimeState

/-- No call was made. -/
def init : LifetimeState := ⟨.init, []⟩

end LifetimeState

/-- The wrappers that the application may use after a call. -/
def handedAfter (handed : List TrampEntry) (c : EnumerateCall) (res : VkResult) (out : List Handle) :
    List TrampEntry :=
  (handed ++ if c.wraps ∧ (res = .success ∨ res = .incomplete) then
      out.zip (c.answer.2.2.map PhysicalDeviceTramp.mk) else []).filter (·.2.physDev ∈ c.down.enumerable)

/-- A call; `none` once the behaviour is undefined. -/
def lifetimeStep (s : Option LifetimeState) (c : EnumerateCall) : Option LifetimeState :=
  s.bind fun s => (vkEnumeratePhysicalDevices s.tramp c).map fun r => ⟨r.2.2.2, handedAfter s.handed c r.1 r.2.2.1⟩

/-- A call keeps the handles in use: it frees none whose device is still enumerated, and returns the same one wherever
it reports the device. -/
def KeepsHandles (s : Option LifetimeState) (c : EnumerateCall) : Prop :=
  ∃ t r, s = some t ∧ vkEnumeratePhysicalDevices t.tramp c = some r ∧
    ∃ l, r.2.2.2.heap.freed = t.tramp.heap.freed ++ l ∧
      ∀ w ∈ t.handed, w.2.physDev ∈ c.down.enumerable → w.1 ∉ l ∧
        (c.wraps = true → (r.1 = .success ∨ r.1 = .incomplete) →
          ∀ k : ℕ, c.answer.2.2[k]? = some w.2.physDev → r.2.2.1[k]? = some w.1)

/-- The stored wrappers with their devices. -/
def TrampState.wrappers (s : TrampState) : List TrampEntry :=
  s.stored.filterMap fun p => (s.heap.get p).map fun w => (p, w)

/-- There is room for the handles in use: if a call wraps and its requests are granted, each handle in use whose
device is enumerated and not reported is among the first of the unreported wrappers, as many as the call leaves out
devices. -/
def RoomForHandles (s : Option LifetimeState) (c : EnumerateCall) : Prop :=
  ∀ t, s = some t → c.wraps = true → c.answer.2.2 ≠ [] → c.req.Grants t.tramp.wrappers c.answer.2.2 →
    ∀ w ∈ t.handed, w.2.physDev ∈ c.down.enumerable → w.2.physDev ∉ c.answer.2.2 →
      w ∈ (unreported t.tramp.wrappers c.answer.2.2).take
        (max c.down.totalGpuCount c.answer.2.2.length - c.answer.2.2.length)

/-! ### The stored wrappers -/

section Stored

variable {s : TrampState} {ws : List TrampEntry}

theorem TrampState.Stores.wrappers_eq (hs : s.Stores ws) : s.wrappers = ws := by
  have hget := hs.holds.get
  unfold TrampState.wrappers
  rw [hs.stored, List.filterMap_map]
  clear hs
  induction ws with
  | nil => rfl
  | cons w ws ih =>
    rw [List.filterMap_cons_some (b := w) (by simp [hget w List.mem_cons_self]),
      ih fun v hv => hget v (List.mem_cons_of_mem _ hv)]

theorem TrampState.Stores.setTotal (hs : s.Stores ws) (count : ℕ) : { s with totalGpuCount := count }.Stores ws :=
  ⟨hs.stored, hs.holds⟩

end Stored

/-! ### One call -/

section Call

variable {s : TrampState} {ws : List TrampEntry} {ds : List Handle} {req : TrampRequests}
  {r : VkResult × List Handle × TrampState} {ws' : List TrampEntry}

/-- What a call frees of the stored wrappers is what it does not store any more. -/
theorem TrampOutcome.freed (h : TrampOutcome s ws ds req r ws') (hs : s.Stores ws) :
    ∃ l, r.2.2.heap.freed = s.heap.freed ++ l ∧ ∀ w ∈ ws, w.1 ∉ l ↔ w ∈ ws' := by
  cases h with
  | unchanged out hout hkept => exact ⟨[], (List.append_nil _).symm, fun w hw => by simpa using hw⟩
  | failed out s' hgrants harray hcount hget l hfreed hl =>
    refine ⟨l, hfreed, fun w hw => ⟨fun _ => hw, fun _ hwl => ?_⟩⟩
    have hlive := hs.holds.get w hw
    rw [hl _ hwl] at hlive
    cases hlive
  | replaced new s' hne hds horigin hstores l hfreed hl hgrants =>
    refine ⟨_, hfreed, fun w hw => ?_⟩
    rw [List.mem_append, not_or]
    constructor
    · rintro ⟨-, hdropped⟩
      by_contra hn
      exact hdropped (List.mem_map.2 ⟨w, List.mem_filter.2 ⟨hw, decide_eq_true hn⟩, rfl⟩)
    · intro hw'
      refine ⟨fun hwl => ?_, fun hdropped => ?_⟩
      · have hlive := hs.holds.get w hw
        rw [hl _ hwl] at hlive
        cases hlive
      · obtain ⟨v, hv, he⟩ := List.mem_map.1 hdropped
        obtain ⟨hv, hn⟩ := List.mem_filter.1 hv
        obtain rfl := List.inj_on_of_nodup_map hs.holds.pointers hv hw he
        exact (by simpa using hn : v ∉ new ++ keptWrappers s ws ds) hw'

/-- Which stored wrappers stay stored. -/
theorem TrampOutcome.mem_iff (h : TrampOutcome s ws ds req r ws') (hs : s.Stores ws) {w : TrampEntry}
    (hw : w ∈ ws) : w ∈ ws' ↔ (ds ≠ [] → req.Grants ws ds → w.2.physDev ∉ ds → w ∈ keptWrappers s ws ds) := by
  cases h with
  | unchanged out hout hkept =>
    refine ⟨fun _ hne _ hnd => ?_, fun _ => hw⟩
    rw [hkept.resolve_left hne]
    exact List.mem_filter.2 ⟨hw, decide_eq_true hnd⟩
  | failed out s' hgrants harray hcount hget l hfreed hl => exact ⟨fun _ _ hgr => absurd hgr hgrants, fun _ => hw⟩
  | replaced new s' hne hds horigin hstores l hfreed hl hgrants =>
    have hreported : w.2.physDev ∈ ds → w ∈ new := by
      intro hd
      rw [← hds] at hd
      obtain ⟨v, hv, he⟩ := Heap.exists_of_key_mem hd
      have hvw : v ∈ ws := horigin v hv (he ▸ Heap.key_mem hw)
      rwa [Heap.eq_of_key_eq hs.holds.nodup hvw hw he] at hv
    constructor
    · intro hw' _ _ hnd
      refine (List.mem_append.1 hw').resolve_left fun hn => hnd ?_
      rw [← hds]
      exact Heap.key_mem hn
    · intro hkeep
      by_cases hd : w.2.physDev ∈ ds
      · exact List.mem_append_left _ (hreported hd)
      · exact List.mem_append_right _ (hkeep hne hgrants hd)

end Call

/-- The handles in use are stored. -/
structure LifetimeState.Stores (s : LifetimeState) (ws : List TrampEntry) : Prop where
  tramp : s.tramp.Stores ws
  handed : s.handed ⊆ ws

/-! ### One call of `vkEnumeratePhysicalDevices` -/

section Enumerate

variable {t : LifetimeState} {ws : List TrampEntry} {c : EnumerateCall}

/-- A call that wraps nothing leaves the wrappers alone. -/
theorem vkEnumeratePhysicalDevices_of_not_wraps (s : TrampState) (hc : c.wraps = false) :
    vkEnumeratePhysicalDevices s c =
      some (c.answer.1, c.answer.2.1, c.answer.2.2, { s with totalGpuCount := c.down.totalGpuCount }) := by
  unfold vkEnumeratePhysicalDevices
  rw [hc]
  rfl

/-- A call that wraps is a call of `setup_loader_tramp_phys_devs`, and succeeds only if this does. -/
theorem vkEnumeratePhysicalDevices_of_wraps {s : TrampState} (hs : s.Stores ws) (hc : c.wraps = true) :
    ∃ r ws' res, TrampOutcome { s with totalGpuCount := c.down.totalGpuCount } ws c.answer.2.2 c.req r ws' ∧
      vkEnumeratePhysicalDevices s c = some (res, c.answer.2.1, r.2.1, r.2.2) ∧
      (res = .success ∨ res = .incomplete → r.1 = .success) := by
  obtain ⟨r, ws', hr, hout⟩ :=
    setupLoaderTrampPhysDevs_outcome c.req (hs.setTotal c.down.totalGpuCount) c.answer_nodup
  refine ⟨r, ws', if r.1 ≠ .success then r.1 else c.answer.1, hout, ?_, ?_⟩
  · unfold vkEnumeratePhysicalDevices
    rw [hc]
    show Option.map _ (setupLoaderTrampPhysDevs _ c.answer.2.2 c.req) = _
    rw [hr]
    rfl
  · intro hres
    cases hout with
    | unchanged out hout hkept => rfl
    | replaced new s' hne hds horigin hstores l hfreed hl hgrants => rfl
    | failed out s' hgrants harray hcount hget l hfreed hl =>
      rw [if_pos fun h => by cases h] at hres
      rcases hres with h | h <;> cases h

/-- **A call keeps the handles in use exactly if there is room for them.** -/
theorem keepsHandles_iff_room (ht : t.Stores ws) : KeepsHandles (some t) c ↔ RoomForHandles (some t) c := by
  cases hc : c.wraps with
  | false =>
    constructor
    · intro _ _ _ hwraps
      rw [hc] at hwraps
      cases hwraps
    · intro _
      refine ⟨t, _, rfl, vkEnumeratePhysicalDevices_of_not_wraps t.tramp hc, [], (List.append_nil _).symm, ?_⟩
      intro w _ _
      refine ⟨List.not_mem_nil, fun hwraps => ?_⟩
      rw [hc] at hwraps
      cases hwraps
  | true =>
    obtain ⟨r, ws', res, hout, hr, hsuccess⟩ := vkEnumeratePhysicalDevices_of_wraps ht.tramp hc
    have hs := ht.tramp.setTotal c.down.totalGpuCount
    obtain ⟨l, hfreed, hkept⟩ := hout.freed hs
    constructor
    · rintro ⟨_, _, ⟨⟩, hr', l', hfreed', hkeep⟩ _ ⟨⟩ _ hne hgr w hw hwe hwd
      rw [hr] at hr'
      obtain rfl := Option.some.inj hr'
      obtain rfl : l = l' := List.append_cancel_left (hfreed.symm.trans hfreed')
      rw [ht.tramp.wrappers_eq] at hgr ⊢
      exact (hout.mem_iff hs (ht.handed hw)).1 ((hkept w (ht.handed hw)).1 (hkeep w hw hwe).1) hne hgr hwd
    · intro hroom
      refine ⟨t, _, rfl, hr, l, hfreed, fun w hw hwe => ?_⟩
      have hw' : w ∈ ws' := by
        apply (hout.mem_iff hs (ht.handed hw)).2
        intro hne hgr hwd
        have h := hroom t rfl hc hne (by rwa [ht.tramp.wrappers_eq]) w hw hwe hwd
        rwa [ht.tramp.wrappers_eq] at h
      refine ⟨(hkept w (ht.handed hw)).2 hw', fun _ hres k hk => ?_⟩
      obtain ⟨p, hp, hpw⟩ := forall₂_getElem? (hout.outputs (hsuccess hres)) hk
      rw [← Heap.eq_of_key_eq (hout.stores hs).holds.nodup hpw hw' rfl]
      exact hp

theorem lifetimeStep_some {r : VkResult × ℕ × List Handle × TrampState}
    (hr : vkEnumeratePhysicalDevices t.tramp c = some r) :
    lifetimeStep (some t) c = some ⟨r.2.2.2, handedAfter t.handed c r.1 r.2.2.1⟩ := by
  rw [lifetimeStep, Option.bind_some, hr, Option.map_some]

/-- A call that keeps the handles in use leaves them stored. -/
theorem LifetimeState.Stores.step (ht : t.Stores ws) (hkeep : KeepsHandles (some t) c) :
    ∃ t' ws', lifetimeStep (some t) c = some t' ∧ t'.Stores ws' := by
  cases hc : c.wraps with
  | false =>
    have hr := vkEnumeratePhysicalDevices_of_not_wraps t.tramp hc
    refine ⟨_, ws, lifetimeStep_some hr, ht.tramp.setTotal _, fun w hw => ?_⟩
    obtain ⟨hw, -⟩ := List.mem_filter.1 hw
    rw [hc] at hw
    exact ht.handed (by simpa using hw)
  | true =>
    obtain ⟨r, ws', res, hout, hr, hsuccess⟩ := vkEnumeratePhysicalDevices_of_wraps ht.tramp hc
    have hs := ht.tramp.setTotal c.down.totalGpuCount
    obtain ⟨l, hfreed, hkept⟩ := hout.freed hs
    obtain ⟨_, _, ⟨⟩, hr', l', hfreed', hkeep⟩ := hkeep
    rw [hr] at hr'
    obtain rfl := Option.some.inj hr'
    obtain rfl : l = l' := List.append_cancel_left (hfreed.symm.trans hfreed')
    refine ⟨_, ws', lifetimeStep_some hr, hout.stores hs, fun w hw => ?_⟩
    obtain ⟨hw, hwe⟩ := List.mem_filter.1 hw
    have hwe : w.2.physDev ∈ c.down.enumerable := by simpa using hwe
    rcases List.mem_append.1 hw with hw | hw
    · exact (hkept w (ht.handed hw)).1 (hkeep w hw hwe).1
    · by_cases hres : c.wraps = true ∧ (res = .success ∨ res = .incomplete)
      · rw [if_pos hres] at hw
        have houts : List.Forall₂ (fun p v => (p, v) ∈ ws') r.2.1 (c.answer.2.2.map PhysicalDeviceTramp.mk) :=
          List.forall₂_map_right_iff.2 (hout.outputs (hsuccess hres.2))
        exact (List.forall₂_iff_zip.1 houts).2 hw
      · rw [if_neg hres] at hw
        cases hw

end Enumerate

/-! ### Any history -/

/-- The state is defined, and the handles in use are stored. -/
def LifetimeDefined (s : Option LifetimeState) : Prop := ∃ t ws, s = some t ∧ t.Stores ws

theorem lifetimeDefined_step (s : Option LifetimeState) (c : EnumerateCall) (hs : LifetimeDefined s)
    (hkeep : KeepsHandles s c) : LifetimeDefined (lifetimeStep s c) := by
  obtain ⟨t, ws, rfl, ht⟩ := hs
  exact ht.step hkeep

/-- **The handles in use are kept exactly in the histories that always have room for them.** -/
theorem keepsHandles_iff (calls : List EnumerateCall) :
    AllSteps lifetimeStep KeepsHandles (some LifetimeState.init) calls ↔
      AllSteps lifetimeStep RoomForHandles (some LifetimeState.init) calls := by
  have hinit : LifetimeDefined (some LifetimeState.init) := ⟨_, [], rfl, .init, by simp [LifetimeState.init]⟩
  apply allSteps_congr lifetimeStep lifetimeDefined_step _ hinit
  rintro _ c ⟨t, ws, rfl, ht⟩
  exact keepsHandles_iff_room ht

/-- A call without filters that fills an array, where no request fails. -/
def fillCall (capacity : ℕ) (enumerable : List Handle) (nodup : enumerable.Nodup) : EnumerateCall where
  capacity := some capacity
  filters := .unset
  ids := fun d => ⟨d, d, none⟩
  down := ⟨enumerable, nodup, none, enumerable.length⟩
  req := ⟨true, fun newIdx => some (newIdx + 8)⟩

/-- Device 1 gives way to device 3; the application asks for one device, gets device 3, and the wrapper of device 2 is
freed, the place besides being taken by that of device 1. -/
theorem not_keepsHandles :
    ¬ ∀ calls : List EnumerateCall, AllSteps lifetimeStep KeepsHandles (some LifetimeState.init) calls := by
  intro h
  obtain ⟨-, ⟨t, r, ht, hr, l, hfreed, hkeep⟩, -⟩ := h [fillCall 2 [1, 2] (by decide), fillCall 1 [3, 2] (by decide)]
  have hhanded : (lifetimeStep (some LifetimeState.init) (fillCall 2 [1, 2] (by decide))).map (·.handed) =
      some [(8, ⟨1⟩), (9, ⟨2⟩)] := by decide
  have hfreed₀ : (lifetimeStep (some LifetimeState.init) (fillCall 2 [1, 2] (by decide))).map (·.tramp.heap.freed) =
      some [] := by decide
  have hfreed₁ : ((lifetimeStep (some LifetimeState.init) (fillCall 2 [1, 2] (by decide))).bind fun t =>
      vkEnumeratePhysicalDevices t.tramp (fillCall 1 [3, 2] (by decide))).map (·.2.2.2.heap.freed) =
      some [9] := by decide
  rw [ht] at hhanded hfreed₀ hfreed₁
  rw [Option.bind_some, hr] at hfreed₁
  obtain hhanded : t.handed = [(8, ⟨1⟩), (9, ⟨2⟩)] := Option.some.inj hhanded
  obtain hfreed₀ : t.tramp.heap.freed = [] := Option.some.inj hfreed₀
  obtain hfreed₁ : r.2.2.2.heap.freed = [9] := Option.some.inj hfreed₁
  obtain rfl : [9] = l := by rw [← hfreed₁, hfreed, hfreed₀, List.nil_append]
  have hin : (9, ⟨2⟩) ∈ t.handed := by rw [hhanded]; decide
  exact (hkeep (9, ⟨2⟩) hin (by decide)).1 (by decide)

end VulkanLoader
