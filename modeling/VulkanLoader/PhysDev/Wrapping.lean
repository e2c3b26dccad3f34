import VulkanLoader.Lib.HeapTable
import VulkanLoader.PhysDev.Trampoline

/-!
# What a call does to the wrappers

The loops of `setup_loader_tramp_phys_devs` work on indices.  The stored wrappers form a table whose keys are their
devices; an index stands for a device, and each loop is read as an operation on the table.  `TrampOutcome` lists the
ways through the function, and `setupLoaderTrampPhysDevs_outcome` is the step lemma.
-/

namespace VulkanLoader

open Lib

/-- A wrapper with its address. -/
abbrev TrampEntry := Handle × PhysicalDeviceTramp

/-- The devices of wrappers. -/
abbrev devicesOf (ws : List TrampEntry) : List Handle := Heap.keys PhysicalDeviceTramp.physDev ws

/-- The stored wrapper of a device. -/
def wrapperOf (ws : List TrampEntry) (d : Handle) : Option Handle :=
  (Heap.entryOf PhysicalDeviceTramp.physDev ws d).map Prod.fst

/-- The wrappers of devices that a call does not report. -/
def unreported (ws : List TrampEntry) (ds : List Handle) : List TrampEntry := ws.filter (·.2.physDev ∉ ds)

section Wrappers

variable {ws : List TrampEntry} {p d : Handle}

theorem wrapperOf_eq_some_iff (hws : (devicesOf ws).Nodup) : wrapperOf ws d = some p ↔ (p, ⟨d⟩) ∈ ws := by
  unfold wrapperOf
  rw [Option.map_eq_some_iff]
  constructor
  · rintro ⟨w, hfind, rfl⟩
    obtain ⟨hw, rfl⟩ := (Heap.entryOf_eq_some_iff hws).1 hfind
    exact hw
  · intro hp
    exact ⟨_, (Heap.entryOf_eq_some_iff hws).2 ⟨hp, rfl⟩, rfl⟩

theorem wrapperOf_eq_none_iff : wrapperOf ws d = none ↔ d ∉ devicesOf ws := by
  unfold wrapperOf
  rw [Option.map_eq_none_iff]
  exact Heap.entryOf_eq_none_iff

theorem length_unreported (ws : List TrampEntry) (ds : List Handle) :
    (unreported ws ds).length + ws.countP (·.2.physDev ∈ ds) = ws.length := by
  rw [unreported, ← List.countP_eq_length_filter, Nat.add_comm]
  have h := List.length_eq_countP_add_countP (l := ws) fun w => decide (w.2.physDev ∈ ds)
  rw [h]
  congr 2
  funext w
  simp

end Wrappers

/-! ### The index arrays -/

section Indices

variable {h : Heap PhysicalDeviceTramp} {ws : List TrampEntry} {ds : List Handle}

/-- The stored pointers with their new indices, read off the devices. -/
def indexed (ds : List Handle) (ws : List TrampEntry) : List (Option ℕ × Handle) :=
  ws.map fun w => (ds.idxOf? w.2.physDev, w.1)

theorem oldToNewIndex_eq (hget : ∀ w ∈ ws, h.get w.1 = some w.2) :
    oldToNewIndex h ds (ws.map Prod.fst) = some (indexed ds ws) := by
  induction ws with
  | nil => rfl
  | cons w ws ih =>
    have htail := ih fun v hv => hget v (List.mem_cons_of_mem _ hv)
    rw [List.map_cons, oldToNewIndex, hget w List.mem_cons_self, htail]
    rfl

theorem oldItem_indexed (hds : ds.Nodup) {i : ℕ} {d : Handle} (hd : ds[i]? = some d) :
    oldItem (indexed ds ws) i = wrapperOf ws d := by
  have hpred : (fun o : Option ℕ × Handle => decide (o.1 = some i)) ∘ (fun w => (ds.idxOf? w.2.physDev, w.1)) =
      fun w : TrampEntry => decide (w.2.physDev = d) := by
    funext w
    apply decide_eq_decide.2
    show ds.idxOf? w.2.physDev = some i ↔ w.2.physDev = d
    rw [idxOf?_eq_some_iff_getElem? hds]
    constructor
    · intro hw
      exact Option.some.inj (hw.symm.trans hd)
    · rintro rfl
      exact hd
  unfold oldItem indexed wrapperOf Heap.entryOf
  rw [List.find?_map, hpred, Option.map_map]
  rfl

theorem countP_indexed (ds : List Handle) (ws : List TrampEntry) :
    (indexed ds ws).countP (·.1.isSome) = ws.countP (·.2.physDev ∈ ds) := by
  unfold indexed
  rw [List.countP_map]
  congr 1
  funext w
  apply Bool.eq_iff_iff.2
  simp [List.isSome_idxOf?]

/-- The pointers without a new index are those of the wrappers that are not reported. -/
theorem filter_indexed (ds : List Handle) (ws : List TrampEntry) :
    ((indexed ds ws).filter (·.1 = none)).map (·.2) = (unreported ws ds).map Prod.fst := by
  unfold indexed unreported
  rw [List.filter_map, List.map_map]
  have hpred : (fun o : Option ℕ × Handle => decide (o.1 = none)) ∘ (fun w => (ds.idxOf? w.2.physDev, w.1)) =
      fun w : TrampEntry => decide (w.2.physDev ∉ ds) := by
    funext w
    apply decide_eq_decide.2
    exact List.idxOf?_eq_none_iff
  rw [hpred]
  rfl

end Indices

/-! ### The loops -/

section Loops

variable {h : Heap PhysicalDeviceTramp} {ws : List TrampEntry} {ds : List Handle}

theorem useOldItems_spec (hws : (devicesOf ws).Nodup) (hds : ds.Nodup) (hall : ∀ d ∈ ds, d ∈ devicesOf ws) :
    List.Forall₂ (fun p d => (p, ⟨d⟩) ∈ ws) (useOldItems (indexed ds ws) ds) ds := by
  have heq : useOldItems (indexed ds ws) ds = ds.map fun d => (wrapperOf ws d).getD d := by
    apply List.ext_getElem?
    intro i
    unfold useOldItems
    rw [List.getElem?_map, List.getElem?_map, List.getElem?_zipIdx]
    rcases hd : ds[i]? with _ | d
    · rfl
    · simp [oldItem_indexed hds hd]
  rw [heq]
  apply List.forall₂_map_left_iff.2
  apply List.forall₂_same.2
  intro d hd
  rcases hw : wrapperOf ws d with _ | p
  · exact absurd (hall d hd) (wrapperOf_eq_none_iff.1 hw)
  · exact (wrapperOf_eq_some_iff hws).1 hw

/-- From the index `newIdx` on, every request for the wrapper of a new device is granted. -/
def GrantsFrom (wrapper : ℕ → Option Handle) (ws : List TrampEntry) (newIdx : ℕ) (ds : List Handle) : Prop :=
  ∀ (k : ℕ) (d : Handle), ds[k]? = some d → d ∉ devicesOf ws → (wrapper (newIdx + k)).isSome

theorem grantsFrom_cons {wrapper : ℕ → Option Handle} {newIdx : ℕ} {d : Handle} :
    GrantsFrom wrapper ws newIdx (d :: ds) ↔
      (d ∉ devicesOf ws → (wrapper newIdx).isSome) ∧ GrantsFrom wrapper ws (newIdx + 1) ds := by
  constructor
  · intro h
    refine ⟨h 0 d rfl, fun k e hk he => ?_⟩
    rw [show newIdx + 1 + k = newIdx + (k + 1) by omega]
    exact h (k + 1) e hk he
  · intro h k e hk he
    rcases k with _ | k
    · obtain rfl := Option.some.inj hk
      exact h.1 he
    · rw [show newIdx + (k + 1) = newIdx + 1 + k by omega]
      exact h.2 k e hk he

/-- The first loop: the new entries are wrappers of the devices of their places, each the stored one if there is one,
and the loop runs to its end if and only if every new device gets its wrapper. -/
theorem wrapPhysDevs_spec (wrapper : ℕ → Option Handle) {old : List (Option ℕ × Handle)} {newIdx : ℕ}
    (hws : (devicesOf ws).Nodup) (hget : ∀ w ∈ ws, h.get w.1 = some w.2)
    (hold : ∀ (k : ℕ) (d : Handle), ds[k]? = some d → oldItem old (newIdx + k) = wrapperOf ws d) :
    ∃ new h', (wrapPhysDevs wrapper old newIdx ds h).1 = new.map Prod.fst ∧
      (wrapPhysDevs wrapper old newIdx ds h).2.2 = h' ∧ devicesOf new = ds.take new.length ∧
      Heap.Extends h new h' ∧ (∀ w ∈ new, w.2.physDev ∈ devicesOf ws → w ∈ ws) ∧
      ((wrapPhysDevs wrapper old newIdx ds h).2.1 = true → new.length = ds.length) ∧
      ((wrapPhysDevs wrapper old newIdx ds h).2.1 = true ↔ GrantsFrom wrapper ws newIdx ds) := by
  induction ds generalizing newIdx h with
  | nil => exact ⟨[], h, rfl, rfl, rfl, .nil h, by simp, fun _ => rfl, fun _ => by simp [GrantsFrom], fun _ => rfl⟩
  | cons d ds ih =>
    have hold0 : oldItem old newIdx = wrapperOf ws d := hold 0 d rfl
    have hold' : ∀ (k : ℕ) (d' : Handle), ds[k]? = some d' → oldItem old (newIdx + 1 + k) = wrapperOf ws d' := by
      intro k d' hk
      rw [Nat.add_assoc, Nat.add_comm 1 k]
      exact hold (k + 1) d' hk
    rcases hw : wrapperOf ws d with _ | p
    · have hnew : d ∉ devicesOf ws := wrapperOf_eq_none_iff.1 hw
      rcases hreq : wrapper newIdx with _ | wish
      · -- the request fails, and the loop is left
        have hstop : wrapPhysDevs wrapper old newIdx (d :: ds) h = ([], false, h) := by
          simp [wrapPhysDevs, hold0, hw, hreq]
        rw [hstop]
        refine ⟨[], h, rfl, rfl, rfl, .nil h, by simp, by simp, by simp, fun hgr => ?_⟩
        have hfirst := (grantsFrom_cons.1 hgr).1 hnew
        rw [hreq] at hfirst
        cases hfirst
      · obtain ⟨new, h', hfst, hheap, hdev, hx, horigin, hlen, hok⟩ := ih (h := h.alloc wish ⟨d⟩)
          (fun w hw => Heap.alloc_get_of_get (hget w hw)) hold'
        have hstep : wrapPhysDevs wrapper old newIdx (d :: ds) h =
            (h.place wish :: (wrapPhysDevs wrapper old (newIdx + 1) ds (h.alloc wish ⟨d⟩)).1,
              (wrapPhysDevs wrapper old (newIdx + 1) ds (h.alloc wish ⟨d⟩)).2) := by
          simp [wrapPhysDevs, hold0, hw, hreq]
        rw [hstep]
        refine ⟨(h.place wish, ⟨d⟩) :: new, h', by rw [hfst]; rfl, hheap, by simp [hdev], hx.make, ?_,
          fun hdone => congrArg (· + 1) (hlen hdone), hok.trans ?_⟩
        · intro w hwn hd
          rcases List.mem_cons.1 hwn with rfl | hwn
          · exact absurd hd hnew
          · exact horigin w hwn hd
        · rw [grantsFrom_cons, hreq]
          exact ⟨fun hgr => ⟨fun _ => rfl, hgr⟩, fun hgr => hgr.2⟩
    · have hmem : (p, ⟨d⟩) ∈ ws := (wrapperOf_eq_some_iff hws).1 hw
      obtain ⟨new, h', hfst, hheap, hdev, hx, horigin, hlen, hok⟩ := ih (h := h) hget hold'
      have hstep : wrapPhysDevs wrapper old newIdx (d :: ds) h =
          (p :: (wrapPhysDevs wrapper old (newIdx + 1) ds h).1, (wrapPhysDevs wrapper old (newIdx + 1) ds h).2) := by
        simp [wrapPhysDevs, hold0, hw]
      rw [hstep]
      refine ⟨(p, ⟨d⟩) :: new, h', by rw [hfst]; rfl, hheap, by simp [hdev], hx.reuse (hget _ hmem), ?_,
        fun hdone => congrArg (· + 1) (hlen hdone), hok.trans ?_⟩
      · intro w hwn hd
        rcases List.mem_cons.1 hwn with rfl | hwn
        · exact hmem
        · exact horigin w hwn hd
      · rw [grantsFrom_cons]
        exact ⟨fun hgr => ⟨fun hnd => absurd (Heap.key_mem hmem) hnd, hgr⟩, fun hgr => hgr.2⟩

/-- The stored pointers that have no new index. -/
def remaining (old : List (Option ℕ × Handle)) : List Handle := (old.filter (·.1 = none)).map (·.2)

theorem takeRemaining_eq_none {old : List (Option ℕ × Handle)} {newIdx : ℕ} (hold : remaining old = []) :
    takeRemaining newIdx old = none := by
  induction old with
  | nil => rfl
  | cons o old ih =>
    obtain ⟨_ | j, p⟩ := o
    · cases hold
    · have htail : takeRemaining newIdx old = none := ih (by simpa [remaining] using hold)
      rw [takeRemaining, htail]
      rfl

theorem takeRemaining_eq_some {old : List (Option ℕ × Handle)} {newIdx : ℕ} {p : Handle} {ps : List Handle}
    (hold : remaining old = p :: ps) : ∃ old', takeRemaining newIdx old = some (p, old') ∧ remaining old' = ps := by
  induction old with
  | nil => cases hold
  | cons o old ih =>
    obtain ⟨_ | j, q⟩ := o
    · obtain ⟨rfl, rfl⟩ : q = p ∧ remaining old = ps := by simpa [remaining] using hold
      exact ⟨(some newIdx, q) :: old, rfl, by simp [remaining]⟩
    · obtain ⟨old', htake, hrem⟩ := ih (by simpa [remaining] using hold)
      exact ⟨(some j, q) :: old', by rw [takeRemaining, htake]; rfl, by simpa [remaining] using hrem⟩

/-- The second loop copies the first stored wrappers that are not reported, as many as fit. -/
theorem keepRemaining_eq (slots newIdx : ℕ) (old : List (Option ℕ × Handle)) :
    keepRemaining slots newIdx old =
      ((remaining old).take slots ++ List.replicate (slots - (remaining old).length) nullHandle,
        ((remaining old).take slots).length) := by
  induction slots generalizing newIdx old with
  | zero => simp [keepRemaining]
  | succ slots ih =>
    rcases hold : remaining old with _ | ⟨p, ps⟩
    · rw [keepRemaining, takeRemaining_eq_none hold]
      simp [ih, hold, List.replicate_succ]
    · obtain ⟨old', htake, hrem⟩ := takeRemaining_eq_some hold
      rw [keepRemaining, htake]
      simp [ih, hrem]

end Loops

/-! ### The step lemma -/

/-- `phys_devs_tramp` holds the wrappers `ws`, and these are all there are. -/
structure TrampState.Stores (s : TrampState) (ws : List TrampEntry) : Prop where
  stored : s.stored = ws.map Prod.fst
  holds : Heap.Holds PhysicalDeviceTramp.physDev s.heap ws

/-- The wrappers that the full path keeps besides the reported ones: the first that are not reported, as many as there
are devices that the call leaves out. -/
def keptWrappers (s : TrampState) (ws : List TrampEntry) (ds : List Handle) : List TrampEntry :=
  (unreported ws ds).take (max s.totalGpuCount ds.length - ds.length)

/-- The requests that a call makes for an array and for wrappers of new devices are granted. -/
def TrampRequests.Grants (req : TrampRequests) (ws : List TrampEntry) (ds : List Handle) : Prop :=
  req.newPhysDevs = true ∧ GrantsFrom req.wrapper ws 0 ds

/-- **The ways through `setup_loader_tramp_phys_devs`** from a state that stores `ws`, with the wrappers after it. -/
inductive TrampOutcome (s : TrampState) (ws : List TrampEntry) (ds : List Handle) (req : TrampRequests) :
    VkResult × List Handle × TrampState → List TrampEntry → Prop
  /-- Nothing is new, and the stored wrappers that are not reported are as many as the call leaves out devices. -/
  | unchanged (out : List Handle) (hout : List.Forall₂ (fun p d => (p, ⟨d⟩) ∈ ws) out ds)
      (hkept : ds = [] ∨ keptWrappers s ws ds = unreported ws ds) :
      TrampOutcome s ws ds req (.success, out, s) ws
  /-- A request fails; what was made in this call is freed. -/
  | failed (out : List Handle) (s' : TrampState) (hgrants : ¬ req.Grants ws ds)
      (harray : s'.physDevsTramp = s.physDevsTramp) (hcount : s'.physDevCountTramp = s.physDevCountTramp)
      (hget : ∀ a, s'.heap.get a = s.heap.get a) (l : List Handle) (hfreed : s'.heap.freed = s.heap.freed ++ l)
      (hl : ∀ p ∈ l, s.heap.get p = none) : TrampOutcome s ws ds req (.errorOutOfHostMemory, out, s') ws
  /-- The array is replaced. -/
  | replaced (new : List TrampEntry) (s' : TrampState) (hne : ds ≠ []) (hds : devicesOf new = ds)
      (horigin : ∀ w ∈ new, w.2.physDev ∈ devicesOf ws → w ∈ ws) (hstores : s'.Stores (new ++ keptWrappers s ws ds))
      (l : List Handle) (hfreed : s'.heap.freed =
        s.heap.freed ++ (l ++ (ws.filter (· ∉ new ++ keptWrappers s ws ds)).map Prod.fst))
      (hl : ∀ p ∈ l, s.heap.get p = none) (hgrants : req.Grants ws ds) :
      TrampOutcome s ws ds req (.success, new.map Prod.fst, s') (new ++ keptWrappers s ws ds)

section Step

variable {s : TrampState} {ws : List TrampEntry} {ds : List Handle}

theorem TrampState.Stores.count (hs : s.Stores ws) : s.physDevCountTramp = ws.length := by
  have hlen := congrArg List.length hs.stored
  rw [List.length_map, TrampState.stored, List.length_take, Nat.min_eq_left s.count_le] at hlen
  exact hlen

/-- The kept wrappers are stored, and none is reported. -/
theorem keptWrappers_spec {w : TrampEntry} (hw : w ∈ keptWrappers s ws ds) : w ∈ ws ∧ w.2.physDev ∉ ds := by
  obtain ⟨hw, hd⟩ := List.mem_filter.1 (List.mem_of_mem_take hw)
  exact ⟨hw, by simpa using hd⟩

/-- Reported and kept wrappers have distinct devices. -/
theorem nodup_append_kept {new : List TrampEntry} (hws : (devicesOf ws).Nodup) (hnew : devicesOf new = ds)
    (hds : ds.Nodup) : (devicesOf (new ++ keptWrappers s ws ds)).Nodup := by
  subst hnew
  rw [devicesOf, Heap.keys_append, List.nodup_append]
  refine ⟨hds, hws.sublist (((List.take_sublist _ _).trans List.filter_sublist).map _), ?_⟩
  rintro d hd _ hk rfl
  obtain ⟨w, hw, rfl⟩ := Heap.exists_of_key_mem hk
  exact (keptWrappers_spec hw).2 hd

/-- The second loop, from a state that stores `ws`. -/
theorem keepRemaining_indexed (s : TrampState) (ws : List TrampEntry) (ds : List Handle) :
    ∃ nulls, keepRemaining (max s.totalGpuCount ds.length - ds.length) ds.length (indexed ds ws) =
        ((keptWrappers s ws ds).map Prod.fst ++ List.replicate nulls nullHandle, (keptWrappers s ws ds).length) ∧
      (keptWrappers s ws ds).length + nulls = max s.totalGpuCount ds.length - ds.length := by
  refine ⟨max s.totalGpuCount ds.length - ds.length - (remaining (indexed ds ws)).length, ?_, ?_⟩
  · rw [keepRemaining_eq, remaining, filter_indexed, ← List.map_take, List.length_map, List.length_map]
    rfl
  · rw [remaining, filter_indexed, keptWrappers, List.length_take, List.length_map]
    omega

/-- **The step lemma**: a call on distinct devices is defined, and takes one of the three ways. -/
theorem setupLoaderTrampPhysDevs_outcome (req : TrampRequests) (hs : s.Stores ws) (hds : ds.Nodup) :
    ∃ r ws', setupLoaderTrampPhysDevs s ds req = some r ∧ TrampOutcome s ws ds req r ws' := by
  unfold setupLoaderTrampPhysDevs
  by_cases hempty : ds = []
  · subst hempty
    exact ⟨_, ws, if_pos rfl, .unchanged [] .nil (Or.inl rfl)⟩
  rw [if_neg hempty, hs.stored, oldToNewIndex_eq hs.holds.get, Option.bind_some, countP_indexed]
  split_ifs with hsame harray
  · -- every reported device is stored, and there is room for no other
    have hall := mem_map_of_countP_eq_length hs.holds.nodup hsame.1
    refine ⟨_, ws, rfl, .unchanged _ (useOldItems_spec hs.holds.nodup hds hall) (Or.inr ?_)⟩
    have hcount := hs.count
    have hsplit := length_unreported ws ds
    apply List.take_of_length_le
    omega
  · refine ⟨_, ws, rfl, .failed _ _ (fun hgr => ?_) rfl rfl (fun _ => rfl) [] (List.append_nil _).symm (by simp)⟩
    rw [hgr.1] at harray
    cases harray
  · have hlook : ∀ (k : ℕ) (d : Handle), ds[k]? = some d → oldItem (indexed ds ws) (0 + k) = wrapperOf ws d := by
      intro k d hk
      rw [Nat.zero_add]
      exact oldItem_indexed hds hk
    obtain ⟨new, h', hfst, hheap, hdev, hx, horigin, hlen, hok⟩ :=
      wrapPhysDevs_spec req.wrapper hs.holds.nodup hs.holds.get hlook
    rcases hloop : wrapPhysDevs req.wrapper (indexed ds ws) 0 ds s.heap with ⟨wrapped, done, heap⟩
    rw [hloop] at hfst hheap hlen hok
    obtain rfl : wrapped = new.map Prod.fst := hfst
    obtain rfl : heap = h' := hheap
    cases done with
    | false =>
      have hnew : (devicesOf new).Nodup := hdev ▸ hds.sublist (List.take_sublist _ _)
      obtain ⟨h'', l, hfree, hget, hlog, hl⟩ :=
        hx.freeAll_failed hs.holds (Heap.nodup_fst hx.get_new hnew) (ds.length - new.length)
      simp only [List.length_map, hfree, Option.map_some]
      refine ⟨_, ws, rfl, .failed _ _ (fun hgr => ?_) rfl rfl hget l hlog hl⟩
      cases hok.2 hgr.2
    | true =>
      have hlen : new.length = ds.length := hlen rfl
      have hnew : devicesOf new = ds := by rw [hdev, hlen, List.take_length]
      obtain ⟨nulls, hkeep, hroom⟩ := keepRemaining_indexed s ws ds
      have hold : ∀ w ∈ keptWrappers s ws ds, s.heap.get w.1 = some w.2 := fun w hw =>
        hs.holds.get w (keptWrappers_spec hw).1
      have hx' := hx.append_old hold
      obtain ⟨h'', l, hfree, hholds, hlog, hl⟩ :=
        hx'.freeAll_replaced hs.holds (nodup_append_kept hs.holds.nodup hnew hds) nulls
      have hall : (new.map Prod.fst ++ ((keptWrappers s ws ds).map Prod.fst ++ List.replicate nulls nullHandle)).take
          (max s.totalGpuCount ds.length) =
          (new ++ keptWrappers s ws ds).map Prod.fst ++ List.replicate nulls nullHandle := by
        rw [List.map_append, List.append_assoc]
        apply List.take_of_length_le
        rw [List.length_append, List.length_append, List.length_map, List.length_map, List.length_replicate, hlen, hroom]
        omega
      simp only [hkeep, hall, hfree, Option.map_some]
      refine ⟨_, _, rfl, .replaced new _ hempty hnew horigin ⟨?_, hholds⟩ l hlog (fun p hp => (hl p hp).1)
        ⟨by simpa using harray, hok.1 rfl⟩⟩
      show List.take ((new.map Prod.fst).length + (keptWrappers s ws ds).length)
        (new.map Prod.fst ++ ((keptWrappers s ws ds).map Prod.fst ++ List.replicate nulls nullHandle)) = _
      rw [← List.append_assoc, ← List.map_append]
      apply List.take_left'
      simp

end Step

end VulkanLoader
