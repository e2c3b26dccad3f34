import VulkanLoader.Instance.Isolation
import VulkanLoader.Instance.Ownership
import VulkanLoader.PhysDev.TermStability
import VulkanLoader.PhysDev.Unload

/-!
# Drivers in use and their unloading

`unload_drivers_without_physical_devices` looks at the last count of physical devices only, and `loader_icd_destroy`
frees the logical devices that it finds.  So a driver with logical devices is unloaded in the first enumeration to fill
an array where the driver reports no device or fails, while another one reports some.
-/

namespace VulkanLoader

open Lib

/-- The handles that driver `i` reports. -/
def TerminatorAnswers.reported (a : TerminatorAnswers) (i : ℕ) : List Handle :=
  (IcdEnumeration.mk i (a.count i) (a.fill i)).query.2

/-- A driver, but for its count. -/
def DeviceIcdTerm.uncounted (t : DeviceIcdTerm) : IcdTerm × List ℕ := (t.toIcdTerm, t.logicalDeviceList)

/-- No driver in use in `s` is destroyed on the way to `s'`: neither its `loader_icd_term`, nor its instance, its
devices or its library. -/
structure KeepsInUse (s s' : Drivers) : Prop where
  kept : ∀ t ∈ s.icdTerms, t.logicalDeviceList ≠ [] →
    (∃ t' ∈ s'.icdTerms, t'.uncounted = t.uncounted) ∧ s'.scannedList[t.scannedIcd]? = s.scannedList[t.scannedIcd]?
  tornDown : ∃ l, s'.log = s.log ++ l ∧
    ∀ t ∈ s.icdTerms, t.logicalDeviceList ≠ [] → ∀ e ∈ l, e.driver ≠ some t.scannedIcd

/-- An enumeration destroys no driver in use. -/
def KeepsDrivers (s : Option Drivers) : DriversCall → Prop
  | .enumeratePhysicalDevices c => ∀ t t', s = some t → t.enumeratePhysicalDevices c = some t' → KeepsInUse t t'
  | _ => True

/-- In an enumeration that fills an array and whose calls down succeed, each driver in use reports a device. -/
def ReportsInUse (s : Option Drivers) : DriversCall → Prop
  | .enumeratePhysicalDevices c => ∀ t r, s = some t → t.callDown c = some r → c.unloads r.1 r.2.1.1 = true →
      ∀ icd ∈ t.icdTerms, icd.logicalDeviceList ≠ [] → c.fill.reported icd.scannedIcd ≠ []
  | _ => True

/-- The drivers are distinct, each is in the scanned list, and they are counted. -/
structure Drivers.WellFormed (s : Drivers) : Prop where
  nodup : (s.icdTerms.map (·.scannedIcd)).Nodup
  scanned : ∀ t ∈ s.icdTerms, t.scannedIcd < s.scannedList.length
  count : s.icdTermsCount = s.icdTerms.length

/-! ### The calls down -/

section CallDown

/-- All that the calls down change are the counts and the objects. -/
structure SameDrivers (s s' : Drivers) : Prop where
  icdTerms : s'.icdTerms.map (·.uncounted) = s.icdTerms.map (·.uncounted)
  icdTermsCount : s'.icdTermsCount = s.icdTermsCount
  scannedList : s'.scannedList = s.scannedList
  log : s'.log = s.log

variable {s s' s'' : Drivers}

theorem SameDrivers.trans (h : SameDrivers s s') (h' : SameDrivers s' s'') : SameDrivers s s'' :=
  ⟨h'.icdTerms.trans h.icdTerms, h'.icdTermsCount.trans h.icdTermsCount, h'.scannedList.trans h.scannedList,
    h'.log.trans h.log⟩

theorem scannedIcd_of_uncounted {t t' : DeviceIcdTerm} (h : t'.uncounted = t.uncounted) :
    t'.scannedIcd = t.scannedIcd := congrArg (fun x => x.1.scannedIcd) h

theorem map_scannedIcd (ts : List DeviceIcdTerm) :
    ts.map (·.scannedIcd) = (ts.map (·.uncounted)).map (·.1.scannedIcd) := by
  rw [List.map_map]
  rfl

theorem SameDrivers.exists_mem (h : SameDrivers s s') {t : DeviceIcdTerm} (ht : t ∈ s.icdTerms) :
    ∃ t' ∈ s'.icdTerms, t'.uncounted = t.uncounted := by
  have hmem : t.uncounted ∈ s'.icdTerms.map (·.uncounted) := by
    rw [h.icdTerms]
    exact List.mem_map_of_mem ht
  exact List.mem_map.1 hmem

theorem SameDrivers.symm (h : SameDrivers s s') : SameDrivers s' s :=
  ⟨h.icdTerms.symm, h.icdTermsCount.symm, h.scannedList.symm, h.log.symm⟩

theorem SameDrivers.wellFormed (h : SameDrivers s s') (hs : s.WellFormed) : s'.WellFormed := by
  refine ⟨?_, fun t' ht' => ?_, ?_⟩
  · rw [map_scannedIcd, h.icdTerms, ← map_scannedIcd]
    exact hs.nodup
  · obtain ⟨t, ht, heq⟩ := h.symm.exists_mem ht'
    rw [h.scannedList, ← scannedIcd_of_uncounted heq]
    exact hs.scanned t ht
  · rw [h.icdTermsCount, hs.count]
    simpa using (congrArg List.length h.icdTerms).symm

/-- The loop over the drivers gets to the first ones, and to all unless one of them runs out of memory. -/
theorem queryIcds_eq (a : TerminatorAnswers) (ts : List DeviceIcdTerm) (res : VkResult) :
    ∃ k, (queryIcds (ts.map a.icd) res).2 = (ts.take k).map (fun t => (t.scannedIcd, a.reported t.scannedIcd)) ∧
      ((queryIcds (ts.map a.icd) res).1 ≠ .errorOutOfHostMemory → ts.take k = ts) := by
  induction ts generalizing res with
  | nil => exact ⟨0, rfl, fun _ => rfl⟩
  | cons t ts ih =>
    have hquery : (a.icd t).query.2 = a.reported t.scannedIcd := rfl
    rw [List.map_cons, queryIcds]
    rcases hq : (a.icd t).query with ⟨res', ds⟩
    rw [hq] at hquery
    obtain rfl : ds = _ := hquery
    obtain ⟨k, heq, hall⟩ := ih res'
    have hnext : ∃ k, ((t.scannedIcd, a.reported t.scannedIcd) :: (queryIcds (ts.map a.icd) res').2) =
        ((t :: ts).take k).map (fun t => (t.scannedIcd, a.reported t.scannedIcd)) ∧
        ((queryIcds (ts.map a.icd) res').1 ≠ .errorOutOfHostMemory → (t :: ts).take k = t :: ts) := by
      refine ⟨k + 1, ?_, fun hres => ?_⟩
      · rw [heq]
        rfl
      · rw [List.take_succ_cons, hall hres]
    cases res' with
    | errorOutOfHostMemory => exact ⟨0, rfl, fun hres => absurd rfl hres⟩
    | _ => exact hnext

theorem noteCounts_uncounted (ts : List DeviceIcdTerm) (icds : List (ℕ × List Handle)) :
    (noteCounts ts icds).map (·.uncounted) = ts.map (·.uncounted) := by
  induction ts generalizing icds with
  | nil => cases icds <;> rfl
  | cons t ts ih =>
    cases icds with
    | nil => rfl
    | cons icd icds =>
      show _ :: _ = _ :: _
      rw [ih]
      rfl

theorem noteCounts_eq (a : TerminatorAnswers) (ts : List DeviceIcdTerm) :
    noteCounts ts (ts.map fun t => (t.scannedIcd, a.reported t.scannedIcd)) =
      ts.map fun t => { t with physicalDeviceCount := (a.reported t.scannedIcd).length } := by
  induction ts with
  | nil => rfl
  | cons t ts ih =>
    show _ :: _ = _ :: _
    rw [ih]

/-! ### The results of the set-up -/

theorem addPhysDevs_res {old : List Handle} {object : ℕ → Option Handle} {ts : List PhysicalDeviceTerm}
    {n : NewPhysDevs} {r : VkResult × NewPhysDevs} (h : addPhysDevs old object ts n = some r) :
    r.1 = .success ∨ r.1 = .errorOutOfHostMemory := by
  induction ts generalizing n with
  | nil =>
    obtain rfl := Option.some.inj h
    exact Or.inl rfl
  | cons t ts ih =>
    obtain ⟨q, -, hq⟩ := Option.bind_eq_some_iff.1 h
    by_cases hoom : q.1 = .errorOutOfHostMemory
    · rw [if_pos hoom] at hq
      obtain rfl := Option.some.inj hq
      exact Or.inr hoom
    · rw [if_neg hoom] at hq
      exact ih hq

theorem sortedPhysDevs_res {old : List Handle} {order : DeviceOrder} {req : TermRequests}
    {ts : List PhysicalDeviceTerm} {h : Heap PhysicalDeviceTerm} {r : VkResult × NewPhysDevs}
    (hr : sortedPhysDevs old order req ts h = some r) : r.1 = .success ∨ r.1 = .errorOutOfHostMemory := by
  unfold sortedPhysDevs at hr
  split at hr
  · obtain rfl := Option.some.inj hr
    exact Or.inr rfl
  · obtain ⟨q, hread, hq⟩ := Option.bind_eq_some_iff.1 hr
    have hres : q.1 = .success ∨ q.1 = .errorOutOfHostMemory := by
      unfold linuxReadSortedPhysicalDevices at hread
      split_ifs at hread
      · obtain rfl := Option.some.inj hread
        exact Or.inr rfl
      · obtain ⟨g', -, rfl⟩ := Option.map_eq_some_iff.1 hread
        exact Or.inl rfl
    split_ifs at hq with hoom
    · obtain rfl := Option.some.inj hq
      exact Or.inr hoom
    · obtain ⟨k, -, rfl⟩ := Option.map_eq_some_iff.1 hq
      exact hres

theorem swapPhysDevs_res {s : TermState} {res : VkResult} {n : NewPhysDevs} {r : VkResult × TermState}
    (h : swapPhysDevs s res n = some r) : r.1 = res := by
  unfold swapPhysDevs at h
  split_ifs at h
  · obtain ⟨heap, -, rfl⟩ := Option.map_eq_some_iff.1 h
    rfl
  · obtain ⟨heap, -, rfl⟩ := Option.map_eq_some_iff.1 h
    rfl

/-- The set-up returns one of three results, and success only if no driver runs out of memory. -/
theorem setupLoaderTermPhysDevs_res {s : TermState} {c : TermEnumeration} {r : VkResult × TermState}
    (h : setupLoaderTermPhysDevs s c = some r) :
    r.1 = .errorOutOfHostMemory ∨ r.1 = .errorInitializationFailed ∨
      r.1 = .success ∧ (queryIcds c.icds .success).1 ≠ .errorOutOfHostMemory := by
  rw [setupLoaderTermPhysDevs_eq] at h
  split_ifs at h with hoom hempty harray
  · obtain rfl := Option.some.inj h
    exact Or.inl hoom
  · obtain rfl := Option.some.inj h
    exact Or.inr (Or.inl rfl)
  · obtain rfl := Option.some.inj h
    exact Or.inl rfl
  · have hres : r.1 = .success ∨ r.1 = .errorOutOfHostMemory := by
      split at h
      · obtain ⟨q, hq, hswap⟩ := Option.bind_eq_some_iff.1 h
        rw [swapPhysDevs_res hswap]
        exact sortedPhysDevs_res hq
      · obtain ⟨q, hq, hswap⟩ := Option.bind_eq_some_iff.1 h
        rw [swapPhysDevs_res hswap]
        exact addPhysDevs_res hq
    rcases hres with hres | hres
    · exact Or.inr (Or.inr ⟨hres, hoom⟩)
    · exact Or.inl hres

/-! ### What a call down notes -/

variable {a : TerminatorAnswers}

/-- After a set-up that succeeds, each driver has the count of the devices it reported. -/
def Counted (a : TerminatorAnswers) (s : Drivers) : Prop :=
  ∀ t ∈ s.icdTerms, t.physicalDeviceCount = (a.reported t.scannedIcd).length

theorem setupTermPhysDevs_spec {r : VkResult × Drivers} (h : s.setupTermPhysDevs a = some r) :
    SameDrivers s r.2 ∧ r.1 ≠ .incomplete ∧ (r.1 = .success → Counted a r.2) := by
  unfold Drivers.setupTermPhysDevs at h
  split_ifs at h
  obtain ⟨q, hq, rfl⟩ := Option.map_eq_some_iff.1 h
  have hres := setupLoaderTermPhysDevs_res hq
  refine ⟨⟨noteCounts_uncounted _ _, rfl, rfl, rfl⟩, ?_, ?_⟩
  · intro hinc
    rcases hres with hres | hres | ⟨hres, -⟩
    all_goals
      rw [show q.1 = .incomplete from hinc] at hres
      cases hres
  · intro hsuccess
    have hall : (queryIcds (s.icdTerms.map a.icd) .success).1 ≠ .errorOutOfHostMemory := by
      rcases hres with hres | hres | ⟨-, hres⟩
      · rw [show q.1 = .success from hsuccess] at hres
        cases hres
      · rw [show q.1 = .success from hsuccess] at hres
        cases hres
      · exact hres
    obtain ⟨k, heq, htake⟩ := queryIcds_eq a s.icdTerms .success
    rw [htake hall] at heq
    intro t ht
    rw [heq, noteCounts_eq] at ht
    obtain ⟨t, -, rfl⟩ := List.mem_map.1 ht
    rfl

theorem terminatorEnumeratePhysicalDevices_spec {capacity : Option ℕ} {r : (VkResult × ℕ × List Handle) × Drivers}
    (h : s.terminatorEnumeratePhysicalDevices a capacity = some r) :
    SameDrivers s r.2 ∧ (r.1.1 = .success ∨ r.1.1 = .incomplete → Counted a r.2) := by
  obtain ⟨q, hq, rfl⟩ := Option.map_eq_some_iff.1 h
  obtain ⟨hsame, hinc, hcounted⟩ := setupTermPhysDevs_spec hq
  by_cases hres : q.1 = .success
  · rw [if_neg (not_not.2 hres)]
    exact ⟨hsame, fun _ => hcounted hres⟩
  · rw [if_pos hres]
    refine ⟨hsame, fun h => ?_⟩
    rcases h with h | h
    · exact absurd h hres
    · exact absurd h hinc

/-- Before the unloading each driver has the count of the devices it reported in the call for the devices. -/
theorem callDown_spec {c : DriversEnumeration} {r : Bool × (VkResult × ℕ × List Handle) × Drivers}
    (h : s.callDown c = some r) :
    SameDrivers s r.2.2 ∧ (c.unloads r.1 r.2.1.1 = true → Counted c.fill r.2.2) := by
  unfold Drivers.callDown at h
  split_ifs at h
  · obtain ⟨q, hq, rfl⟩ := Option.map_eq_some_iff.1 h
    obtain ⟨hsame, hcounted⟩ := terminatorEnumeratePhysicalDevices_spec hq
    refine ⟨hsame, fun hunloads => hcounted ?_⟩
    simpa [DriversEnumeration.unloads] using (Bool.and_eq_true_iff.1 hunloads).2
  · obtain ⟨q, hq, h⟩ := Option.bind_eq_some_iff.1 h
    obtain ⟨hsame, -⟩ := terminatorEnumeratePhysicalDevices_spec hq
    split_ifs at h with hres
    · obtain rfl := Option.some.inj h
      exact ⟨hsame, fun hunloads => by simp [DriversEnumeration.unloads] at hunloads⟩
    · obtain ⟨f, hf, rfl⟩ := Option.map_eq_some_iff.1 h
      obtain ⟨hsame', hcounted⟩ := terminatorEnumeratePhysicalDevices_spec hf
      by_cases hfill : f.1.1 = .success
      · rw [if_neg (not_not.2 hfill)]
        exact ⟨hsame.trans hsame', fun _ => hcounted (Or.inl hfill)⟩
      · rw [if_pos hfill]
        exact ⟨hsame.trans hsame', fun hunloads => by simp [DriversEnumeration.unloads] at hunloads⟩

end CallDown

/-! ### The unloading -/

section Unloading

/-- From `s` to `s'` only things of the drivers `gone` are destroyed. -/
structure OnlyDestroys (gone : ℕ → Prop) (s s' : Drivers) : Prop where
  log : ∃ l, s'.log = s.log ++ l ∧ ∀ e ∈ l, ∀ i, e.driver = some i → gone i
  scannedList : ∀ i, ¬ gone i → s'.scannedList[i]? = s.scannedList[i]?
  scannedLength : s'.scannedList.length = s.scannedList.length
  term : s'.term = s.term

variable {gone gone' : ℕ → Prop} {s s' s'' : Drivers}

theorem OnlyDestroys.refl (s : Drivers) : OnlyDestroys gone s s :=
  ⟨⟨[], (List.append_nil _).symm, by simp⟩, fun _ _ => rfl, rfl, rfl⟩

theorem OnlyDestroys.mono (h : OnlyDestroys gone s s') (hgone : ∀ i, gone i → gone' i) : OnlyDestroys gone' s s' := by
  obtain ⟨l, hl, hd⟩ := h.log
  exact ⟨⟨l, hl, fun e he i hi => hgone i (hd e he i hi)⟩, fun i hi => h.scannedList i fun hg => hi (hgone i hg),
    h.scannedLength, h.term⟩

theorem OnlyDestroys.trans (h : OnlyDestroys gone s s') (h' : OnlyDestroys gone s' s'') :
    OnlyDestroys gone s s'' := by
  obtain ⟨l, hl, hd⟩ := h.log
  obtain ⟨l', hl', hd'⟩ := h'.log
  refine ⟨⟨l ++ l', ?_, fun e he => ?_⟩, fun i hi => ?_, h'.scannedLength.trans h.scannedLength, h'.term.trans h.term⟩
  · rw [hl', hl, List.append_assoc]
  · rcases List.mem_append.1 he with he | he
    · exact hd e he
    · exact hd' e he
  · rw [h'.scannedList i hi, h.scannedList i hi]

theorem unloadPreloaded_spec (gone : ℕ → Prop) (s : Drivers) (libName : Option String) :
    OnlyDestroys gone s (s.unloadPreloaded libName) ∧ (s.unloadPreloaded libName).icdTermsCount = s.icdTermsCount := by
  unfold Drivers.unloadPreloaded
  split
  · exact ⟨.refl s, rfl⟩
  · refine ⟨⟨⟨_, rfl, fun e he i hi => ?_⟩, fun _ _ => rfl, rfl, rfl⟩, rfl⟩
    obtain ⟨handle, -, rfl⟩ := List.mem_map.1 he
    cases hi

theorem loaderIcdDestroy_spec (s : Drivers) (t : DeviceIcdTerm) :
    OnlyDestroys (· = t.scannedIcd) s (s.loaderIcdDestroy t) := by
  have hlog : (s.loaderIcdDestroy t).log =
      s.log ++ (t.logicalDeviceList.map (TearDown.freeDevice t.scannedIcd) ++ [.freeIcdTerm t.scannedIcd]) :=
    List.append_assoc _ _ _
  refine ⟨⟨_, hlog, fun e he i hi => ?_⟩, fun _ _ => rfl, rfl, rfl⟩
  rcases List.mem_append.1 he with he | he
  · obtain ⟨dev, -, rfl⟩ := List.mem_map.1 he
    exact (Option.some.inj hi).symm
  · obtain rfl := List.mem_singleton.1 he
    exact (Option.some.inj hi).symm

theorem unloadDriver_spec (s : Drivers) (t : DeviceIcdTerm) :
    OnlyDestroys (· = t.scannedIcd) s (s.unloadDriver t) ∧
      (t.scannedIcd < s.scannedList.length → (s.unloadDriver t).icdTermsCount = s.icdTermsCount - 1) := by
  unfold Drivers.unloadDriver
  split
  · rename_i hnone
    exact ⟨.refl s, fun hlt => absurd (List.getElem?_eq_none_iff.1 hnone) (Nat.not_le.2 hlt)⟩
  · rename_i scanned hscanned
    -- the instance goes, then the driver, then the libraries
    generalize hs₁ : (if t.icdInstance ≠ nullHandle then
        { s with log := s.log ++ [.destroyInstance t.scannedIcd t.icdInstance] } else s : Drivers) = s₁
    have hinst : OnlyDestroys (· = t.scannedIcd) s s₁ ∧ s₁.icdTermsCount = s.icdTermsCount := by
      subst hs₁
      split_ifs
      · refine ⟨⟨⟨_, rfl, fun e he i hi => ?_⟩, fun _ _ => rfl, rfl, rfl⟩, rfl⟩
        obtain rfl := List.mem_singleton.1 he
        exact (Option.some.inj hi).symm
      · exact ⟨.refl s, rfl⟩
    have hdestroy := loaderIcdDestroy_spec s₁ t
    obtain ⟨hpreloaded, hcount⟩ := unloadPreloaded_spec (· = t.scannedIcd) (s₁.loaderIcdDestroy t) scanned.libName
    have hcount' : (s₁.loaderIcdDestroy t).icdTermsCount = s₁.icdTermsCount - 1 := rfl
    refine ⟨(hinst.1.trans (hdestroy.trans hpreloaded)).trans ⟨⟨_, rfl, fun e he i hi => ?_⟩, fun i hi => ?_, ?_, rfl⟩,
      fun _ => ?_⟩
    · obtain ⟨handle, -, rfl⟩ := List.mem_map.1 he
      exact (Option.some.inj hi).symm
    · exact List.getElem?_set_ne (Ne.symm hi)
    · exact List.length_set
    · show ((s₁.loaderIcdDestroy t).unloadPreloaded scanned.libName).icdTermsCount = _
      rw [hcount, hcount', hinst.2]

/-- **The loop**: the drivers with devices stay, and things of the others only are destroyed. -/
theorem unloadDrivers_spec (ts : List DeviceIcdTerm) (s : Drivers) :
    (unloadDrivers ts s).1 = ts.filter (·.physicalDeviceCount ≠ 0) ∧
      OnlyDestroys (fun i => ∃ t ∈ ts, t.scannedIcd = i ∧ t.physicalDeviceCount = 0) s (unloadDrivers ts s).2 := by
  induction ts generalizing s with
  | nil => exact ⟨rfl, .refl s⟩
  | cons t ts ih =>
    have htail : ∀ i, (∃ u ∈ ts, u.scannedIcd = i ∧ u.physicalDeviceCount = 0) →
        ∃ u ∈ t :: ts, u.scannedIcd = i ∧ u.physicalDeviceCount = 0 := fun i ⟨u, hu, hi⟩ =>
      ⟨u, List.mem_cons_of_mem _ hu, hi⟩
    unfold unloadDrivers
    by_cases ht : t.physicalDeviceCount = 0
    · rw [if_pos ht, List.filter_cons_of_neg (by simpa using ht)]
      obtain ⟨hkept, hrest⟩ := ih (s.unloadDriver t)
      refine ⟨hkept, ?_⟩
      apply OnlyDestroys.trans _ (hrest.mono htail)
      exact (unloadDriver_spec s t).1.mono fun i hi => ⟨t, List.mem_cons_self, hi.symm, ht⟩
    · rw [if_neg ht, List.filter_cons_of_pos (by simpa using ht)]
      obtain ⟨hkept, hrest⟩ := ih s
      exact ⟨congrArg (t :: ·) hkept, hrest.mono htail⟩

/-- The drivers that stay are counted. -/
theorem unloadDrivers_count (ts : List DeviceIcdTerm) (s : Drivers) (k : ℕ)
    (hscanned : ∀ t ∈ ts, t.scannedIcd < s.scannedList.length) (hcount : s.icdTermsCount = k + ts.length) :
    (unloadDrivers ts s).2.icdTermsCount = k + (unloadDrivers ts s).1.length := by
  induction ts generalizing s k with
  | nil => exact hcount
  | cons t ts ih =>
    rw [List.length_cons] at hcount
    have htail := fun u hu => hscanned u (List.mem_cons_of_mem t hu)
    unfold unloadDrivers
    by_cases ht : t.physicalDeviceCount = 0
    · rw [if_pos ht]
      obtain ⟨hdestroys, hless⟩ := unloadDriver_spec s t
      apply ih
      · intro u hu
        rw [hdestroys.scannedLength]
        exact htail u hu
      · have hlt := hless (hscanned t List.mem_cons_self)
        omega
    · rw [if_neg ht]
      have h := ih s (k + 1) htail (by omega)
      show (unloadDrivers ts s).2.icdTermsCount = k + ((unloadDrivers ts s).1.length + 1)
      omega

theorem unloadDriversWithoutPhysicalDevices_wellFormed (hs : s.WellFormed) :
    s.unloadDriversWithoutPhysicalDevices.WellFormed := by
  obtain ⟨hkept, hdestroys⟩ := unloadDrivers_spec s.icdTerms s
  have hsub : (unloadDrivers s.icdTerms s).1.Sublist s.icdTerms := by
    rw [hkept]
    exact List.filter_sublist
  refine ⟨hs.nodup.sublist (hsub.map _), fun t ht => ?_, ?_⟩
  · show t.scannedIcd < (unloadDrivers s.icdTerms s).2.scannedList.length
    rw [hdestroys.scannedLength]
    exact hs.scanned t (hsub.subset ht)
  · have h := unloadDrivers_count s.icdTerms s 0 hs.scanned (by rw [hs.count, Nat.zero_add])
    rwa [Nat.zero_add] at h

end Unloading

/-! ### One enumeration -/

/-- **An enumeration keeps the drivers in use exactly if they all report devices.** -/
theorem keepsDrivers_iff_reports (s : Option Drivers) (call : DriversCall) :
    KeepsDrivers s call ↔ ReportsInUse s call := by
  cases call with
  | createDevice physicalDevice driver chain => exact Iff.rfl
  | destroyDevice dev => exact Iff.rfl
  | enumeratePhysicalDevices c =>
    constructor
    · intro hkeep t r ht hr hunloads icd hicd huse hnone
      have hexec : t.enumeratePhysicalDevices c = some r.2.2.unloadDriversWithoutPhysicalDevices := by
        rw [Drivers.enumeratePhysicalDevices, hr, Option.map_some, if_pos hunloads]
      obtain ⟨⟨icd', hicd', heq⟩, -⟩ := (hkeep t _ ht hexec).kept icd hicd huse
      have hcounted := (callDown_spec hr).2 hunloads
      have hmem : icd' ∈ (unloadDrivers r.2.2.icdTerms r.2.2).1 := hicd'
      rw [(unloadDrivers_spec _ _).1] at hmem
      obtain ⟨hmem, hcount⟩ := List.mem_filter.1 hmem
      have hzero := hcounted icd' hmem
      rw [scannedIcd_of_uncounted heq, hnone] at hzero
      exact of_decide_eq_true hcount hzero
    · intro hreports t t' ht ht'
      obtain ⟨r, hr, rfl⟩ := Option.map_eq_some_iff.1 ht'
      obtain ⟨hsame, hcounted⟩ := callDown_spec hr
      by_cases hunloads : c.unloads r.1 r.2.1.1 = true
      · rw [if_pos hunloads]
        have hcounted := hcounted hunloads
        obtain ⟨hkept, hdestroys⟩ := unloadDrivers_spec r.2.2.icdTerms r.2.2
        obtain ⟨l, hl, hgone⟩ := hdestroys.log
        -- a driver in use is none of those without devices
        have hstays : ∀ icd ∈ t.icdTerms, icd.logicalDeviceList ≠ [] →
            ¬ ∃ u ∈ r.2.2.icdTerms, u.scannedIcd = icd.scannedIcd ∧ u.physicalDeviceCount = 0 := by
          rintro icd hicd huse ⟨u, hu, hid, hzero⟩
          rw [hcounted u hu, hid] at hzero
          exact hreports t r ht hr hunloads icd hicd huse (List.eq_nil_of_length_eq_zero hzero)
        refine ⟨fun icd hicd huse => ⟨?_, ?_⟩, l, ?_, fun icd hicd huse e he hdriver => ?_⟩
        · obtain ⟨u, hu, heq⟩ := hsame.exists_mem hicd
          refine ⟨u, ?_, heq⟩
          show u ∈ (unloadDrivers r.2.2.icdTerms r.2.2).1
          rw [hkept]
          refine List.mem_filter.2 ⟨hu, decide_eq_true fun hzero => ?_⟩
          exact hstays icd hicd huse ⟨u, hu, scannedIcd_of_uncounted heq, hzero⟩
        · have h := hdestroys.scannedList icd.scannedIcd (hstays icd hicd huse)
          rw [hsame.scannedList] at h
          exact h
        · rw [← hsame.log]
          exact hl
        · exact hstays icd hicd huse (hgone e he _ hdriver)
      · rw [if_neg hunloads]
        refine ⟨fun icd hicd huse => ⟨hsame.exists_mem hicd, by rw [hsame.scannedList]⟩, [], ?_, by simp⟩
        rw [hsame.log, List.append_nil]

/-! ### Defined histories -/

section Defined

variable {owner : Handle → ℕ} {s : Drivers} {a : TerminatorAnswers} {ws : List TermEntry}

/-- The drivers report distinct handles, each its own. -/
structure TerminatorAnswers.Own (owner : Handle → ℕ) (a : TerminatorAnswers) : Prop where
  nodup : ∀ i, (a.reported i).Nodup
  own : ∀ i, ∀ d ∈ a.reported i, owner d = i

/-- The objects `ws` are stored, and their drivers are there. -/
structure Drivers.Usable (owner : Handle → ℕ) (s : Drivers) (ws : List TermEntry) : Prop where
  wellFormed : s.WellFormed
  stores : s.term.Stores ws
  own : ∀ w ∈ ws, w.2.thisIcdTerm = owner w.2.physDev
  present : ∀ w ∈ ws, w.2.thisIcdTerm ∈ s.icdTerms.map (·.scannedIcd)

theorem devices_eq (a : TerminatorAnswers) (ts : List DeviceIcdTerm) (order : Option DeviceOrder) (req : TermRequests) :
    ∃ k, TermEnumeration.devices ⟨ts.map a.icd, order, req⟩ =
      (ts.take k).flatMap fun t => (a.reported t.scannedIcd).map fun d => ⟨t.scannedIcd, d⟩ := by
  obtain ⟨k, heq, -⟩ := queryIcds_eq a ts .success
  refine ⟨k, ?_⟩
  rw [TermEnumeration.devices, heq, reportedDevices, List.flatMap_map]

/-- Every device is from a driver of the list, which reports it. -/
theorem mem_devices {ts : List DeviceIcdTerm} {order : Option DeviceOrder} {req : TermRequests}
    {d : PhysicalDeviceTerm} (hd : d ∈ TermEnumeration.devices ⟨ts.map a.icd, order, req⟩) :
    d.thisIcdTerm ∈ ts.map (·.scannedIcd) ∧ d.physDev ∈ a.reported d.thisIcdTerm := by
  obtain ⟨k, heq⟩ := devices_eq a ts order req
  rw [heq] at hd
  obtain ⟨t, ht, hd⟩ := List.mem_flatMap.1 hd
  obtain ⟨p, hp, rfl⟩ := List.mem_map.1 hd
  exact ⟨List.mem_map.2 ⟨t, List.mem_of_mem_take ht, rfl⟩, hp⟩

theorem reportsOwn_of_own (ha : a.Own owner) (hs : s.WellFormed) (order : Option DeviceOrder) (req : TermRequests) :
    ReportsOwn owner ⟨s.icdTerms.map a.icd, order, req⟩ := by
  refine ⟨?_, fun d hd => (ha.own _ _ (mem_devices hd).2).symm⟩
  obtain ⟨k, heq⟩ := devices_eq a s.icdTerms order req
  have hmap : ∀ t : DeviceIcdTerm,
      ((a.reported t.scannedIcd).map fun d => PhysicalDeviceTerm.mk t.scannedIcd d).map (·.physDev) =
        a.reported t.scannedIcd := by
    intro t
    rw [List.map_map]
    exact List.map_id _
  rw [heq, List.map_flatMap]
  simp only [hmap]
  apply List.nodup_flatMap.2
  refine ⟨fun t _ => ha.nodup _, ?_⟩
  have hids : ((s.icdTerms.take k).map (·.scannedIcd)).Nodup := hs.nodup.sublist ((List.take_sublist _ _).map _)
  refine (List.pairwise_map.1 hids).imp fun {t t'} hne => ?_
  intro d hd hd'
  exact hne ((ha.own _ _ hd).symm.trans (ha.own _ _ hd'))

/-- The set-up is defined, and the objects are those of drivers that are there. -/
theorem setupTermPhysDevs_usable (ha : a.Own owner) (hs : s.Usable owner ws) :
    ∃ r ws', s.setupTermPhysDevs a = some r ∧ r.2.Usable owner ws' ∧
      (r.1 = .success → ∀ w ∈ ws', a.reported w.2.thisIcdTerm ≠ []) := by
  have hown := reportsOwn_of_own ha hs.wellFormed a.linuxSort a.req
  obtain ⟨r, ws', hr, hout⟩ := setupLoaderTermPhysDevs_outcome hs.stores hown.nodup (sameOwners_of_own hs.own hown)
  have heq : s.setupTermPhysDevs a = some (r.1, { s with
      term := r.2, icdTerms := noteCounts s.icdTerms (queryIcds (s.icdTerms.map a.icd) .success).2 }) := by
    rw [Drivers.setupTermPhysDevs, if_neg (by rw [hs.wellFormed.count]; omega)]
    show Option.map _ (setupLoaderTermPhysDevs s.term _) = _
    rw [hr, Option.map_some]
  obtain ⟨hsame, -, -⟩ := setupTermPhysDevs_spec heq
  have hids : ∀ i, i ∈ s.icdTerms.map (·.scannedIcd) →
      i ∈ (noteCounts s.icdTerms (queryIcds (s.icdTerms.map a.icd) .success).2).map (·.scannedIcd) := by
    intro i hi
    rw [map_scannedIcd, noteCounts_uncounted, ← map_scannedIcd]
    exact hi
  refine ⟨_, ws', heq, ⟨hsame.wellFormed hs.wellFormed, hout.stores hs.stores, hout.owned hs.own hown, ?_⟩, ?_⟩
  · intro w hw
    apply hids
    cases hout with
    | failed res s' hres harray hcount hget l hfreed hl => exact hs.present w hw
    | replaced new s' hobjects horigin hkept hstores l hfreed hl =>
      exact (mem_devices (hobjects.mem_iff.1 (List.mem_map.2 ⟨w, hw, rfl⟩))).1
  · intro hsuccess w hw
    cases hout with
    | failed res s' hres harray hcount hget l hfreed hl => exact absurd hsuccess hres
    | replaced new s' hobjects horigin hkept hstores l hfreed hl =>
      exact List.ne_nil_of_mem (mem_devices (hobjects.mem_iff.1 (List.mem_map.2 ⟨w, hw, rfl⟩))).2

theorem terminatorEnumeratePhysicalDevices_usable (ha : a.Own owner) (hs : s.Usable owner ws) (capacity : Option ℕ) :
    ∃ r ws', s.terminatorEnumeratePhysicalDevices a capacity = some r ∧ r.2.Usable owner ws' ∧
      (r.1.1 = .success ∨ r.1.1 = .incomplete → ∀ w ∈ ws', a.reported w.2.thisIcdTerm ≠ []) := by
  obtain ⟨q, ws', hq, husable, hreported⟩ := setupTermPhysDevs_usable ha hs
  obtain ⟨-, hinc, -⟩ := setupTermPhysDevs_spec hq
  refine ⟨_, ws', by rw [Drivers.terminatorEnumeratePhysicalDevices, hq, Option.map_some], ?_, ?_⟩
  · split_ifs <;> exact husable
  · split_ifs with hres
    · intro h
      rcases h with h | h
      · exact absurd h hres
      · exact absurd h hinc
    · exact fun _ => hreported (not_not.1 hres)

theorem callDown_usable {c : DriversEnumeration} (hquery : c.query.Own owner) (hfill : c.fill.Own owner)
    (hs : s.Usable owner ws) :
    ∃ r ws', s.callDown c = some r ∧ r.2.2.Usable owner ws' ∧
      (c.unloads r.1 r.2.1.1 = true → ∀ w ∈ ws', c.fill.reported w.2.thisIcdTerm ≠ []) := by
  unfold Drivers.callDown
  split_ifs
  · obtain ⟨q, ws', hq, husable, hreported⟩ := terminatorEnumeratePhysicalDevices_usable hfill hs c.capacity
    refine ⟨_, ws', by rw [hq, Option.map_some], husable, fun hunloads => hreported ?_⟩
    simpa [DriversEnumeration.unloads] using (Bool.and_eq_true_iff.1 hunloads).2
  · obtain ⟨q, ws', hq, husable, -⟩ := terminatorEnumeratePhysicalDevices_usable hquery hs none
    rw [hq, Option.bind_some]
    split_ifs with hres
    · exact ⟨_, ws', rfl, husable, fun hunloads => by simp [DriversEnumeration.unloads] at hunloads⟩
    · obtain ⟨f, ws'', hf, husable', hreported⟩ := terminatorEnumeratePhysicalDevices_usable hfill husable (some q.1.2.1)
      refine ⟨_, ws'', by rw [hf, Option.map_some], ?_⟩
      split_ifs with hres'
      · exact ⟨husable', fun hunloads => by simp [DriversEnumeration.unloads] at hunloads⟩
      · exact ⟨husable', fun _ => hreported (Or.inl (not_not.1 hres'))⟩

/-- An enumeration is defined, and unloads no driver whose objects are stored. -/
theorem enumeratePhysicalDevices_usable {c : DriversEnumeration} (hquery : c.query.Own owner)
    (hfill : c.fill.Own owner) (hs : s.Usable owner ws) :
    ∃ s' ws', s.enumeratePhysicalDevices c = some s' ∧ s'.Usable owner ws' := by
  obtain ⟨r, ws', hr, husable, hreported⟩ := callDown_usable hquery hfill hs
  refine ⟨_, ws', by rw [Drivers.enumeratePhysicalDevices, hr, Option.map_some], ?_⟩
  split_ifs with hunloads
  · have hcounted := (callDown_spec hr).2 hunloads
    obtain ⟨hkept, hdestroys⟩ := unloadDrivers_spec r.2.2.icdTerms r.2.2
    refine ⟨unloadDriversWithoutPhysicalDevices_wellFormed husable.wellFormed, ?_, husable.own, fun w hw => ?_⟩
    · show (unloadDrivers r.2.2.icdTerms r.2.2).2.term.Stores ws'
      rw [hdestroys.term]
      exact husable.stores
    · obtain ⟨t, ht, hid⟩ := List.mem_map.1 (husable.present w hw)
      show w.2.thisIcdTerm ∈ (unloadDrivers r.2.2.icdTerms r.2.2).1.map (·.scannedIcd)
      rw [hkept]
      refine List.mem_map.2 ⟨t, List.mem_filter.2 ⟨ht, decide_eq_true fun hzero => ?_⟩, hid⟩
      rw [hcounted t ht, hid] at hzero
      exact hreported hunloads w hw (List.eq_nil_of_length_eq_zero hzero)
  · exact husable

/-- Devices that come and go leave the drivers where they are. -/
theorem Drivers.Usable.congr (hs : s.Usable owner ws) {s' : Drivers}
    (hids : s'.icdTerms.map (·.scannedIcd) = s.icdTerms.map (·.scannedIcd)) (hcount : s'.icdTermsCount = s.icdTermsCount)
    (hscanned : s'.scannedList = s.scannedList) (hterm : s'.term = s.term) : s'.Usable owner ws := by
  refine ⟨⟨?_, fun t ht => ?_, ?_⟩, ?_, hs.own, fun w hw => ?_⟩
  · rw [hids]
    exact hs.wellFormed.nodup
  · have hmem : t.scannedIcd ∈ s.icdTerms.map (·.scannedIcd) := hids ▸ List.mem_map.2 ⟨t, ht, rfl⟩
    obtain ⟨u, hu, hid⟩ := List.mem_map.1 hmem
    rw [hscanned, ← hid]
    exact hs.wellFormed.scanned u hu
  · rw [hcount, hs.wellFormed.count]
    simpa using (congrArg List.length hids).symm
  · rw [hterm]
    exact hs.stores
  · rw [hids]
    exact hs.present w hw

theorem removeLogicalDevice_ids (dev : ℕ) (ts : List DeviceIcdTerm) :
    (removeLogicalDevice dev ts).map (·.scannedIcd) = ts.map (·.scannedIcd) := by
  induction ts with
  | nil => rfl
  | cons t ts ih =>
    unfold removeLogicalDevice
    split_ifs
    · rfl
    · exact congrArg (t.scannedIcd :: ·) ih

theorem addLogicalDevice_ids (icd dev : ℕ) (ts : List DeviceIcdTerm) :
    (addLogicalDevice icd dev ts).map (·.scannedIcd) = ts.map (·.scannedIcd) := by
  rw [addLogicalDevice, List.map_map]
  apply List.map_congr_left
  intro t _
  show (if t.scannedIcd = icd then _ else t : DeviceIcdTerm).scannedIcd = t.scannedIcd
  split_ifs <;> rfl

theorem createDevice_usable (hs : s.Usable owner ws) {physicalDevice : Handle}
    (hp : physicalDevice ∈ s.term.stored) (driver chain : VkResult) :
    ∃ s', s.createDevice physicalDevice driver chain = some s' ∧ s'.Usable owner ws := by
  obtain ⟨w, hw, rfl⟩ := hs.stores.mem_stored hp
  have hthere : ¬ (s.icdTerms.all fun t => t.scannedIcd ≠ w.2.thisIcdTerm) = true := by
    intro hall
    obtain ⟨t, ht, hid⟩ := List.mem_map.1 (hs.present w hw)
    exact of_decide_eq_true (List.all_eq_true.1 hall t ht) hid
  refine ⟨_, by rw [Drivers.createDevice, hs.stores.holds.get w hw, Option.bind_some, if_neg hthere], ?_⟩
  refine hs.congr ?_ rfl rfl rfl
  dsimp only
  split_ifs <;> simp only [removeLogicalDevice_ids, addLogicalDevice_ids]

/-- An application that creates devices on enumerated objects, with drivers that report handles of their own. -/
def DriversUsed (owner : Handle → ℕ) (s : Option Drivers) : DriversCall → Prop
  | .enumeratePhysicalDevices c => c.query.Own owner ∧ c.fill.Own owner
  | .createDevice physicalDevice _ _ => ∀ t, s = some t → physicalDevice ∈ t.term.stored
  | .destroyDevice _ => True

theorem created_wellFormed {pCreateInfo : VkInstanceCreateInfo} {icds : List (ScannedIcd × ScannedLibrary)}
    (hreturned : (terminatorCreateInstance pCreateInfo (icds.map Prod.fst)).returned = true)
    (preloaded : List ScannedLibrary) : (Drivers.created pCreateInfo icds preloaded).WellFormed := by
  obtain ⟨out, loop, hloop, hend⟩ := loop_end pCreateInfo (icds.map Prod.fst)
  obtain ⟨-, hicdTerms, hicdTermsCount, -⟩ := terminatorCreateInstance_eq hloop hend.icdTermsCount
    (hend.destroyable_iff.2 ((returned_iff pCreateInfo _).1 hreturned))
  -- the drivers in the list are among those reached
  have hkeys : (terminatorCreateInstance pCreateInfo (icds.map Prod.fst)).icdTerms.map IcdTerm.key =
      (instances (·.acceptedInstance pCreateInfo) (reached pCreateInfo (icds.map Prod.fst))).reverse ∨
        (terminatorCreateInstance pCreateInfo (icds.map Prod.fst)).icdTerms = [] := by
    by_cases hres : resAtOut out loop = .success
    · rw [hicdTerms, if_pos hres]
      exact Or.inl (hend.success hres).2
    · rw [hicdTerms, if_neg hres]
      exact Or.inr rfl
  have hids : (Drivers.created pCreateInfo icds preloaded).icdTerms.map (·.scannedIcd) =
      ((terminatorCreateInstance pCreateInfo (icds.map Prod.fst)).icdTerms.map IcdTerm.key).map Prod.fst := by
    rw [Drivers.created, List.map_map, List.map_map]
    rfl
  refine ⟨?_, fun t ht => ?_, ?_⟩
  · rw [hids]
    rcases hkeys with hkeys | hkeys
    · rw [hkeys, List.map_reverse]
      exact List.nodup_reverse.2 ((reached_nodup pCreateInfo _).sublist (instances_fst_sublist _ _))
    · rw [hkeys]
      exact List.nodup_nil
  · have hmem : t.scannedIcd ∈ (Drivers.created pCreateInfo icds preloaded).icdTerms.map (·.scannedIcd) :=
      List.mem_map.2 ⟨t, ht, rfl⟩
    rw [hids] at hmem
    show t.scannedIcd < (icds.map Prod.snd).length
    rcases hkeys with hkeys | hkeys
    · rw [hkeys] at hmem
      obtain ⟨x, hx, hid⟩ := List.mem_map.1 hmem
      obtain ⟨icd, hicd, -⟩ := mem_instances.1 (List.mem_reverse.1 hx)
      have hlt := List.snd_lt_of_mem_zipIdx ((List.takeWhile_sublist _).subset hicd)
      rw [List.length_map] at hlt ⊢
      omega
    · rw [hkeys] at hmem
      cases hmem
  · show (terminatorCreateInstance pCreateInfo (icds.map Prod.fst)).icdTermsCount = List.length (List.map _ _)
    rw [List.length_map]
    exact hicdTermsCount

/-- **Every such history is defined**, after a `vkCreateInstance` that returned. -/
theorem driversDefined_run (owner : Handle → ℕ) (pCreateInfo : VkInstanceCreateInfo)
    (icds : List (ScannedIcd × ScannedLibrary)) (preloaded : List ScannedLibrary) (calls : List DriversCall)
    (hreturned : (terminatorCreateInstance pCreateInfo (icds.map Prod.fst)).returned = true)
    (hcalls : AllSteps driversStep (DriversUsed owner) (some (.created pCreateInfo icds preloaded)) calls) :
    (run driversStep (some (.created pCreateInfo icds preloaded)) calls).isSome := by
  have hinit : ∃ s ws, some (Drivers.created pCreateInfo icds preloaded) = some s ∧ s.Usable owner ws :=
    ⟨_, [], rfl, created_wellFormed hreturned preloaded, .init, by simp, by simp⟩
  have hstep : ∀ (s : Option Drivers) (call : DriversCall), (∃ t ws, s = some t ∧ t.Usable owner ws) →
      DriversUsed owner s call → ∃ t ws, driversStep s call = some t ∧ t.Usable owner ws := by
    rintro _ call ⟨t, ws, rfl, ht⟩ hcall
    cases call with
    | enumeratePhysicalDevices c => exact enumeratePhysicalDevices_usable hcall.1 hcall.2 ht
    | createDevice physicalDevice driver chain =>
      obtain ⟨t', ht', husable⟩ := createDevice_usable ht (hcall t rfl) driver chain
      exact ⟨t', ws, ht', husable⟩
    | destroyDevice dev => exact ⟨_, ws, rfl, ht.congr (removeLogicalDevice_ids dev _) rfl rfl rfl⟩
  obtain ⟨s, ws, hs, -⟩ := run_invariant driversStep hstep hinit hcalls
  rw [hs]
  rfl

end Defined

/-! ### Any history -/

/-- **No driver in use is destroyed exactly in the histories where they report devices.** -/
theorem keepsDrivers_iff (s : Drivers) (calls : List DriversCall) :
    AllSteps driversStep KeepsDrivers (some s) calls ↔ AllSteps driversStep ReportsInUse (some s) calls := by
  have hstep : ∀ t c, (fun _ : Option Drivers => True) t → KeepsDrivers t c →
      (fun _ : Option Drivers => True) (driversStep t c) := fun _ _ _ _ => trivial
  exact allSteps_congr driversStep hstep (fun t c _ => keepsDrivers_iff_reports t c) trivial calls

/-- Drivers that report the handles `ds`, in an enumeration that fills an array of two. -/
def enumerateReporting (ds : ℕ → List Handle) : DriversCall :=
  let answers : TerminatorAnswers :=
    { count := fun i => (.success, (ds i).length)
      fill := fun i _ => (.success, (ds i).length, fun k => (ds i).getD k nullHandle)
      linuxSort := none
      req := ⟨true, fun i => some (i + 5), fun _ => ⟨0, nullHandle⟩, true⟩
      configurations := none }
  .enumeratePhysicalDevices ⟨some 2, .unset, fun d => ⟨d, d, none⟩, answers, answers⟩

/-- Two drivers that pass, each with its library. -/
def twoDrivers : Drivers :=
  .created plainCreateInfo [(workingIcd 0, ⟨some "libone.so", some 1⟩), (workingIcd 1, ⟨some "libtwo.so", some 2⟩)] []

/-- A device is created on a driver that reports no physical device the next time: the driver is gone. -/
theorem not_keepsDrivers :
    ¬ ∀ (s : Drivers) (calls : List DriversCall), AllSteps driversStep KeepsDrivers (some s) calls := by
  intro h
  obtain ⟨-, -, hkeep, -⟩ := h twoDrivers
    [enumerateReporting fun i => [10 + i], .createDevice 6 .success .success,
      enumerateReporting fun i => if i = 0 then [] else [11]]
  generalize hs : driversStep (driversStep (some twoDrivers) (enumerateReporting fun i => [10 + i]))
    (.createDevice 6 .success .success) = s at hkeep
  have hbefore : s.map (fun t => t.icdTerms.map fun icd => (icd.scannedIcd, icd.logicalDeviceList)) =
      some [(1, []), (0, [0])] := by
    subst hs
    decide
  have hafter : (driversStep s (enumerateReporting fun i => if i = 0 then [] else [11])).map
      (fun t => t.icdTerms.map (·.scannedIcd)) = some [1] := by
    subst hs
    decide
  obtain ⟨t, rfl, hdrivers⟩ := Option.map_eq_some_iff.1 hbefore
  obtain ⟨t', ht', hremain⟩ := Option.map_eq_some_iff.1 hafter
  have hmem : (0, [0]) ∈ t.icdTerms.map fun icd => (icd.scannedIcd, icd.logicalDeviceList) := by
    rw [hdrivers]
    decide
  obtain ⟨icd, hicd, heq⟩ := List.mem_map.1 hmem
  obtain ⟨hid, huse⟩ := Prod.mk.inj heq
  obtain ⟨⟨icd', hicd', hsame⟩, -⟩ := (hkeep t t' rfl ht').kept icd hicd (by rw [huse]; simp)
  have hgone : icd'.scannedIcd ∈ t'.icdTerms.map (·.scannedIcd) := List.mem_map.2 ⟨icd', hicd', rfl⟩
  rw [hremain, scannedIcd_of_uncounted hsame, hid] at hgone
  exact absurd hgone (by decide)

end VulkanLoader
