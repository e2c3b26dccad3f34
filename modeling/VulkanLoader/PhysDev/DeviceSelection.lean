import VulkanLoader.Lib.Lists
import VulkanLoader.PhysDev.Unload
import VulkanLoader.PhysDev.TermStability
import VulkanLoader.Settings.LoaderSettings

/-!
# The devices that the settings file selects

`loader_apply_settings_device_configurations` writes, for each configuration, the first device that it describes.  It
notes which devices were added, but does not look at the note: two configurations that describe one device write it
twice, which is more than the count that the call without an array reports if there are no other devices.
-/

namespace VulkanLoader

/-- What a driver says of a physical device.  `idProperties` are the UUIDs of the device and of the driver; a driver
without `vkGetPhysicalDeviceProperties2` leaves them zero. -/
structure PhysicalDeviceDetails where
  apiVersion : ℕ
  driverVersion : UInt32
  idProperties : Option (Uuid × Uuid)

/-- What devices and configurations are compared by. -/
abbrev DeviceKey := Uuid × Uuid × UInt32

/-- The UUIDs and the version of a device; devices before Vulkan 1.1 are not compared. -/
def PhysicalDeviceDetails.key (d : PhysicalDeviceDetails) : Option DeviceKey :=
  if d.apiVersion < vkApiVersion11 then none
  else
    let (deviceUUID, driverUUID) := d.idProperties.getD (Vector.replicate 16 0, Vector.replicate 16 0)
    some (deviceUUID, driverUUID, d.driverVersion)

/-- The UUIDs and the version of a configuration. -/
def DeviceConfiguration.key (c : DeviceConfiguration) : DeviceKey := (c.deviceUUID, c.driverUUID, c.driverVersion)

/-- The comparison of a configuration with a device. -/
def DeviceConfiguration.describes (c : DeviceConfiguration) (d : PhysicalDeviceDetails) : Bool := d.key == some c.key

/-- The configurations as the terminator meets them.  The query of the extensions of a device allocates on the stack
only, so no memory is asked for. -/
def configurationsOf (configurations : List DeviceConfiguration) (details : Handle → PhysicalDeviceDetails) :
    DeviceConfigurations where
  count := configurations.length
  outOfMemory := false
  describes i p := configurations[i]?.any (·.describes (details p))

/-- The terminator's devices as `setup_loader_term_phys_devs` leaves them when it succeeds, and what their drivers say
of them. -/
structure TermDevices where
  term : TermState
  details : Handle → PhysicalDeviceDetails
  count : term.stored.length = term.physDevCountTerm
  distinct : term.stored.Nodup

/-- Every enumeration that succeeds leaves such devices. -/
def TermDevices.ofSetup {s : TermState} {c : TermEnumeration} {r : VkResult × TermState} (h : StableObjects s c r)
    (hr : r.1 = .success) (details : Handle → PhysicalDeviceDetails) : TermDevices :=
  ⟨r.2, details, (h.entries hr).1, (h.entries hr).2.1⟩

namespace TermDevices

variable (devices : TermDevices) (configurations : List DeviceConfiguration)

/-- `terminator_EnumeratePhysicalDevices` after the set-up, with these configurations. -/
def enumerate (capacity : Option ℕ) : VkResult × ℕ × List Handle :=
  terminatorAnswer (some (configurationsOf configurations devices.details)) devices.term capacity

/-- The place of the first configuration that matches the device. -/
def firstMatch (p : Handle) : Option ℕ := configurations.findIdx? (·.describes (devices.details p))

/-- What is written is stored and matched, each device once, in the order of the configurations; and a call with room
for the reported count writes no more and is complete. -/
structure SelectsAsCounted : Prop where
  stored : ∀ capacity, ∀ p ∈ (devices.enumerate configurations (some capacity)).2.2, p ∈ devices.term.stored
  matched : ∀ capacity, ∀ p ∈ (devices.enumerate configurations (some capacity)).2.2,
    (devices.firstMatch configurations p).isSome
  once : ∀ capacity, (devices.enumerate configurations (some capacity)).2.2.Nodup
  inOrder : ∀ capacity, ((devices.enumerate configurations (some capacity)).2.2.filterMap
    (devices.firstMatch configurations)).Pairwise (· ≤ ·)
  complete : ∀ capacity, (devices.enumerate configurations none).2.1 = capacity →
    (devices.enumerate configurations (some capacity)).1 ≠ .incomplete
  bounded : ∀ capacity, (devices.enumerate configurations none).2.1 = capacity →
    (devices.enumerate configurations (some capacity)).2.2.length ≤ capacity

/-- The device that a configuration selects. -/
def pick (c : DeviceConfiguration) : Option Handle :=
  devices.term.stored.find? fun p => c.describes (devices.details p)

end TermDevices

/-! ### What is written -/

section Written

variable {capacity : ℕ}

/-- The loop writes the devices that are found, as far as there is room. -/
theorem writeConfigured_eq (conf : DeviceConfigurations) (physDevs : List Handle) (is : List ℕ) (written : List Handle)
    (hroom : written.length ≤ capacity) :
    writeConfigured conf physDevs capacity is written =
      if (written ++ is.filterMap fun i => physDevs.find? (conf.describes i)).length ≤ capacity then
        (.success, written ++ is.filterMap fun i => physDevs.find? (conf.describes i))
      else (.incomplete, (written ++ is.filterMap fun i => physDevs.find? (conf.describes i)).take capacity) := by
  induction is generalizing written with
  | nil =>
    rw [List.filterMap_nil, List.append_nil, if_pos hroom]
    rfl
  | cons i is ih =>
    unfold writeConfigured
    rw [List.filterMap_cons]
    rcases physDevs.find? (conf.describes i) with _ | p
    · exact ih written hroom
    · dsimp only
      by_cases hfull : written.length ≥ capacity
      · have hlen : capacity = written.length := le_antisymm hfull hroom
        rw [if_pos hfull, if_neg (by simp; omega), hlen, List.take_left]
      · rw [if_neg hfull, ih _ (by simp; omega), List.append_assoc, List.singleton_append]

end Written

namespace TermDevices

variable {devices : TermDevices} {configurations : List DeviceConfiguration}

/-- The devices that the configurations select, one for each that matches. -/
def picked (devices : TermDevices) (configurations : List DeviceConfiguration) : List Handle :=
  configurations.filterMap devices.pick

/-- The loop over the indices selects what the configurations do. -/
theorem picked_eq (devices : TermDevices) (configurations : List DeviceConfiguration) :
    ((List.range configurations.length).filterMap fun i =>
      devices.term.stored.find? ((configurationsOf configurations devices.details).describes i)) =
        devices.picked configurations := by
  have hsame : (fun i => devices.term.stored.find? ((configurationsOf configurations devices.details).describes i)) =
      fun i => configurations[i]?.bind devices.pick := by
    funext i
    rcases hi : configurations[i]? with _ | c
    · exact List.find?_eq_none.2 fun p _ => by simp [configurationsOf, hi]
    · simp [configurationsOf, hi, pick]
  rw [hsame]
  exact Lib.filterMap_range_getElem? devices.pick configurations

/-- What a call with an array writes. -/
theorem enumerate_some (capacity : ℕ) :
    (devices.enumerate configurations (some capacity)).2.2 = (devices.picked configurations).take capacity ∧
      ((devices.enumerate configurations (some capacity)).1 = .incomplete ↔
        capacity < (devices.picked configurations).length) := by
  have hwritten := writeConfigured_eq (configurationsOf configurations devices.details) devices.term.stored
    (List.range configurations.length) [] (Nat.zero_le capacity)
  rw [List.nil_append, picked_eq] at hwritten
  unfold enumerate terminatorAnswer loaderApplySettingsDeviceConfigurations
  dsimp only
  rw [if_neg (show ¬ (configurationsOf configurations devices.details).outOfMemory = true from Bool.false_ne_true)]
  rw [show (configurationsOf configurations devices.details).count = configurations.length from rfl, hwritten]
  by_cases hroom : (devices.picked configurations).length ≤ capacity
  · rw [if_pos hroom]
    rcases hpicked : devices.picked configurations with _ | ⟨p, ps⟩
    · simp
    · rw [hpicked] at hroom
      exact ⟨(List.take_of_length_le hroom).symm, by simp; simpa using hroom⟩
  · rw [if_neg hroom]
    exact ⟨rfl, by simp; omega⟩

/-- The count that a call without an array reports. -/
theorem enumerate_none :
    (devices.enumerate configurations none).2.1 = min configurations.length devices.term.stored.length := by
  unfold enumerate terminatorAnswer
  rw [devices.count, Nat.min_def]
  dsimp only
  rw [show (configurationsOf configurations devices.details).count = configurations.length from rfl]
  split_ifs <;> omega

/-! ### Configurations that select one device -/

theorem describes_iff {c : DeviceConfiguration} {d : PhysicalDeviceDetails} : c.describes d = true ↔ d.key = some c.key :=
  beq_iff_eq

theorem pick_spec {c : DeviceConfiguration} {p : Handle} (h : devices.pick c = some p) :
    p ∈ devices.term.stored ∧ (devices.details p).key = some c.key :=
  ⟨List.mem_of_find?_eq_some h, describes_iff.1 (List.find?_some (p := fun p => c.describes (devices.details p)) h)⟩

/-- Configurations select by their keys. -/
theorem pick_congr {c c' : DeviceConfiguration} (h : c.key = c'.key) : devices.pick c = devices.pick c' := by
  unfold pick DeviceConfiguration.describes
  rw [h]

/-- The configuration matches a device that is stored. -/
def matchesStored (devices : TermDevices) (c : DeviceConfiguration) : Bool :=
  devices.term.stored.any fun p => c.describes (devices.details p)

theorem matchesStored_iff {c : DeviceConfiguration} : devices.matchesStored c = true ↔ ∃ p, devices.pick c = some p := by
  unfold matchesStored pick
  rw [← Option.isSome_iff_exists, List.find?_isSome, List.any_eq_true]

/-- No two of the configurations that match a stored device have the same UUIDs and version. -/
def DistinctKeys (devices : TermDevices) (configurations : List DeviceConfiguration) : Prop :=
  ((configurations.filter devices.matchesStored).map DeviceConfiguration.key).Nodup

theorem nodup_picked_iff : (devices.picked configurations).Nodup ↔ devices.DistinctKeys configurations := by
  unfold picked DistinctKeys List.Nodup
  rw [List.pairwise_filterMap, List.pairwise_map, List.pairwise_filter]
  refine List.Pairwise.iff fun c c' => ?_
  simp only [matchesStored_iff]
  constructor
  · rintro h ⟨p, hp⟩ ⟨p', hp'⟩ hkey
    rw [pick_congr hkey] at hp
    exact h p (pick_congr hkey ▸ hp) p hp rfl
  · rintro h p hp p' hp' rfl
    refine h ⟨p, hp⟩ ⟨p, hp'⟩ (Option.some.inj ?_)
    rw [← (pick_spec hp).2, (pick_spec hp').2]

/-- Where the keys are distinct, a configuration is the first one that matches the device it selects. -/
theorem firstMatch_pick (h : devices.DistinctKeys configurations) {i : ℕ} {c : DeviceConfiguration} {p : Handle}
    (hi : configurations[i]? = some c) (hp : devices.pick c = some p) : devices.firstMatch configurations p = some i := by
  obtain ⟨hlt, rfl⟩ := List.getElem?_eq_some_iff.1 hi
  unfold firstMatch
  rw [List.findIdx?_eq_some_iff_getElem]
  refine ⟨hlt, describes_iff.2 (pick_spec hp).2, fun j hj hmatch => ?_⟩
  have hkey : configurations[j].key = configurations[i].key := by
    have hboth := (describes_iff.1 hmatch).symm.trans (pick_spec hp).2
    exact Option.some.inj hboth
  have hnodup := nodup_picked_iff.2 h
  unfold picked List.Nodup at hnodup
  rw [List.pairwise_filterMap, List.pairwise_iff_getElem] at hnodup
  exact hnodup j i _ hlt hj p (by rw [pick_congr hkey, hp]) p hp rfl

theorem pairwise_firstMatch (h : devices.DistinctKeys configurations) :
    ((devices.picked configurations).filterMap (devices.firstMatch configurations)).Pairwise (· ≤ ·) := by
  unfold picked
  rw [← Lib.filterMap_range_getElem? devices.pick, List.filterMap_filterMap, List.pairwise_filterMap]
  have hplace : ∀ i a, ((configurations[i]?.bind devices.pick).bind (devices.firstMatch configurations)) = some a →
      a = i := by
    intro i a ha
    obtain ⟨p, hp, ha⟩ := Option.bind_eq_some_iff.1 ha
    obtain ⟨c, hc, hp⟩ := Option.bind_eq_some_iff.1 hp
    rw [firstMatch_pick h hc hp] at ha
    exact (Option.some.inj ha).symm
  refine List.pairwise_lt_range.imp fun {i j} hij a ha b hb => ?_
  rw [hplace i a ha, hplace j b hb]
  exact hij.le

theorem length_picked_le (h : devices.DistinctKeys configurations) :
    (devices.picked configurations).length ≤ min configurations.length devices.term.stored.length := by
  refine le_min (List.length_filterMap_le _ _) ?_
  refine ((nodup_picked_iff.2 h).subperm fun p hp => ?_).length_le
  obtain ⟨c, -, hpick⟩ := List.mem_filterMap.1 hp
  exact (pick_spec hpick).1

/-- **The selection agrees with its count** if and only if no two of the configurations that match a device have the
same UUIDs and version. -/
theorem selectsAsCounted_iff (devices : TermDevices) (configurations : List DeviceConfiguration) :
    devices.SelectsAsCounted configurations ↔ devices.DistinctKeys configurations := by
  constructor
  · intro h
    have honce := h.once (devices.picked configurations).length
    rw [(enumerate_some _).1, List.take_length] at honce
    exact nodup_picked_iff.1 honce
  · intro h
    have hlen := length_picked_le h
    have hmem : ∀ {capacity p}, p ∈ (devices.enumerate configurations (some capacity)).2.2 →
        ∃ c ∈ configurations, devices.pick c = some p := fun hp => by
      rw [(enumerate_some _).1] at hp
      exact List.mem_filterMap.1 (List.mem_of_mem_take hp)
    refine ⟨fun capacity p hp => ?_, fun capacity p hp => ?_, fun capacity => ?_, fun capacity => ?_,
      fun capacity hcapacity => ?_, fun capacity _ => ?_⟩
    · obtain ⟨c, -, hpick⟩ := hmem hp
      exact (pick_spec hpick).1
    · obtain ⟨c, hc, hpick⟩ := hmem hp
      exact List.findIdx?_isSome.trans (List.any_eq_true.2 ⟨c, hc, describes_iff.2 (pick_spec hpick).2⟩)
    · rw [(enumerate_some _).1]
      exact (nodup_picked_iff.2 h).sublist (List.take_sublist _ _)
    · rw [(enumerate_some _).1]
      exact (pairwise_firstMatch h).sublist ((List.take_sublist _ _).filterMap _)
    · rw [enumerate_none] at hcapacity
      intro hincomplete
      have hmore := (enumerate_some capacity).2.1 hincomplete
      omega
    · rw [(enumerate_some _).1]
      exact List.length_take_le _ _

/-- An instance with one device, whose UUIDs are zero. -/
def oneDevice : TermDevices where
  term := ⟨Lib.Heap.empty.alloc 5 ⟨0, 10⟩, [5], 1, 1⟩
  details _ := ⟨vkApiVersion11, 0, none⟩
  count := rfl
  distinct := List.nodup_singleton 5

/-- The configuration of the device, given twice: the call without an array reports one device, the device does not fit
into an array of that size, and is written twice into a larger one. -/
theorem not_selectsAsCounted :
    let configurations := [DeviceConfiguration.zero, .zero]
    (oneDevice.enumerate configurations none).2.1 = 1 ∧ (oneDevice.enumerate configurations (some 1)).1 = .incomplete ∧
      (oneDevice.enumerate configurations (some 2)).2.2 = [5, 5] ∧ ¬ oneDevice.SelectsAsCounted configurations := by
  refine ⟨rfl, rfl, rfl, fun h => ?_⟩
  exact h.complete 1 rfl rfl

end TermDevices

end VulkanLoader
