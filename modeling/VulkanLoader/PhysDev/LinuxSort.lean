import VulkanLoader.Base
import VulkanLoader.Lib.Comparators
import Mathlib.Data.UInt

/-!
# The order of physical devices on Linux (`loader_linux.c`)

Devices are sorted by type, by their place on the PCI bus and by their ids; the device that `VK_LOADER_DEVICE_SELECT`
names comes first.  Of several devices of that name only the first one is the default of an array.  Device groups are
sorted by their first device; each group has a default of its own.
-/

namespace VulkanLoader

open Lib

inductive VkPhysicalDeviceType where
  | discreteGpu
  | integratedGpu
  | virtualGpu
  | other
  | cpu
  /-- What a driver may answer besides. -/
  | unknown (code : ℤ)
  deriving DecidableEq

/-- `determine_priority_type_value`. -/
def determinePriorityTypeValue : VkPhysicalDeviceType → ℕ
  | .discreteGpu => 10
  | .integratedGpu => 5
  | .virtualGpu => 3
  | .other => 2
  | .cpu => 1
  | .unknown _ => 0

/-- `device_type_compare`. -/
def deviceTypeCompare (a b : VkPhysicalDeviceType) : ℤ :=
  if determinePriorityTypeValue a > determinePriorityTypeValue b then -1
  else if determinePriorityTypeValue b > determinePriorityTypeValue a then 1
  else 0

/-- The place of a device on the bus. -/
structure PciBusInfo where
  pciDomain : UInt32
  pciBus : UInt32
  pciDevice : UInt32
  pciFunction : UInt32
  deriving DecidableEq

/-- `struct LinuxSortedDeviceInfo`; the fields of the bus count only if `has_pci_bus_info` is set. -/
structure LinuxSortedDeviceInfo where
  physicalDevice : Handle
  defaultDevice : Bool
  deviceType : VkPhysicalDeviceType
  vendorId : UInt32
  deviceId : UInt32
  pciBusInfo : Option PciBusInfo
  deriving DecidableEq

/-- A record of zeros. -/
def LinuxSortedDeviceInfo.zero : LinuxSortedDeviceInfo := ⟨nullHandle, false, .other, 0, 0, none⟩

/-- The lower one comes first. -/
def compareLowToHigh (left right : UInt32) : ℤ := if left < right then -1 else if left > right then 1 else 0

/-- Devices with a place on the bus come before those without. -/
def comparePciBusInfo : Option PciBusInfo → Option PciBusInfo → ℤ
  | some _, none => -1
  | none, some _ => 1
  | some left, some right =>
    thenCompare (compareLowToHigh left.pciDomain right.pciDomain)
      (thenCompare (compareLowToHigh left.pciBus right.pciBus)
        (thenCompare (compareLowToHigh left.pciDevice right.pciDevice)
          (compareLowToHigh left.pciFunction right.pciFunction)))
  | none, none => 0

/-- `compare_devices`. -/
def compareDevices (left right : LinuxSortedDeviceInfo) : ℤ :=
  if left.defaultDevice then -1
  else if right.defaultDevice then 1
  else
    thenCompare (deviceTypeCompare left.deviceType right.deviceType)
      (thenCompare (comparePciBusInfo left.pciBusInfo right.pciBusInfo)
        -- somehow a tie
        (compareLowToHigh (left.deviceId ^^^ left.vendorId) (right.deviceId ^^^ right.vendorId)))

/-- `struct loader_physical_device_group_term`. -/
structure LinuxSortedGroup where
  physicalDevices : List Handle
  internalDeviceInfo : List LinuxSortedDeviceInfo

/-- The record at index `0`, which is cleared in a group without devices. -/
def LinuxSortedGroup.firstInfo (group : LinuxSortedGroup) : LinuxSortedDeviceInfo :=
  group.internalDeviceInfo.headD .zero

/-- `compare_device_groups`: as `compare_devices`, on the first devices. -/
def compareDeviceGroups (a b : LinuxSortedGroup) : ℤ := compareDevices a.firstInfo b.firstInfo

/-! ### The arrays -/

/-- What a driver answers about a device: its properties, the names of its extensions, and its place on the bus, if
`vkGetPhysicalDeviceProperties2` is there. -/
structure LinuxDeviceAnswers where
  physicalDevice : Handle
  deviceType : VkPhysicalDeviceType
  vendorId : UInt32
  deviceId : UInt32
  extensions : List String
  pciBusInfo : Option PciBusInfo

/-- The record of a device, before there is a default. -/
def readDeviceInfo (answers : LinuxDeviceAnswers) : LinuxSortedDeviceInfo where
  physicalDevice := answers.physicalDevice
  defaultDevice := false
  deviceType := answers.deviceType
  vendorId := answers.vendorId
  deviceId := answers.deviceId
  pciBusInfo := if answers.extensions.contains "VK_EXT_pci_bus_info" then answers.pciBusInfo else none

/-- `linux_env_var_default_device`; `selection` is what is read from the variable, if there are two numbers in it. -/
def linuxEnvVarDefaultDevice (selection : Option (UInt32 × UInt32)) : List LinuxSortedDeviceInfo →
    List LinuxSortedDeviceInfo
  | [] => []
  | info :: infos =>
    if selection = some (info.vendorId, info.deviceId) then { info with defaultDevice := true } :: infos
    else info :: linuxEnvVarDefaultDevice selection infos

/-- The array that `linux_read_sorted_physical_devices` sorts. -/
def linuxDeviceInfos (selection : Option (UInt32 × UInt32)) (devices : List LinuxDeviceAnswers) :
    List LinuxSortedDeviceInfo :=
  linuxEnvVarDefaultDevice selection (devices.map readDeviceInfo)

/-- A group in the array that `linux_sort_physical_device_groups` sorts: its devices were sorted before. -/
structure IsLinuxGroup (selection : Option (UInt32 × UInt32)) (devices : List LinuxDeviceAnswers)
    (group : LinuxSortedGroup) : Prop where
  sorted : SortedBy compareDevices (linuxDeviceInfos selection devices) group.internalDeviceInfo
  physicalDevices : group.physicalDevices = group.internalDeviceInfo.map (·.physicalDevice)

/-- The device is the one that is selected. -/
def LinuxDeviceAnswers.isSelected (selection : Option (UInt32 × UInt32)) (answers : LinuxDeviceAnswers) : Bool :=
  selection == some (answers.vendorId, answers.deviceId)

/-! ### The comparison -/

section Compare

/-- The places on the bus, low to high; a device without one comes last. -/
def pciRank : Option PciBusInfo → List ℕ
  | some info => [0, info.pciDomain.toNat, info.pciBus.toNat, info.pciDevice.toNat, info.pciFunction.toNat]
  | none => [1, 0, 0, 0, 0]

/-- What the comparison goes by: a default first, then the criteria, one after the other. -/
def LinuxSortedDeviceInfo.rank (info : LinuxSortedDeviceInfo) : List ℕ :=
  (if info.defaultDevice then 0 else 1) :: (10 - determinePriorityTypeValue info.deviceType) ::
    (pciRank info.pciBusInfo ++ [(info.deviceId ^^^ info.vendorId).toNat])

theorem isOrder_compareLowToHigh (left right : UInt32) :
    IsOrder (compareLowToHigh left right) left.toNat right.toNat := by
  unfold compareLowToHigh IsOrder
  rw [← UInt32.lt_iff_toNat_lt, ← UInt32.lt_iff_toNat_lt]
  by_cases hlt : left < right
  · have hgt : ¬ right < left := UInt32.lt_asymm hlt
    simp [hlt, hgt]
  · by_cases hgt : right < left <;> simp [hlt, hgt]

theorem isOrder_deviceTypeCompare (a b : VkPhysicalDeviceType) :
    IsOrder (deviceTypeCompare a b) (10 - determinePriorityTypeValue a) (10 - determinePriorityTypeValue b) := by
  have hle : ∀ t : VkPhysicalDeviceType, determinePriorityTypeValue t ≤ 10 := by
    intro t
    cases t <;> exact of_decide_eq_true rfl
  have ha := hle a
  have hb := hle b
  unfold deviceTypeCompare IsOrder
  split_ifs with hgt hlt
  · exact ⟨iff_of_true (by decide) (by omega), iff_of_false (by decide) (by omega)⟩
  · exact ⟨iff_of_false (by decide) (by omega), iff_of_true (by decide) (by omega)⟩
  · exact ⟨iff_of_false (by decide) (by omega), iff_of_false (by decide) (by omega)⟩

/-- The criteria of a place on the bus, and what breaks their ties. -/
theorem isOrder_comparePciBusInfo (left right : Option PciBusInfo) {next : ℤ} {xs ys : List ℕ}
    (hnext : IsOrder next xs ys) :
    IsOrder (thenCompare (comparePciBusInfo left right) next) (pciRank left ++ xs) (pciRank right ++ ys) := by
  rcases left with _ | left <;> rcases right with _ | right
  · exact isOrder_cons _ (isOrder_cons _ (isOrder_cons _ (isOrder_cons _ (isOrder_cons _ hnext))))
  · exact isOrder_thenCompare (isOrder_one Nat.zero_lt_one) nofun
  · exact isOrder_thenCompare (isOrder_neg_one Nat.zero_lt_one) nofun
  · refine isOrder_cons 0 ?_
    dsimp only [comparePciBusInfo]
    rw [thenCompare_assoc, thenCompare_assoc, thenCompare_assoc]
    exact isOrder_thenCompare (isOrder_compareLowToHigh _ _) fun _ =>
      isOrder_thenCompare (isOrder_compareLowToHigh _ _) fun _ =>
        isOrder_thenCompare (isOrder_compareLowToHigh _ _) fun _ =>
          isOrder_thenCompare (isOrder_compareLowToHigh _ _) fun _ => hnext

variable {left right : LinuxSortedDeviceInfo}

theorem compareDevices_of_default (hleft : left.defaultDevice) : compareDevices left right = -1 := if_pos hleft

/-- Of two devices one of which is no default, `compare_devices` says how their ranks are ordered. -/
theorem compareDevices_comparesBy (h : ¬ (left.defaultDevice ∧ right.defaultDevice)) :
    ComparesBy compareDevices LinuxSortedDeviceInfo.rank left right := by
  unfold ComparesBy compareDevices LinuxSortedDeviceInfo.rank
  by_cases hleft : left.defaultDevice
  · have hright : ¬ right.defaultDevice := fun hright => h ⟨hleft, hright⟩
    rw [if_pos hleft, if_pos hleft, if_neg hright]
    exact isOrder_neg_one (List.cons_lt_cons_iff.2 (.inl Nat.zero_lt_one))
  · rw [if_neg hleft, if_neg hleft]
    by_cases hright : right.defaultDevice
    · rw [if_pos hright, if_pos hright]
      exact isOrder_one (List.cons_lt_cons_iff.2 (.inl Nat.zero_lt_one))
    · rw [if_neg hright, if_neg hright]
      exact isOrder_cons 1 (isOrder_thenCompare (isOrder_deviceTypeCompare _ _) fun _ =>
        isOrder_comparePciBusInfo _ _ (isOrder_singleton (isOrder_compareLowToHigh _ _)))

end Compare

/-! ### Arrays with a default -/

section Arrays

variable {α : Type*} {l : List α} {p : α → Bool}

/-- At most one place has the property. -/
theorem countP_le_one_iff :
    l.countP p ≤ 1 ↔ ∀ i j : Fin l.length, i ≠ j → ¬ (p (l.get i) ∧ p (l.get j)) := by
  have hpairwise : l.countP p ≤ 1 ↔ l.Pairwise fun a b => ¬ (p a ∧ p b) := by
    induction l with
    | nil => simp
    | cons a l ih =>
      rw [List.countP_cons, List.pairwise_cons]
      by_cases ha : p a
      · have hzero : l.countP p + 1 ≤ 1 ↔ l.countP p = 0 := by omega
        simp only [ha, if_true, true_and, hzero, List.countP_eq_zero]
        refine (and_iff_left_of_imp fun hnone => ?_).symm
        exact List.pairwise_of_forall_mem_list fun b hb _ _ h => hnone b hb h.1
      · simp [ha, ih]
  rw [hpairwise, List.pairwise_iff_getElem]
  constructor
  · intro h i j hij hboth
    rcases Nat.lt_or_gt_of_ne fun heq => hij (Fin.ext heq) with hlt | hgt
    · exact h i j i.2 j.2 hlt hboth
    · exact h j i j.2 i.2 hgt hboth.symm
  · intro h i j hi hj hij
    exact h ⟨i, hi⟩ ⟨j, hj⟩ fun heq => Nat.ne_of_lt hij (Fin.mk.inj heq)

/-- **The devices of an array are ordered** exactly if at most one is a default. -/
theorem ordersArray_compareDevices_iff (info : α → LinuxSortedDeviceInfo) :
    OrdersArray (fun a b => compareDevices (info a) (info b)) (fun a => (info a).defaultDevice) l ↔
      (l.countP fun a => (info a).defaultDevice) ≤ 1 := by
  rw [countP_le_one_iff]
  constructor
  · rintro h i j hij ⟨hi, hj⟩
    have hsign := h.antisymm i j hij
    have hi : (info l[i]).defaultDevice = true := hi
    have hj : (info l[j]).defaultDevice = true := hj
    rw [compareDevices_of_default hi, compareDevices_of_default hj] at hsign
    exact absurd hsign (by decide)
  · intro h
    have hby : ∀ i j : Fin l.length, i ≠ j →
        ComparesBy (fun a b => compareDevices (info a) (info b)) (fun a => (info a).rank) l[i] l[j] :=
      fun i j hij => compareDevices_comparesBy (h i j hij)
    refine ordersArray_of_comparesBy hby fun a _ b _ ha hb => ?_
    unfold LinuxSortedDeviceInfo.rank
    rw [if_pos ha, if_neg hb]
    exact List.cons_lt_cons_iff.2 (.inl Nat.zero_lt_one)

/-- The variable makes at most one record the default: the first one of the device that is selected. -/
theorem countP_linuxEnvVarDefaultDevice (selection : Option (UInt32 × UInt32)) (devices : List LinuxDeviceAnswers) :
    (linuxDeviceInfos selection devices).countP (·.defaultDevice) =
      if devices.any (·.isSelected selection) then 1 else 0 := by
  have hnone : ∀ devices : List LinuxDeviceAnswers, (devices.map readDeviceInfo).countP (·.defaultDevice) = 0 := by
    intro devices
    rw [List.countP_eq_zero]
    intro info hinfo
    obtain ⟨answers, -, rfl⟩ := List.mem_map.1 hinfo
    exact Bool.false_ne_true
  unfold linuxDeviceInfos
  induction devices with
  | nil => rfl
  | cons answers devices ih =>
    rw [List.map_cons, linuxEnvVarDefaultDevice, List.any_cons]
    by_cases hselected : selection = some ((readDeviceInfo answers).vendorId, (readDeviceInfo answers).deviceId)
    · have hthis : answers.isSelected selection = true := beq_iff_eq.2 hselected
      rw [if_pos hselected, hthis, Bool.true_or, if_pos rfl, List.countP_cons_of_pos rfl, hnone]
    · have hthis : answers.isSelected selection = false := beq_false_of_ne hselected
      rw [if_neg hselected, hthis, Bool.false_or, List.countP_cons_of_neg Bool.false_ne_true, ih]

theorem ordersArray_linuxDeviceInfos (selection : Option (UInt32 × UInt32)) (devices : List LinuxDeviceAnswers) :
    OrdersArray compareDevices (·.defaultDevice) (linuxDeviceInfos selection devices) := by
  refine (ordersArray_compareDevices_iff id).2 ?_
  change (linuxDeviceInfos selection devices).countP (·.defaultDevice) ≤ 1
  rw [countP_linuxEnvVarDefaultDevice]
  split_ifs <;> decide

/-- The first device of a group is a default exactly if a device of the group is selected. -/
theorem firstInfo_defaultDevice {selection : Option (UInt32 × UInt32)} {devices : List LinuxDeviceAnswers}
    {group : LinuxSortedGroup} (hgroup : IsLinuxGroup selection devices group) :
    group.firstInfo.defaultDevice = devices.any (·.isSelected selection) := by
  have hcount := countP_linuxEnvVarDefaultDevice selection devices
  have hfirst := (ordersArray_linuxDeviceInfos selection devices).first _ hgroup.sorted
  rw [← hgroup.sorted.perm.countP_eq] at hcount
  unfold LinuxSortedGroup.firstInfo
  rcases hinfos : group.internalDeviceInfo with _ | ⟨info, infos⟩
  · rw [hinfos] at hcount
    cases hany : devices.any (·.isSelected selection) with
    | false => rfl
    | true =>
      rw [hany] at hcount
      cases hcount
  · rw [hinfos] at hcount hfirst
    change info.defaultDevice = _
    cases hany : devices.any (·.isSelected selection) with
    | false =>
      rw [hany, if_neg Bool.false_ne_true, List.countP_eq_zero] at hcount
      exact Bool.eq_false_of_not_eq_true (hcount info List.mem_cons_self)
    | true =>
      rw [hany, if_pos rfl] at hcount
      obtain ⟨b, hb, hdefault⟩ := List.countP_pos_iff.1 (hcount ▸ Nat.zero_lt_one)
      rcases List.mem_cons.1 hb with rfl | hb
      · exact hdefault
      · exact (List.pairwise_cons.1 hfirst).1 b hb hdefault

end Arrays

/-- A default is less than itself. -/
theorem compareDevices_self (info : LinuxSortedDeviceInfo) : compareDevices info info = 0 ↔ ¬ info.defaultDevice := by
  by_cases hdefault : info.defaultDevice
  · rw [compareDevices_of_default hdefault]
    exact iff_of_false (by decide) (not_not_intro hdefault)
  · have hby : ComparesBy compareDevices LinuxSortedDeviceInfo.rank info info :=
      compareDevices_comparesBy fun h => hdefault h.1
    exact iff_of_true (hby.eq_zero.2 rfl) hdefault

section Groups

variable {selection : Option (UInt32 × UInt32)} {groupDevices : List (List LinuxDeviceAnswers)}
  {groups : List LinuxSortedGroup}

/-- The groups with a default are those with a device that is selected. -/
theorem countP_firstInfo_defaultDevice (hgroups : List.Forall₂ (IsLinuxGroup selection) groupDevices groups) :
    groups.countP (·.firstInfo.defaultDevice) =
      groupDevices.countP fun devices => devices.any (·.isSelected selection) := by
  induction hgroups with
  | nil => rfl
  | cons hgroup _ ih => rw [List.countP_cons, List.countP_cons, ih, firstInfo_defaultDevice hgroup]

end Groups

/-- **The devices and the groups are ordered** exactly if at most one group has a device that is selected.  No element
is less than itself exactly if there is no such device at all. -/
theorem ordersLinuxArrays_iff (selection : Option (UInt32 × UInt32)) (devices : List LinuxDeviceAnswers)
    (groupDevices : List (List LinuxDeviceAnswers)) (groups : List LinuxSortedGroup)
    (hgroups : List.Forall₂ (IsLinuxGroup selection) groupDevices groups) :
    (OrdersArray compareDevices (·.defaultDevice) (linuxDeviceInfos selection devices) ∧
        OrdersArray compareDeviceGroups (·.firstInfo.defaultDevice) groups ↔
      (groupDevices.countP fun devices => devices.any (·.isSelected selection)) ≤ 1) ∧
    ((∀ info ∈ linuxDeviceInfos selection devices, compareDevices info info = 0) ∧
        (∀ group ∈ groups, compareDeviceGroups group group = 0) ↔
      ¬ devices.any (·.isSelected selection) ∧
        (groupDevices.countP fun devices => devices.any (·.isSelected selection)) = 0) := by
  have hcount := countP_firstInfo_defaultDevice hgroups
  constructor
  · have hdevices := ordersArray_linuxDeviceInfos selection devices
    rw [and_iff_right hdevices, ← hcount]
    exact ordersArray_compareDevices_iff LinuxSortedGroup.firstInfo
  · refine and_congr ?_ ?_
    · have hnone : ¬ devices.any (·.isSelected selection) ↔
          (linuxDeviceInfos selection devices).countP (·.defaultDevice) = 0 := by
        rw [countP_linuxEnvVarDefaultDevice]
        split_ifs with hany <;> simp [hany]
      rw [hnone, List.countP_eq_zero]
      exact forall₂_congr fun info _ => compareDevices_self info
    · rw [← hcount, List.countP_eq_zero]
      exact forall₂_congr fun group _ => compareDevices_self group.firstInfo

section Selected

/-- A driver's answers about a device with the ids `10de:2684`. -/
def selectedGpu (physicalDevice : Handle) : LinuxDeviceAnswers :=
  ⟨physicalDevice, .discreteGpu, 0x10de, 0x2684, ["VK_EXT_pci_bus_info"], some ⟨0, physicalDevice.toUInt32, 0, 0⟩⟩

/-- The group of one such device. -/
def selectedGroup (physicalDevice : Handle) : LinuxSortedGroup :=
  ⟨[physicalDevice], [{ readDeviceInfo (selectedGpu physicalDevice) with defaultDevice := true }]⟩

theorem isLinuxGroup_selectedGroup (physicalDevice : Handle) :
    IsLinuxGroup (some (0x10de, 0x2684)) [selectedGpu physicalDevice] (selectedGroup physicalDevice) :=
  ⟨⟨.refl _, List.pairwise_singleton _ _⟩, rfl⟩

/-- A driver's answers about another device. -/
def otherGpu (deviceType : VkPhysicalDeviceType) (physicalDevice : Handle) : LinuxDeviceAnswers :=
  ⟨physicalDevice, deviceType, 0x8086, physicalDevice.toUInt32, [], none⟩

/-- The devices of two groups; the one that is selected is the last of its group. -/
def twoGroupDevices : List (List LinuxDeviceAnswers) :=
  [[otherGpu .integratedGpu 3, selectedGpu 1], [otherGpu .cpu 4, otherGpu .discreteGpu 2]]

/-- The two groups with their devices sorted. -/
def twoSortedGroups : List LinuxSortedGroup :=
  [⟨[1, 3], [{ readDeviceInfo (selectedGpu 1) with defaultDevice := true },
      readDeviceInfo (otherGpu .integratedGpu 3)]⟩,
    ⟨[2, 4], [readDeviceInfo (otherGpu .discreteGpu 2), readDeviceInfo (otherGpu .cpu 4)]⟩]

/-- Four devices in two groups, one of them selected. -/
theorem ordersLinuxArrays_iff_selected :
    OrdersArray compareDevices (·.defaultDevice) (linuxDeviceInfos (some (0x10de, 0x2684)) twoGroupDevices.flatten) ∧
      OrdersArray compareDeviceGroups (·.firstInfo.defaultDevice) twoSortedGroups := by
  have hfirst : IsLinuxGroup (some (0x10de, 0x2684)) [otherGpu .integratedGpu 3, selectedGpu 1]
      (twoSortedGroups.get ⟨0, by decide⟩) := ⟨⟨List.Perm.swap _ _ _, by decide⟩, rfl⟩
  have hsecond : IsLinuxGroup (some (0x10de, 0x2684)) [otherGpu .cpu 4, otherGpu .discreteGpu 2]
      (twoSortedGroups.get ⟨1, by decide⟩) := ⟨⟨List.Perm.swap _ _ _, by decide⟩, rfl⟩
  exact (ordersLinuxArrays_iff (some (0x10de, 0x2684)) twoGroupDevices.flatten twoGroupDevices twoSortedGroups
    (.cons hfirst (.cons hsecond .nil))).1.2 (by decide)

/-- Two groups, each of one device with the ids that are selected: either group comes before the other. -/
theorem not_ordersLinuxArrays :
    List.Forall₂ (IsLinuxGroup (some (0x10de, 0x2684))) [[selectedGpu 1], [selectedGpu 2]]
        [selectedGroup 1, selectedGroup 2] ∧
      ¬ OrdersArray compareDeviceGroups (·.firstInfo.defaultDevice) [selectedGroup 1, selectedGroup 2] := by
  refine ⟨.cons (isLinuxGroup_selectedGroup 1) (.cons (isLinuxGroup_selectedGroup 2) .nil), fun h => ?_⟩
  exact absurd (h.antisymm 0 1 (by decide)) (by decide)

end Selected

end VulkanLoader
