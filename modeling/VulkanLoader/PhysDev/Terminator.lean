import VulkanLoader.Base
import VulkanLoader.Lib.Heap
import VulkanLoader.Lib.Runs

/-!
# Physical devices of the terminator

`setup_loader_term_phys_devs`: the drivers are asked for their devices, and the list of terminator objects is made anew
from their answers.  Drivers are named by numbers, which stand for the `loader_icd_term` pointers.

With `LOADER_ENABLE_LINUX_SORT` the list is sorted unless the instance turns this off; without it, or turned off, it
is in the order of the drivers.  Both paths are modelled.
-/

namespace VulkanLoader

open Lib

/-- `struct loader_physical_device_term`; its dispatch table is the same in all objects of an instance. -/
structure PhysicalDeviceTerm where
  thisIcdTerm : ℕ
  physDev : Handle
  deriving DecidableEq

/-- The fields of `loader_instance` that hold the objects. -/
structure TermState where
  heap : Heap PhysicalDeviceTerm
  /-- `NULL` is the array without entries. -/
  physDevsTerm : List Handle
  physDevCountTerm : ℕ
  totalGpuCount : ℕ

namespace TermState

/-- The entries in use. -/
def stored (s : TermState) : List Handle := s.physDevsTerm.take s.physDevCountTerm

/-- The instance as it is made. -/
def init : TermState := ⟨.empty, [], 0, 0⟩

end TermState

/-- The answers of a driver to the two calls of its `vkEnumeratePhysicalDevices`: the result and the count of the
first, and for an array of any size, the result, the count and the contents of the array after the second. -/
structure IcdEnumeration where
  icdTerm : ℕ
  count : VkResult × ℕ
  fill : ℕ → VkResult × ℕ × (ℕ → Handle)

/-- What the loop over the drivers notes for one of them.  An error other than out of memory leaves it no device, and
no more devices are read than the array has room for. -/
def IcdEnumeration.query (a : IcdEnumeration) : VkResult × List Handle :=
  match a.count with
  | (.success, allocatedCount) =>
    match a.fill allocatedCount with
    | (.success, deviceCount, physicalDevices) =>
      (.success, (List.range (if deviceCount > allocatedCount then allocatedCount else deviceCount)).map physicalDevices)
    | (res, _, _) => (res, [])
  | (res, _) => (res, [])

/-- The loop over the drivers: `res` after it, and `icd_phys_dev_array`, as far as it was filled.  Out of memory leaves
the function. -/
def queryIcds : List IcdEnumeration → VkResult → VkResult × List (ℕ × List Handle)
  | [], res => (res, [])
  | a :: as, _ =>
    match a.query with
    | (.errorOutOfHostMemory, _) => (.errorOutOfHostMemory, [])
    | (res, physicalDevices) =>
      let r := queryIcds as res
      (r.1, (a.icdTerm, physicalDevices) :: r.2)

/-- The devices of all drivers. -/
def reportedDevices (icdPhysDevArray : List (ℕ × List Handle)) : List PhysicalDeviceTerm :=
  icdPhysDevArray.flatMap fun icd => icd.2.map fun d => ⟨icd.1, d⟩

/-- What the allocator does in one call: the request for the array, those for the objects by their index, with the
contents that fresh memory happens to have, and that for the array to sort. -/
structure TermRequests where
  newPhysDevs : Bool
  object : ℕ → Option Handle
  contents : ℕ → PhysicalDeviceTerm
  sortedDeviceInfo : Bool

/-- `linux_env_var_default_device` and `qsort`: the devices in an order that depends on their properties. -/
structure DeviceOrder where
  sort : List PhysicalDeviceTerm → List PhysicalDeviceTerm
  perm : ∀ l, (sort l).Perm l

/-- An enumeration, and what it meets; `linuxSort` is `none` where the list is not sorted. -/
structure TermEnumeration where
  icds : List IcdEnumeration
  linuxSort : Option DeviceOrder
  req : TermRequests

/-- The locals that describe the new list. -/
structure NewPhysDevs where
  heap : Heap PhysicalDeviceTerm
  newPhysDevs : List Handle
  newPhysDevsCount : ℕ

/-- The first entry of a list that is an object of `d`. -/
def oldPhysDev (h : Heap PhysicalDeviceTerm) (d : Handle) : List Handle → Option (Option Handle)
  | [] => some none
  | p :: ps => (h.get p).bind fun t => if d = t.physDev then some (some p) else oldPhysDev h d ps

/-- `find_phys_dev`, which skips null entries. -/
def findPhysDev (h : Heap PhysicalDeviceTerm) (d : Handle) (physDevs : List Handle) : Option (Option Handle) :=
  oldPhysDev h d (physDevs.filter (· ≠ nullHandle))

/-- `check_and_add_to_new_phys_devs`. -/
def checkAndAddToNewPhysDevs (old : List Handle) (object : ℕ → Option Handle) (t : PhysicalDeviceTerm)
    (n : NewPhysDevs) : Option (VkResult × NewPhysDevs) :=
  (findPhysDev n.heap t.physDev (n.newPhysDevs.take n.newPhysDevsCount)).bind fun
  | some _ => some (.success, n)
  | none =>
    (findPhysDev n.heap t.physDev old).bind fun found =>
    (n.newPhysDevs[n.newPhysDevsCount]?).bind fun entry =>
    match found with
    | some p =>
      some (.success, { n with
        newPhysDevs := n.newPhysDevs.set n.newPhysDevsCount p, newPhysDevsCount := n.newPhysDevsCount + 1 })
    | none =>
      if entry ≠ nullHandle then some (.success, n)
      else
        match object n.newPhysDevsCount with
        | none => some (.errorOutOfHostMemory, n)
        | some wish =>
          some (.success,
            { heap := n.heap.alloc wish t
              newPhysDevs := n.newPhysDevs.set n.newPhysDevsCount (n.heap.place wish)
              newPhysDevsCount := n.newPhysDevsCount + 1 })

/-- The loop of the unsorted path. -/
def addPhysDevs (old : List Handle) (object : ℕ → Option Handle) :
    List PhysicalDeviceTerm → NewPhysDevs → Option (VkResult × NewPhysDevs)
  | [], n => some (.success, n)
  | t :: ts, n =>
    (checkAndAddToNewPhysDevs old object t n).bind fun r =>
      if r.1 = .errorOutOfHostMemory then some r else addPhysDevs old object ts r.2

/-- The first loop of the sorted path makes `k` objects from the index `dev` on. -/
def allocObjects (req : TermRequests) : ℕ → ℕ → Heap PhysicalDeviceTerm → List Handle × Bool × Heap PhysicalDeviceTerm
  | 0, _, h => ([], true, h)
  | k + 1, dev, h =>
    match req.object dev with
    | none => ([], false, h)
    | some wish =>
      let r := allocObjects req k (dev + 1) (h.alloc wish (req.contents dev))
      (h.place wish :: r.1, r.2)

/-- `linux_read_sorted_physical_devices`. -/
def linuxReadSortedPhysicalDevices (order : DeviceOrder) (req : TermRequests) (devices : List PhysicalDeviceTerm)
    (sortedDeviceTerm : List Handle) (h : Heap PhysicalDeviceTerm) : Option (VkResult × Heap PhysicalDeviceTerm) :=
  if req.sortedDeviceInfo = false then some (.errorOutOfHostMemory, h)
  else (h.putAll (sortedDeviceTerm.zip (order.sort devices))).map fun h => (.success, h)

/-- The second loop of the sorted path: an object of a device that has an old one gives way to it. -/
def keepOldPhysDevs (old : List Handle) :
    List Handle → Heap PhysicalDeviceTerm → Option (List Handle × Heap PhysicalDeviceTerm)
  | [], h => some ([], h)
  | p :: ps, h =>
    (h.get p).bind fun t =>
    (oldPhysDev h t.physDev old).bind fun
    | some q => (h.free p).bind fun h => (keepOldPhysDevs old ps h).map fun r => (q :: r.1, r.2)
    | none => (keepOldPhysDevs old ps h).map fun r => (p :: r.1, r.2)

/-- The sorted path. -/
def sortedPhysDevs (old : List Handle) (order : DeviceOrder) (req : TermRequests) (devices : List PhysicalDeviceTerm)
    (h : Heap PhysicalDeviceTerm) : Option (VkResult × NewPhysDevs) :=
  match allocObjects req devices.length 0 h with
  | (made, false, h) =>
    some (.errorOutOfHostMemory, ⟨h, made ++ List.replicate (devices.length - made.length) nullHandle, 0⟩)
  | (made, true, h) =>
    (linuxReadSortedPhysicalDevices order req devices made h).bind fun r =>
      if r.1 = .errorOutOfHostMemory then some (r.1, ⟨r.2, made, 0⟩)
      else (keepOldPhysDevs old made r.2).map fun k => (r.1, ⟨k.2, k.1, devices.length⟩)

/-- `out:` after the array was made. -/
def swapPhysDevs (s : TermState) (res : VkResult) (n : NewPhysDevs) : Option (VkResult × TermState) :=
  if res ≠ .success then
    (n.heap.freeAll ((n.newPhysDevs.filter (· ≠ nullHandle)).filter (· ∉ s.stored))).map fun heap =>
      (res, { s with heap := heap, totalGpuCount := 0 })
  else
    (n.heap.freeAll (s.stored.filter (· ∉ n.newPhysDevs.take n.newPhysDevsCount))).map fun heap =>
      (res,
        { heap := heap
          physDevsTerm := n.newPhysDevs
          physDevCountTerm := n.newPhysDevsCount
          totalGpuCount := n.newPhysDevsCount })

/-- `setup_loader_term_phys_devs`; `none` is undefined behaviour. -/
def setupLoaderTermPhysDevs (s : TermState) (c : TermEnumeration) : Option (VkResult × TermState) :=
  let (res, icdPhysDevArray) := queryIcds c.icds .success
  let devices := reportedDevices icdPhysDevArray
  if res = .errorOutOfHostMemory then some (res, { s with totalGpuCount := 0 })
  else if devices.length = 0 then some (.errorInitializationFailed, { s with totalGpuCount := 0 })
  else if c.req.newPhysDevs = false then some (.errorOutOfHostMemory, { s with totalGpuCount := 0 })
  else
    match c.linuxSort with
    | some order => (sortedPhysDevs s.stored order c.req devices s.heap).bind fun r => swapPhysDevs s r.1 r.2
    | none =>
      (addPhysDevs s.stored c.req.object devices ⟨s.heap, List.replicate devices.length nullHandle, 0⟩).bind fun r =>
        swapPhysDevs s r.1 r.2

end VulkanLoader
