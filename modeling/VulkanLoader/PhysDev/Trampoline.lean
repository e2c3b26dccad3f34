import VulkanLoader.Base
import VulkanLoader.Lib.Heap
import VulkanLoader.Lib.Runs

/-!
# Physical devices of the trampoline

`setup_loader_tramp_phys_devs` and `setup_loader_tramp_phys_dev_groups`.  The wrappers live on a heap; a read through
a pointer that is not in use, and a `free` of one, is undefined behaviour, and the function returns `none` then.

The counts are below 2³¹: the two index arrays of the function, `alloca`ted, hold one `int32_t` for each device.
-/

namespace VulkanLoader

open Lib

/-- `struct loader_physical_device_tramp`.  Its dispatch table, instance and magic number are the same in all wrappers
of an instance. -/
structure PhysicalDeviceTramp where
  physDev : Handle
  deriving DecidableEq

/-- The fields of `loader_instance` that hold the wrappers. -/
structure TrampState where
  heap : Heap PhysicalDeviceTramp
  /-- `NULL` is the array without entries. -/
  physDevsTramp : List Handle
  physDevCountTramp : ℕ
  totalGpuCount : ℕ
  count_le : physDevCountTramp ≤ physDevsTramp.length

namespace TrampState

/-- The entries in use. -/
def stored (s : TrampState) : List Handle := s.physDevsTramp.take s.physDevCountTramp

/-- The instance as it is made. -/
def init : TrampState := ⟨.empty, [], 0, 0, Nat.le_refl _⟩

end TrampState

/-- What the allocator does in one call: the request for the array, and the address it proposes for the wrapper of the
device at an index, if it grants one. -/
structure TrampRequests where
  newPhysDevs : Bool
  wrapper : ℕ → Option Handle

/-- `old_to_new_index`, each entry beside the stored pointer of its index; `none` is `-1`. -/
def oldToNewIndex (h : Heap PhysicalDeviceTramp) (physDevs : List Handle) :
    List Handle → Option (List (Option ℕ × Handle))
  | [] => some []
  | p :: ps =>
    (h.get p).bind fun w => (oldToNewIndex h physDevs ps).map fun old => (physDevs.idxOf? w.physDev, p) :: old

/-- The first stored wrapper whose new index is `newIdx`. -/
def oldItem (old : List (Option ℕ × Handle)) (newIdx : ℕ) : Option Handle :=
  (old.find? (·.1 = some newIdx)).map (·.2)

/-- The path where nothing is new: `physDevs` is rewritten in place. -/
def useOldItems (old : List (Option ℕ × Handle)) (physDevs : List Handle) : List Handle :=
  physDevs.zipIdx.map fun d => (oldItem old d.2).getD d.1

/-- The first loop of the full path, from `newIdx` on: the entries of the new array, and whether it ran to its end. -/
def wrapPhysDevs (wrapper : ℕ → Option Handle) (old : List (Option ℕ × Handle)) :
    ℕ → List Handle → Heap PhysicalDeviceTramp → List Handle × Bool × Heap PhysicalDeviceTramp
  | _, [], h => ([], true, h)
  | newIdx, d :: ds, h =>
    match oldItem old newIdx with
    | some p =>
      let r := wrapPhysDevs wrapper old (newIdx + 1) ds h
      (p :: r.1, r.2)
    | none =>
      match wrapper newIdx with
      | none => ([], false, h)
      | some wish =>
        let r := wrapPhysDevs wrapper old (newIdx + 1) ds (h.alloc wish ⟨d⟩)
        (h.place wish :: r.1, r.2)

/-- The inner loop of the second loop: the first stored wrapper without a new index gets one. -/
def takeRemaining (newIdx : ℕ) : List (Option ℕ × Handle) → Option (Handle × List (Option ℕ × Handle))
  | [] => none
  | (none, p) :: old => some (p, (some newIdx, p) :: old)
  | (some j, p) :: old => (takeRemaining newIdx old).map fun r => (r.1, (some j, p) :: r.2)

/-- The second loop of the full path over the free entries from `newIdx` on: the entries, and how many it filled. -/
def keepRemaining : ℕ → ℕ → List (Option ℕ × Handle) → List Handle × ℕ
  | 0, _, _ => ([], 0)
  | slots + 1, newIdx, old =>
    match takeRemaining newIdx old with
    | none =>
      let r := keepRemaining slots (newIdx + 1) old
      (nullHandle :: r.1, r.2)
    | some (p, old) =>
      let r := keepRemaining slots (newIdx + 1) old
      (p :: r.1, r.2 + 1)

theorem keepRemaining_count_le (slots newIdx : ℕ) (old : List (Option ℕ × Handle)) :
    (keepRemaining slots newIdx old).2 ≤ (keepRemaining slots newIdx old).1.length := by
  induction slots generalizing newIdx old with
  | zero => exact Nat.le_refl _
  | succ slots ih =>
    unfold keepRemaining
    rcases takeRemaining newIdx old with _ | ⟨p, old'⟩
    · exact Nat.le_succ_of_le (ih _ _)
    · exact Nat.succ_le_succ (ih _ _)

/-- `setup_loader_tramp_phys_devs`: the result, `phys_devs` and the instance after it. -/
def setupLoaderTrampPhysDevs (s : TrampState) (physDevs : List Handle) (req : TrampRequests) :
    Option (VkResult × List Handle × TrampState) :=
  if physDevs = [] then some (.success, physDevs, s)
  else
    let newCount := max s.totalGpuCount physDevs.length
    (oldToNewIndex s.heap physDevs s.stored).bind fun old =>
    if old.countP (·.1.isSome) = physDevs.length ∧ s.physDevCountTramp ≠ 0 ∧ s.physDevCountTramp = newCount then
      some (.success, useOldItems old physDevs, s)
    else if req.newPhysDevs = false then
      some (.errorOutOfHostMemory, physDevs, { s with totalGpuCount := 0 })
    else
      match wrapPhysDevs req.wrapper old 0 physDevs s.heap with
      | (wrapped, false, heap) =>
        -- the entries from the failed request on are `NULL`
        let newPhysDevs := wrapped ++ List.replicate (physDevs.length - wrapped.length) nullHandle
        (heap.freeAll (newPhysDevs.filter (· ∉ s.stored))).map fun heap =>
          (.errorOutOfHostMemory, wrapped ++ physDevs.drop wrapped.length, { s with heap := heap, totalGpuCount := 0 })
      | (wrapped, true, heap) =>
        let kept := keepRemaining (newCount - physDevs.length) physDevs.length old
        let newPhysDevs := wrapped ++ kept.1
        (heap.freeAll (s.stored.filter (· ∉ newPhysDevs.take newCount))).map fun heap =>
          (.success, wrapped,
            { heap := heap
              physDevsTramp := newPhysDevs
              physDevCountTramp := wrapped.length + kept.2
              totalGpuCount := newCount
              count_le := by
                rw [List.length_append]
                exact Nat.add_le_add_left (keepRemaining_count_le _ _ _) _ })

/-- The groups with their devices replaced, in turn, by those of a list. -/
def regroup : List (List Handle) → List Handle → List (List Handle)
  | [], _ => []
  | g :: gs, devices => devices.take g.length :: regroup gs (devices.drop g.length)

/-- `setup_loader_tramp_phys_dev_groups`; a group is the list of its devices. -/
def setupLoaderTrampPhysDevGroups (s : TrampState) (groups : List (List Handle)) (req : TrampRequests) :
    Option (VkResult × List (List Handle) × TrampState) :=
  if groups = [] then some (.success, groups, s)
  else
    (setupLoaderTrampPhysDevs s groups.flatten req).map fun r =>
      if r.1 ≠ .success then (r.1, groups, r.2.2) else (r.1, regroup groups r.2.1, r.2.2)

end VulkanLoader
