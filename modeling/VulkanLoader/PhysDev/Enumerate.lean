import VulkanLoader.PhysDev.Trampoline

/-!
# `vkEnumeratePhysicalDevices`

The trampoline: it calls down the chain, filters what comes back if the environment asks for it, and wraps it.  The
chain below is described by what it enumerates during the call.  The unloading of drivers at the end does not touch
the wrappers and is modelled apart.
-/

namespace VulkanLoader

open Lib

/-- `struct loader_envvar_id_filter`: ranges of ids. -/
abbrev IdFilter := List (ℕ × ℕ)

/-- `check_id_matches_filter_environment_var`. -/
def checkIdMatchesFilterEnvironmentVar (id : ℕ) (filter : IdFilter) : Bool :=
  filter.any fun f => decide (f.1 ≤ id) && decide (id ≤ f.2)

/-- What the filters ask of a device; `driverID` is `none` where `get_device_driver_id` fails. -/
structure DeviceIds where
  deviceID : ℕ
  vendorID : ℕ
  driverID : Option ℕ

/-- The three filters of the environment. -/
structure IdFilters where
  device : IdFilter
  vendor : IdFilter
  driver : IdFilter

namespace IdFilters

/-- No filter is set. -/
def unset : IdFilters := ⟨[], [], []⟩

/-- The condition of the direct call. -/
def isNone (f : IdFilters) : Bool := f.device.length == 0 && f.vendor.length == 0 && f.driver.length == 0

/-- The device passes the filters that are set. -/
def passes (f : IdFilters) (ids : DeviceIds) : Bool :=
  if f.device.length ≠ 0 ∧ !checkIdMatchesFilterEnvironmentVar ids.deviceID f.device then false
  else if f.vendor.length ≠ 0 ∧ !checkIdMatchesFilterEnvironmentVar ids.vendorID f.vendor then false
  else if f.driver.length ≠ 0 ∧ !ids.driverID.any (checkIdMatchesFilterEnvironmentVar · f.driver) then false
  else true

end IdFilters

/-- `loader_filter_enumerated_physical_devices`: the result, the count and the devices written.  The capacity is `none`
where `out_pPhysicalDevices` is `NULL`. -/
def loaderFilterEnumeratedPhysicalDevices (f : IdFilters) (ids : Handle → DeviceIds) (physDevs : List Handle)
    (capacity : Option ℕ) : VkResult × ℕ × List Handle :=
  let filtered := physDevs.filter fun d => f.passes (ids d)
  match capacity with
  | none => (.success, filtered.length, [])
  | some capacity =>
    let count := if filtered.length < capacity then filtered.length else capacity
    (if count < filtered.length then .incomplete else .success, count, filtered.take capacity)

/-- The chain below during a call: the devices it enumerates, or the error it returns, and the `total_gpu_count` that
the terminator leaves. -/
structure Downstream where
  enumerable : List Handle
  nodup : enumerable.Nodup
  error : Option { res : VkResult // res ≠ .success ∧ res ≠ .incomplete }
  totalGpuCount : ℕ

/-- One call of the chain's `vkEnumeratePhysicalDevices`. -/
def Downstream.enumeratePhysicalDevices (d : Downstream) (capacity : Option ℕ) : VkResult × ℕ × List Handle :=
  match d.error, capacity with
  | some e, _ => (e, capacity.getD 0, [])
  | none, none => (.success, d.enumerable.length, [])
  | none, some capacity =>
    if capacity < d.enumerable.length then (.incomplete, capacity, d.enumerable.take capacity)
    else (.success, d.enumerable.length, d.enumerable)

/-- A call of the application, and what it meets. -/
structure EnumerateCall where
  /-- `none` where `pPhysicalDevices` is `NULL`. -/
  capacity : Option ℕ
  filters : IdFilters
  ids : Handle → DeviceIds
  down : Downstream
  req : TrampRequests

/-- What comes up to the trampoline: the result, the count and the devices. -/
def EnumerateCall.answer (c : EnumerateCall) : VkResult × ℕ × List Handle :=
  if c.filters.isNone then c.down.enumeratePhysicalDevices c.capacity
  else
    match c.down.enumeratePhysicalDevices none with
    | (.success, count, _) =>
      match c.down.enumeratePhysicalDevices (some count) with
      | (.success, _, physDevs) => loaderFilterEnumeratedPhysicalDevices c.filters c.ids physDevs c.capacity
      | (res, _, _) => (res, c.capacity.getD 0, [])
    | (res, _, _) => (res, c.capacity.getD 0, [])

/-- The call fills an array, so its devices are wrapped. -/
def EnumerateCall.wraps (c : EnumerateCall) : Bool :=
  c.capacity.isSome && (c.answer.1 == .success || c.answer.1 == .incomplete)

/-- `vkEnumeratePhysicalDevices`: the result, the count, the devices and the instance after it. -/
def vkEnumeratePhysicalDevices (s : TrampState) (c : EnumerateCall) :
    Option (VkResult × ℕ × List Handle × TrampState) :=
  let s := { s with totalGpuCount := c.down.totalGpuCount }
  let (res, count, physDevs) := c.answer
  if c.wraps then
    (setupLoaderTrampPhysDevs s physDevs c.req).map fun r =>
      (if r.1 ≠ .success then r.1 else res, count, r.2.1, r.2.2)
  else some (res, count, physDevs, s)

/-! ### What comes up -/

section Answer

variable (c : EnumerateCall)

theorem Downstream.enumeratePhysicalDevices_sublist (d : Downstream) (capacity : Option ℕ) :
    (d.enumeratePhysicalDevices capacity).2.2.Sublist d.enumerable := by
  unfold enumeratePhysicalDevices
  rcases d.error with _ | e <;> rcases capacity with _ | capacity
  · exact List.nil_sublist _
  · simp only
    split_ifs
    · exact List.take_sublist _ _
    · exact List.Sublist.refl _
  · exact List.nil_sublist _
  · exact List.nil_sublist _

theorem loaderFilterEnumeratedPhysicalDevices_sublist (f : IdFilters) (ids : Handle → DeviceIds)
    (physDevs : List Handle) (capacity : Option ℕ) :
    (loaderFilterEnumeratedPhysicalDevices f ids physDevs capacity).2.2.Sublist physDevs := by
  unfold loaderFilterEnumeratedPhysicalDevices
  rcases capacity with _ | capacity
  · exact List.nil_sublist _
  · exact (List.take_sublist _ _).trans List.filter_sublist

/-- The devices that come up are some of those that the chain enumerates, in its order. -/
theorem EnumerateCall.answer_sublist : c.answer.2.2.Sublist c.down.enumerable := by
  unfold answer
  split_ifs
  · exact c.down.enumeratePhysicalDevices_sublist _
  · split
    · rename_i count _ _
      have hfill := c.down.enumeratePhysicalDevices_sublist (some count)
      split
      · rename_i physDevs he
        rw [he] at hfill
        exact (loaderFilterEnumeratedPhysicalDevices_sublist _ _ _ _).trans hfill
      · exact List.nil_sublist _
    · exact List.nil_sublist _

theorem EnumerateCall.answer_nodup : c.answer.2.2.Nodup := c.down.nodup.sublist c.answer_sublist

end Answer

end VulkanLoader
