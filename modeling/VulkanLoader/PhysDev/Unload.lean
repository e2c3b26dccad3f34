import VulkanLoader.Instance.CreateInstance
import VulkanLoader.PhysDev.Enumerate
import VulkanLoader.PhysDev.Terminator

/-!
# Drivers without physical devices

At the end of a `vkEnumeratePhysicalDevices` that fills an array, `unload_drivers_without_physical_devices` destroys
the drivers whose last `physical_device_count` is zero.  The count is noted by `setup_loader_term_phys_devs`, while the
logical devices of a driver come and go with `vkCreateDevice` and `vkDestroyDevice`; all three are steps of one machine
here.  No layer stands between the trampoline and the terminator of the enumeration, and the wrappers of the trampoline,
which do not bear on the drivers, are modelled apart.

A `loader_icd_term` is named by the place of its driver in the scanned list, and a `loader_device` by a number that
says how many were made before it.
-/

namespace VulkanLoader

/-- `struct loader_icd_term`, with the devices. -/
structure DeviceIcdTerm extends IcdTerm where
  physicalDeviceCount : ℕ
  logicalDeviceList : List ℕ
  deriving DecidableEq

/-- `struct loader_scanned_icd`: its name and the handle of its library. -/
structure ScannedLibrary where
  libName : Option String
  handle : Option Handle
  deriving DecidableEq

/-- What is destroyed while a driver is unloaded. -/
inductive TearDown where
  | destroyInstance (icd : ℕ) (icdInstance : Handle)
  | freeDevice (icd : ℕ) (dev : ℕ)
  | freeIcdTerm (icd : ℕ)
  | closeLibrary (icd : ℕ) (handle : Handle)
  /-- The library of an entry of `preloaded_icds`. -/
  | closePreloaded (handle : Handle)
  deriving DecidableEq

/-- The driver of the instance that loses something. -/
def TearDown.driver : TearDown → Option ℕ
  | destroyInstance icd _ => some icd
  | freeDevice icd _ => some icd
  | freeIcdTerm icd => some icd
  | closeLibrary icd _ => some icd
  | closePreloaded _ => none

/-- The drivers of an instance and their devices, and the list of preloaded drivers. -/
structure Drivers where
  icdTerms : List DeviceIcdTerm
  icdTermsCount : ℕ
  scannedList : List ScannedLibrary
  preloadedIcds : List ScannedLibrary
  preloadedCount : ℕ
  term : TermState
  devicesMade : ℕ
  log : List TearDown

/-- The drivers after `vkCreateInstance`. -/
def Drivers.created (pCreateInfo : VkInstanceCreateInfo) (icds : List (ScannedIcd × ScannedLibrary))
    (preloaded : List ScannedLibrary) : Drivers where
  icdTerms := (terminatorCreateInstance pCreateInfo (icds.map Prod.fst)).icdTerms.map fun t =>
    { t with physicalDeviceCount := 0, logicalDeviceList := [] }
  icdTermsCount := (terminatorCreateInstance pCreateInfo (icds.map Prod.fst)).icdTermsCount
  scannedList := icds.map Prod.snd
  preloadedIcds := preloaded
  preloadedCount := preloaded.length
  term := .init
  devicesMade := 0
  log := []

/-! ### The terminator -/

/-- The `device_configurations` of the settings file: how many there are, whether a driver runs out of memory while
its devices are compared with them, and which object each describes. -/
structure DeviceConfigurations where
  count : ℕ
  outOfMemory : Bool
  describes : ℕ → Handle → Bool

/-- The loop over the configurations; `written` is what was written before. -/
def writeConfigured (conf : DeviceConfigurations) (physDevs : List Handle) (capacity : ℕ) :
    List ℕ → List Handle → VkResult × List Handle
  | [], written => (.success, written)
  | i :: is, written =>
    match physDevs.find? (conf.describes i) with
    | none => writeConfigured conf physDevs capacity is written
    | some p =>
      if written.length ≥ capacity then (.incomplete, written)
      else writeConfigured conf physDevs capacity is (written ++ [p])

/-- `loader_apply_settings_device_configurations`. -/
def loaderApplySettingsDeviceConfigurations (conf : DeviceConfigurations) (physDevs : List Handle) (capacity : ℕ) :
    VkResult × ℕ × List Handle :=
  if conf.outOfMemory then (.errorOutOfHostMemory, capacity, [])
  else
    match writeConfigured conf physDevs capacity (List.range conf.count) [] with
    | (.success, []) => (.errorInitializationFailed, capacity, [])
    | (res, written) => (res, written.length, written)

/-- What a call of the terminator meets: the answers of each driver, the order of the devices, the requests for memory
and the configurations, if they are in use. -/
structure TerminatorAnswers where
  count : ℕ → VkResult × ℕ
  fill : ℕ → ℕ → VkResult × ℕ × (ℕ → Handle)
  linuxSort : Option DeviceOrder
  req : TermRequests
  configurations : Option DeviceConfigurations

/-- The answers of the driver of `t`. -/
def TerminatorAnswers.icd (a : TerminatorAnswers) (t : DeviceIcdTerm) : IcdEnumeration :=
  ⟨t.scannedIcd, a.count t.scannedIcd, a.fill t.scannedIcd⟩

/-- The writes of `physical_device_count`: the drivers that the loop got to. -/
def noteCounts : List DeviceIcdTerm → List (ℕ × List Handle) → List DeviceIcdTerm
  | t :: ts, icd :: icds => { t with physicalDeviceCount := icd.2.length } :: noteCounts ts icds
  | ts, _ => ts

/-- `setup_loader_term_phys_devs`, with the counts.  `icd_phys_dev_array` has room for `icd_terms_count` drivers. -/
def Drivers.setupTermPhysDevs (s : Drivers) (a : TerminatorAnswers) : Option (VkResult × Drivers) :=
  if s.icdTermsCount < s.icdTerms.length then none
  else
    let icds := s.icdTerms.map a.icd
    (setupLoaderTermPhysDevs s.term ⟨icds, a.linuxSort, a.req⟩).map fun r =>
      (r.1, { s with term := r.2, icdTerms := noteCounts s.icdTerms (queryIcds icds .success).2 })

/-- What `terminator_EnumeratePhysicalDevices` returns after the set-up. -/
def terminatorAnswer (configurations : Option DeviceConfigurations) (term : TermState) (capacity : Option ℕ) :
    VkResult × ℕ × List Handle :=
  match configurations, capacity with
  | some conf, none =>
    (.success, if conf.count < term.physDevCountTerm then conf.count else term.physDevCountTerm, [])
  | some conf, some capacity => loaderApplySettingsDeviceConfigurations conf term.stored capacity
  | none, none => (.success, term.physDevCountTerm, [])
  | none, some capacity =>
    if term.physDevCountTerm > capacity then (.incomplete, capacity, term.stored.take capacity)
    else (.success, term.physDevCountTerm, term.stored)

/-- `terminator_EnumeratePhysicalDevices`. -/
def Drivers.terminatorEnumeratePhysicalDevices (s : Drivers) (a : TerminatorAnswers) (capacity : Option ℕ) :
    Option ((VkResult × ℕ × List Handle) × Drivers) :=
  (s.setupTermPhysDevs a).map fun r =>
    if r.1 ≠ .success then ((r.1, capacity.getD 0, []), r.2)
    else (terminatorAnswer a.configurations r.2.term capacity, r.2)

/-! ### The unloading -/

/-- `loader_unload_scanned_icd`: the handle closed, if there is one, and the entry after it. -/
def loaderUnloadScannedIcd (scanned : ScannedLibrary) : Option Handle × ScannedLibrary := (scanned.handle, ⟨none, none⟩)

/-- The entry of `preloaded_icds` with the same library is unloaded; the last entry takes its place. -/
def Drivers.unloadPreloaded (s : Drivers) (libName : Option String) : Drivers :=
  match (s.preloadedIcds.take s.preloadedCount).findIdx? fun p => p.libName.isSome && p.libName == libName with
  | none => s
  | some i =>
    let entry := s.preloadedIcds.getD i ⟨none, none⟩
    let (closed, emptied) := loaderUnloadScannedIcd entry
    let list := s.preloadedIcds.set i emptied
    { s with
      log := s.log ++ closed.toList.map .closePreloaded
      preloadedIcds := if i < s.preloadedCount - 1 then
          (list.set i (list.getD (s.preloadedCount - 1) ⟨none, none⟩)).set (s.preloadedCount - 1) ⟨none, none⟩
        else list
      preloadedCount := if i > 0 then s.preloadedCount - 1 else s.preloadedCount }

/-- `loader_icd_destroy`: the devices of the driver go with it. -/
def Drivers.loaderIcdDestroy (s : Drivers) (t : DeviceIcdTerm) : Drivers :=
  { s with
    icdTermsCount := s.icdTermsCount - 1
    log := s.log ++ t.logicalDeviceList.map (.freeDevice t.scannedIcd) ++ [.freeIcdTerm t.scannedIcd] }

/-- A driver found in the scanned list is destroyed. -/
def Drivers.unloadDriver (s : Drivers) (t : DeviceIcdTerm) : Drivers :=
  match s.scannedList[t.scannedIcd]? with
  | none => s
  | some scanned =>
    let s := if t.icdInstance ≠ nullHandle then
        { s with log := s.log ++ [.destroyInstance t.scannedIcd t.icdInstance] }
      else s
    let s := (s.loaderIcdDestroy t).unloadPreloaded scanned.libName
    let (closed, emptied) := loaderUnloadScannedIcd scanned
    { s with
      log := s.log ++ closed.toList.map (.closeLibrary t.scannedIcd)
      scannedList := s.scannedList.set t.scannedIcd emptied }

/-- The loop of `unload_drivers_without_physical_devices`: the drivers that stay, and the rest of the state. -/
def unloadDrivers : List DeviceIcdTerm → Drivers → List DeviceIcdTerm × Drivers
  | [], s => ([], s)
  | t :: ts, s =>
    if t.physicalDeviceCount = 0 then unloadDrivers ts (s.unloadDriver t)
    else
      let r := unloadDrivers ts s
      (t :: r.1, r.2)

/-- `unload_drivers_without_physical_devices`. -/
def Drivers.unloadDriversWithoutPhysicalDevices (s : Drivers) : Drivers :=
  let r := unloadDrivers s.icdTerms s
  { r.2 with icdTerms := r.1 }

/-! ### The calls of the application -/

/-- A call of `vkEnumeratePhysicalDevices`, and what it meets: `query` in the call for the count that the filters need,
`fill` in the call for the devices. -/
structure DriversEnumeration where
  /-- `none` where `pPhysicalDevices` is `NULL`. -/
  capacity : Option ℕ
  filters : IdFilters
  ids : Handle → DeviceIds
  query : TerminatorAnswers
  fill : TerminatorAnswers

/-- The calls down; `true` is `goto out`. -/
def Drivers.callDown (s : Drivers) (c : DriversEnumeration) : Option (Bool × (VkResult × ℕ × List Handle) × Drivers) :=
  if c.filters.isNone then (s.terminatorEnumeratePhysicalDevices c.fill c.capacity).map fun r => (false, r)
  else
    (s.terminatorEnumeratePhysicalDevices c.query none).bind fun q =>
      if q.1.1 ≠ .success then some (true, (q.1.1, c.capacity.getD 0, []), q.2)
      else
        (q.2.terminatorEnumeratePhysicalDevices c.fill (some q.1.2.1)).map fun r =>
          if r.1.1 ≠ .success then (true, (r.1.1, c.capacity.getD 0, []), r.2)
          else (false, loaderFilterEnumeratedPhysicalDevices c.filters c.ids r.1.2.2 c.capacity, r.2)

/-- The call goes on to the wrappers, and then to the unloading. -/
def DriversEnumeration.unloads (c : DriversEnumeration) (out : Bool) (res : VkResult) : Bool :=
  !out && c.capacity.isSome && (res == .success || res == .incomplete)

/-- `vkEnumeratePhysicalDevices`, as far as the drivers are concerned. -/
def Drivers.enumeratePhysicalDevices (s : Drivers) (c : DriversEnumeration) : Option Drivers :=
  (s.callDown c).map fun r =>
    if c.unloads r.1 r.2.1.1 then r.2.2.unloadDriversWithoutPhysicalDevices else r.2.2

/-- The first driver that has the device loses it: `loader_remove_logical_device`, and the failure path of
`loader_layer_create_device`. -/
def removeLogicalDevice (dev : ℕ) : List DeviceIcdTerm → List DeviceIcdTerm
  | [] => []
  | t :: ts =>
    if dev ∈ t.logicalDeviceList then { t with logicalDeviceList := t.logicalDeviceList.erase dev } :: ts
    else t :: removeLogicalDevice dev ts

/-- `loader_add_logical_device`. -/
def addLogicalDevice (icd : ℕ) (dev : ℕ) (ts : List DeviceIcdTerm) : List DeviceIcdTerm :=
  ts.map fun t => if t.scannedIcd = icd then { t with logicalDeviceList := dev :: t.logicalDeviceList } else t

/-- `vkCreateDevice` on a terminator object, which the wrapper in the application's hands names: `driver` is the result
of the driver, `chain` that of the whole chain. -/
def Drivers.createDevice (s : Drivers) (physicalDevice : Handle) (driver chain : VkResult) : Option Drivers :=
  (s.term.heap.get physicalDevice).bind fun p =>
    if s.icdTerms.all fun t => t.scannedIcd ≠ p.thisIcdTerm then none
    else
      let dev := s.devicesMade
      let added := if driver = .success then addLogicalDevice p.thisIcdTerm dev s.icdTerms else s.icdTerms
      some { s with
        devicesMade := dev + 1
        icdTerms := if chain ≠ .success then removeLogicalDevice dev added else added }

/-- A step of the application. -/
inductive DriversCall where
  | enumeratePhysicalDevices (c : DriversEnumeration)
  | createDevice (physicalDevice : Handle) (driver chain : VkResult)
  | destroyDevice (dev : ℕ)

/-- The drivers after a call. -/
def Drivers.exec (s : Drivers) : DriversCall → Option Drivers
  | .enumeratePhysicalDevices c => s.enumeratePhysicalDevices c
  | .createDevice physicalDevice driver chain => s.createDevice physicalDevice driver chain
  | .destroyDevice dev => some { s with icdTerms := removeLogicalDevice dev s.icdTerms }

/-- The machine; `none` once the behaviour is undefined. -/
def driversStep (s : Option Drivers) (c : DriversCall) : Option Drivers := s.bind (·.exec c)

end VulkanLoader
