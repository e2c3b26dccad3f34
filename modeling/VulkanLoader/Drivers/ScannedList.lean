import VulkanLoader.Drivers.IcdScan
import VulkanLoader.Lib.Outstanding

/-!
# The libraries of the drivers (`loader_scanned_icd_add`)

A driver that a manifest names is opened, asked for its functions, and put into a list that keeps the library open.  The
log says which libraries were opened and closed, and which blocks were allocated and freed.

The functions of a library are handles; what they return is an argument, as are the answers to the requests for memory.
A list that is written to without its array leaves a call without a result.
-/

namespace VulkanLoader

open VulkanLoader.Lib HandleEvent

/-- What the lists of drivers own. -/
inductive DriverResource where
  | block (block : ℕ)
  | library (handle : Handle)
  deriving DecidableEq

/-- What was asked for, and what was done to the resources. -/
structure DriverLedger where
  requests : ℕ
  log : List (HandleEvent DriverResource)

namespace DriverLedger

/-- `loader_instance_heap_calloc`, `loader_instance_heap_alloc` and `loader_instance_heap_realloc`. -/
def alloc (grants : ℕ → Bool) (l : DriverLedger) : Option ℕ × DriverLedger :=
  if grants l.requests then (some l.requests, ⟨l.requests + 1, l.log ++ [made (.block l.requests)]⟩)
  else (none, ⟨l.requests + 1, l.log⟩)

/-- `loader_platform_open_library`, where it returns a library. -/
def openLibrary (handle : Handle) (l : DriverLedger) : DriverLedger :=
  { l with log := l.log ++ [made (.library handle)] }

/-- `loader_instance_heap_free` and `loader_platform_close_library`. -/
def giveBack (rs : List DriverResource) (l : DriverLedger) : DriverLedger :=
  { l with log := l.log ++ rs.map givenBack }

end DriverLedger

/-! ### The list -/

/-- `struct loader_scanned_icd`; `lib_name` with its block. -/
structure LoaderScannedIcd where
  libName : Option (ℕ × String)
  handle : Option Handle
  apiVersion : UInt32
  interfaceVersion : ℕ
  getInstanceProcAddr : Handle
  getPhysicalDeviceProcAddr : Handle
  createInstance : Handle
  enumerateInstanceExtensionProperties : Handle
  deriving DecidableEq

/-- An entry of zeros. -/
def LoaderScannedIcd.zero : LoaderScannedIcd := ⟨none, none, 0, 0, nullHandle, nullHandle, nullHandle, nullHandle⟩

/-- `struct loader_icd_tramp_list`: how many drivers it has room for, and the block of its array with the drivers below
`count`. -/
structure IcdTrampList where
  capacity : ℕ
  scannedList : Option (ℕ × List LoaderScannedIcd)
  deriving DecidableEq

/-- A list of zeros. -/
def IcdTrampList.zero : IcdTrampList := ⟨0, none⟩

/-- Its drivers. -/
def IcdTrampList.icds (l : IcdTrampList) : List LoaderScannedIcd := (l.scannedList.map Prod.snd).getD []

/-- What an entry owns, in the order in which it is given back. -/
def LoaderScannedIcd.resources (icd : LoaderScannedIcd) : List DriverResource :=
  (icd.handle.map DriverResource.library).toList ++ (icd.libName.map fun name => DriverResource.block name.1).toList

/-- `loader_unload_scanned_icd`. -/
def LoaderScannedIcd.unload (icd : LoaderScannedIcd) (l : DriverLedger) : LoaderScannedIcd × DriverLedger :=
  (.zero, l.giveBack icd.resources)

/-- What a list owns, in the order in which it is given back. -/
def IcdTrampList.resources (l : IcdTrampList) : List DriverResource :=
  l.icds.flatMap LoaderScannedIcd.resources ++ (l.scannedList.map fun array => DriverResource.block array.1).toList

/-- `loader_clear_scanned_icd_list`. -/
def loaderClearScannedIcdList (icdTrampList : IcdTrampList) (l : DriverLedger) : IcdTrampList × DriverLedger :=
  (.zero, if icdTrampList.capacity ≠ 0 ∧ icdTrampList.scannedList.isSome then l.giveBack icdTrampList.resources else l)

/-- `loader_init_scanned_icd_list`. -/
def loaderInitScannedIcdList (grants : ℕ → Bool) (icdTrampList : IcdTrampList) (l : DriverLedger) :
    VkResult × IcdTrampList × DriverLedger :=
  let (_, l) := loaderClearScannedIcdList icdTrampList l
  match l.alloc grants with
  | (some array, l) => (.success, ⟨8, some (array, [])⟩, l)
  | (none, l) => (.errorOutOfHostMemory, ⟨8, none⟩, l)

/-! ### The functions of a driver -/

/-- What a library is like when it is opened: its handle, or the kind of error; its exports; what a function returns for a
name, and what the negotiation with the version of the loader comes to; and the paths that the system knows it by. -/
structure DriverLibrary where
  handle : Option Handle
  outOfMemory : Bool
  getProcAddress : String → Handle
  getInstanceProcAddr : Handle → String → Handle
  negotiate : Handle → VkResult × ℕ
  dlFname : Handle → Option String
  realpath : String → Option String

/-- `loader_get_icd_interface_version`; no version of a driver is too low. -/
def loaderGetIcdInterfaceVersion (lib : DriverLibrary) (fpNegotiateIcdVersion : Handle) : Option ℕ :=
  if fpNegotiateIcdVersion = nullHandle then some 0
  else
    let (result, version) := lib.negotiate fpNegotiateIcdVersion
    if result = .errorIncompatibleDriver then none else some version

/-- The functions that are put into an entry, with the version of the interface. -/
structure DriverFunctions where
  interfaceVersion : ℕ
  getInstanceProcAddr : Handle
  getPhysicalDeviceProcAddr : Handle
  createInstance : Handle
  enumerateInstanceExtensionProperties : Handle
  deriving DecidableEq

/-- The functions of a driver without `vk_icdGetInstanceProcAddr`. -/
def deprecatedFunctions (lib : DriverLibrary) : Option DriverFunctions :=
  let fpGetProcAddr := lib.getProcAddress "vkGetInstanceProcAddr"
  if fpGetProcAddr = nullHandle then none
  else
    let fpCreateInst := lib.getProcAddress "vkCreateInstance"
    if fpCreateInst = nullHandle then none
    else
      let fpGetInstExtProps := lib.getProcAddress "vkEnumerateInstanceExtensionProperties"
      if fpGetInstExtProps = nullHandle then none
      else some ⟨0, fpGetProcAddr, nullHandle, fpCreateInst, fpGetInstExtProps⟩

/-- The functions of a driver with `vk_icdGetInstanceProcAddr`. -/
def icdFunctions (lib : DriverLibrary) (interfaceVers : ℕ) (fpGetProcAddr : Handle) : Option DriverFunctions :=
  let interfaceVers := if interfaceVers = 0 then 1 else interfaceVers
  let fpCreateInst := lib.getInstanceProcAddr fpGetProcAddr "vkCreateInstance"
  if fpCreateInst = nullHandle then none
  else
    let fpGetInstExtProps := lib.getInstanceProcAddr fpGetProcAddr "vkEnumerateInstanceExtensionProperties"
    if fpGetInstExtProps = nullHandle then none
    else
      let fpGetPhysDevProcAddr :=
        if interfaceVers ≥ 7 then lib.getInstanceProcAddr fpGetProcAddr "vk_icdGetPhysicalDeviceProcAddr"
        else nullHandle
      let fpGetPhysDevProcAddr :=
        if fpGetPhysDevProcAddr = nullHandle ∧ interfaceVers ≥ 3 then
          lib.getProcAddress "vk_icdGetPhysicalDeviceProcAddr"
        else fpGetPhysDevProcAddr
      some ⟨interfaceVers, fpGetProcAddr, fpGetPhysDevProcAddr, fpCreateInst, fpGetInstExtProps⟩

/-- The part of `loader_scanned_icd_add` that asks the library for its functions; none where the driver is incompatible. -/
def driverFunctions (lib : DriverLibrary) : Option DriverFunctions :=
  let fpNegotiateIcdVersion := lib.getProcAddress "vk_icdNegotiateLoaderICDInterfaceVersion"
  let (fpGetProcAddr, fpNegotiateIcdVersion) :=
    if fpNegotiateIcdVersion = nullHandle then
      let fpGetProcAddr := lib.getProcAddress "vk_icdGetInstanceProcAddr"
      (fpGetProcAddr,
        if fpGetProcAddr ≠ nullHandle then
          lib.getInstanceProcAddr fpGetProcAddr "vk_icdNegotiateLoaderICDInterfaceVersion"
        else nullHandle)
    else (nullHandle, fpNegotiateIcdVersion)
  match loaderGetIcdInterfaceVersion lib fpNegotiateIcdVersion with
  | none => none
  | some interfaceVers =>
    let fpGetProcAddr :=
      if fpGetProcAddr = nullHandle then lib.getProcAddress "vk_icdGetInstanceProcAddr" else fpGetProcAddr
    if fpGetProcAddr = nullHandle then if interfaceVers ≠ 0 then none else deprecatedFunctions lib
    else icdFunctions lib interfaceVers fpGetProcAddr

/-! ### The name of a library -/

/-- A string in its block. -/
abbrev HeapString := ℕ × String

/-- `normalize_path`, where there is `realpath`. -/
def normalizePathOfLibrary (grants : ℕ → Bool) (lib : DriverLibrary) (path : HeapString) (l : DriverLedger) :
    VkResult × HeapString × DriverLedger :=
  match l.alloc grants with
  | (none, l) => (.errorOutOfHostMemory, path, l)
  | (some block, l) =>
    match lib.realpath path.2 with
    | none => (.success, path, l.giveBack [.block block])
    | some ret => (.success, (block, ret), l.giveBack [.block path.1])

/-- `loader_copy_to_new_str`. -/
def loaderCopyToNewStr (grants : ℕ → Bool) (sourceStr : String) (l : DriverLedger) : Option HeapString × DriverLedger :=
  match l.alloc grants with
  | (some block, l) => (some (block, sourceStr), l)
  | (none, l) => (none, l)

/-- The part of `fixup_library_binary_path` after `lib_name` has been normalized. -/
def replaceByRealPath (grants : ℕ → Bool) (lib : DriverLibrary) (gipa : Handle) (libName : HeapString)
    (l : DriverLedger) : VkResult × HeapString × DriverLedger :=
  match lib.dlFname gipa with
  | none => (.success, libName, l)
  | some dliFname =>
    match loaderCopyToNewStr grants dliFname l with
    | (none, l) => (.errorOutOfHostMemory, libName, l)
    | (some osDeterminedLibName, l) =>
      match normalizePathOfLibrary grants lib osDeterminedLibName l with
      | (.success, osDeterminedLibName, l) =>
        if osDeterminedLibName.2 ≠ libName.2 then (.success, osDeterminedLibName, l.giveBack [.block libName.1])
        else (.success, libName, l.giveBack [.block osDeterminedLibName.1])
      | (res, osDeterminedLibName, l) => (res, libName, l.giveBack [.block osDeterminedLibName.1])

/-- `fixup_library_binary_path`. -/
def fixupLibraryBinaryPath (grants : ℕ → Bool) (lib : DriverLibrary) (gipa : Handle) (libName : HeapString)
    (l : DriverLedger) : VkResult × HeapString × DriverLedger :=
  if directorySymbol ∈ libName.2.toList then
    match normalizePathOfLibrary grants lib libName l with
    | (.success, libName, l) => replaceByRealPath grants lib gipa libName l
    | (res, libName, l) => (res, libName, l)
  else replaceByRealPath grants lib gipa libName l

/-! ### A driver is added -/

/-- `VKSC_API_VARIANT`. -/
def vkscApiVariant : UInt32 := 1

/-- The array grows where it is full. -/
def IcdTrampList.grow (grants : ℕ → Bool) (icdTrampList : IcdTrampList) (array : ℕ) (icds : List LoaderScannedIcd)
    (l : DriverLedger) : VkResult × IcdTrampList × DriverLedger :=
  if icds.length ≥ icdTrampList.capacity then
    match l.alloc grants with
    | (none, l) => (.errorOutOfHostMemory, icdTrampList, l)
    | (some newPtr, l) =>
      (.success, ⟨icdTrampList.capacity * 2, some (newPtr, icds)⟩, l.giveBack [.block array])
  else (.success, icdTrampList, l)

/-- The part of `loader_scanned_icd_add` after the functions have been found. -/
def addScannedIcd (grants : ℕ → Bool) (lib : DriverLibrary) (filename : String) (apiVersion : UInt32) (handle : Handle)
    (functions : DriverFunctions) (icdTrampList : IcdTrampList) (l : DriverLedger) :
    Option (VkResult × IcdTrampList × DriverLedger) := do
  let (array, icds) ← icdTrampList.scannedList
  match icdTrampList.grow grants array icds l with
  | (.success, icdTrampList, l) =>
    let (array, icds) ← icdTrampList.scannedList
    match loaderCopyToNewStr grants filename l with
    | (none, l) => some (.errorOutOfHostMemory, icdTrampList, l)
    | (some libName, l) =>
      match fixupLibraryBinaryPath grants lib functions.getInstanceProcAddr libName l with
      | (.errorOutOfHostMemory, libName, l) =>
        some (.errorOutOfHostMemory, icdTrampList, l.giveBack [.block libName.1])
      | (res, libName, l) =>
        some (res, { icdTrampList with scannedList := some (array, icds ++
          [⟨some libName, some handle, apiVersion ||| vkMakeApiVersion vkscApiVariant 0 0 0, functions.interfaceVersion,
            functions.getInstanceProcAddr, functions.getPhysicalDeviceProcAddr, functions.createInstance,
            functions.enumerateInstanceExtensionProperties⟩]) }, l)
  | (res, icdTrampList, l) => some (res, icdTrampList, l)

/-- `loader_scanned_icd_add`. -/
def loaderScannedIcdAdd (grants : ℕ → Bool) (lib : DriverLibrary) (filename : Option String) (apiVersion : UInt32)
    (icdTrampList : IcdTrampList) (l : DriverLedger) : Option (VkResult × IcdTrampList × DriverLedger) :=
  match filename with
  | none => some (.errorIncompatibleDriver, icdTrampList, l)
  | some filename =>
    match lib.handle with
    | none =>
      some (if lib.outOfMemory then .errorOutOfHostMemory else .errorIncompatibleDriver, icdTrampList, l)
    | some handle =>
      let l := l.openLibrary handle
      let ended : Option (VkResult × IcdTrampList × DriverLedger) :=
        match driverFunctions lib with
        | none => some (.errorIncompatibleDriver, icdTrampList, l)
        | some functions => addScannedIcd grants lib filename apiVersion handle functions icdTrampList l
      -- out:
      ended.map fun (res, icdTrampList, l) =>
        (res, icdTrampList, if res ≠ .success then l.giveBack [.library handle] else l)

/-! ### The scan -/

/-- The loop of `loader_icd_scan`, with the library that each manifest names. -/
def scanLibraries (grants : ℕ → Bool) (ctx : IcdContext) (filters : DriverFilters) (library : IcdManifest → DriverLibrary) :
    List IcdManifest → IcdTrampList → DriverLedger → Option (VkResult × IcdTrampList × DriverLedger)
  | [], icdTrampList, l => some (.success, icdTrampList, l)
  | m :: rest, icdTrampList, l => do
    let parsed := loaderParseIcdManifest ctx m
    if parsed.result = .errorOutOfHostMemory then some (parsed.result, icdTrampList, l)
    else if parsed.result = .errorIncompatibleDriver then
      scanLibraries grants ctx filters library rest icdTrampList l
    else if !filters.pass m.fileStr then scanLibraries grants ctx filters library rest icdTrampList l
    else
      let (icdRes, icdTrampList, l) ←
        loaderScannedIcdAdd grants (library m) parsed.icd.fullLibraryPath parsed.icd.version icdTrampList l
      if icdRes = .errorOutOfHostMemory then some (icdRes, icdTrampList, l)
      else scanLibraries grants ctx filters library rest icdTrampList l

/-- `loader_icd_scan`, into a list; what it does before the loop is that of the scan. -/
def scanIntoList (grants : ℕ → Bool) (scan : IcdScan) (library : IcdManifest → DriverLibrary)
    (icdTrampList : IcdTrampList) (l : DriverLedger) : Option (VkResult × IcdTrampList × DriverLedger) :=
  match loaderInitScannedIcdList grants icdTrampList l with
  | (.errorOutOfHostMemory, icdTrampList, l) => some (.errorOutOfHostMemory, icdTrampList, l)
  | (_, icdTrampList, l) =>
    match scan.filters with
    | (.success, filters) =>
      match scan.dataFiles with
      | (.success, manifestFiles) =>
        match loaderSettingsGetAdditionalDriverFiles scan.insertions scan.settings manifestFiles with
        | none => none
        | some (.success, manifestFiles) =>
          scanLibraries grants scan.context filters library (scan.manifestsAt manifestFiles.strings) icdTrampList l
        | some (res, _) => some (res, icdTrampList, l)
      | (res, _) => some (res, icdTrampList, l)
    | (res, _) => some (res, icdTrampList, l)

end VulkanLoader
