import VulkanLoader.Handles.HandleTable
import VulkanLoader.Lib.Runs

/-!
# Surfaces (`wsi.c`)

A surface of the loader is a `VkIcdSurface` with an index.  A driver's own surface is made when the surface is first
used with that driver, and then stands in the driver's table at the index.  The platforms of the build are
`VK_KHR_display` and `VK_EXT_headless_surface`; their two functions differ in what they say when the extension is not
enabled, and in the structures their chains may hold.

As for messengers, the log of a driver's surfaces and whether its table was accessed within its capacity are kept
beside the table.
-/

namespace VulkanLoader

open Lib (HandleEvent)

/-- `VkIcdWsiPlatform`, as far as the build has it. -/
inductive SurfacePlatform where
  | display
  | headless
  deriving DecidableEq

/-- The part of `struct loader_icd_term` that concerns surfaces. -/
structure SurfaceIcd where
  interfaceVersion : ℕ
  khrSurface : Bool
  khrDisplay : Bool
  extHeadlessSurface : Bool
  createDisplayPlaneSurface : Bool
  createHeadlessSurface : Bool
  destroySurface : Bool
  /-- A driver that makes surfaces exposes `vkDestroySurfaceKHR` too. -/
  destroys : createDisplayPlaneSurface || createHeadlessSurface → destroySurface
  surfaceList : Option (List Handle) := none
  log : List (HandleEvent Handle) := []
  inBounds : Bool := true
  deriving DecidableEq

/-- A live `VkIcdSurface`. -/
structure IcdSurface where
  handle : Handle
  platform : SurfacePlatform
  surfaceIndex : ℕ
  deriving DecidableEq

/-- The part of `struct loader_instance` that concerns surfaces. -/
structure SurfaceInstance where
  allocCallbacks : Option VkAllocationCallbacks
  khrDisplay : Bool
  extHeadlessSurface : Bool
  surfacesList : UsedObjectList := none
  icdTerms : List SurfaceIcd
  surfaces : List IcdSurface := []
  nextHandle : Handle := 1

/-- What a creation meets: the requests for the index, the `VkIcdSurface`, the tables and the copy of the create
info, and the types of the structures in its chain. -/
structure SurfaceAnswers where
  usedListRequest : Request UsedObjectStatus
  icdSurfaceAllocated : Bool
  listRequest : ℕ → Request Handle
  createInfoChain : List String
  createInfoAllocated : Bool

/-- `ICD_VER_SUPPORTS_ICD_SURFACE_KHR`. -/
def icdVerSupportsIcdSurfaceKhr : ℕ := 3

/-- The driver may have surfaces of its own. -/
def SurfaceIcd.usesSurfaces (icd : SurfaceIcd) : Bool :=
  icd.khrSurface && decide (icdVerSupportsIcdSurfaceKhr ≤ icd.interfaceVersion)

/-- The loop of `allocate_icd_surface_struct` over the drivers, up to the first table that cannot grow. -/
def growSurfaceLists (callbacks : Option VkAllocationCallbacks) (nextIndex : ℕ) :
    (ℕ → Request Handle) → List SurfaceIcd → VkResult × List SurfaceIcd
  | _, [] => (.success, [])
  | r, icd :: icds =>
    if icd.usesSurfaces then
      match growHandleTable callbacks nextIndex icd.surfaceList (r 0) with
      | none => (.errorOutOfHostMemory, icd :: icds)
      | some l => ((growSurfaceLists callbacks nextIndex (fun i => r (i + 1)) icds).1,
          { icd with surfaceList := some l } :: (growSurfaceLists callbacks nextIndex (fun i => r (i + 1)) icds).2)
    else ((growSurfaceLists callbacks nextIndex (fun i => r (i + 1)) icds).1,
      icd :: (growSurfaceLists callbacks nextIndex (fun i => r (i + 1)) icds).2)

/-- `allocate_icd_surface_struct`; the index in the struct stands for the struct.  On an error the struct is freed and
the caller's pointer stays null, so the index is not given back. -/
def allocateIcdSurfaceStruct (s : SurfaceInstance) (pAllocator : Option VkAllocationCallbacks) (a : SurfaceAnswers) :
    VkResult × SurfaceInstance × Option ℕ :=
  match loaderGetNextAvailableEntry s.allocCallbacks s.surfacesList pAllocator a.usedListRequest with
  | (res, list, none) => (res, { s with surfacesList := list }, none)
  | (_, list, some nextIndex) =>
    if !a.icdSurfaceAllocated then (.errorOutOfHostMemory, { s with surfacesList := list }, none)
    else
      let s' := { s with
        surfacesList := list, icdTerms := (growSurfaceLists s.allocCallbacks nextIndex a.listRequest s.icdTerms).2 }
      if (growSurfaceLists s.allocCallbacks nextIndex a.listRequest s.icdTerms).1 = .success then
        (.success, s', some nextIndex)
      else ((growSurfaceLists s.allocCallbacks nextIndex a.listRequest s.icdTerms).1, s', none)

/-- `copy_surface_create_info`, its result: the chain may hold the structures of `ciTypes` only. -/
def copySurfaceCreateInfo (ciTypes : List String) (chain : List String) (allocated : Bool) : VkResult :=
  if chain.all ciTypes.contains then if allocated then .success else .errorOutOfHostMemory
  else .errorExtensionNotPresent

/-- The loop of `cleanup_surface_creation`. -/
def cleanupSurfaceOnIcd (surfaceIndex : ℕ) (icd : SurfaceIcd) : SurfaceIcd :=
  match icd.surfaceList with
  | none => icd
  | some l =>
    let h := l.getD surfaceIndex nullHandle
    if icd.khrSurface ∧ surfaceIndex < l.length ∧ h ≠ nullHandle ∧ icd.destroySurface then
      { icd with log := icd.log ++ [.givenBack h] }
    else icd

/-- `cleanup_surface_creation`. -/
def cleanupSurfaceCreation (s : SurfaceInstance) (result : VkResult) (icdSurface : Option ℕ)
    (pAllocator : Option VkAllocationCallbacks) : SurfaceInstance :=
  match icdSurface with
  | none => s
  | some surfaceIndex =>
    if result = .success then s
    else { s with
      icdTerms := s.icdTerms.map (cleanupSurfaceOnIcd surfaceIndex)
      surfacesList := clearObjectStatus s.surfacesList surfaceIndex pAllocator }

/-- The body the functions that create surfaces share.  `notEnabled` is the result where the extension is not enabled
on the instance. -/
def createSurface (platform : SurfacePlatform) (enabled : Bool) (notEnabled : VkResult) (ciTypes : List String)
    (s : SurfaceInstance) (pAllocator : Option VkAllocationCallbacks) (a : SurfaceAnswers) :
    VkResult × SurfaceInstance :=
  if !enabled then (notEnabled, s)
  else
    match allocateIcdSurfaceStruct s pAllocator a with
    | (res, s', none) => (res, cleanupSurfaceCreation s' res none pAllocator)
    | (_, s', some surfaceIndex) =>
      let res := copySurfaceCreateInfo ciTypes a.createInfoChain a.createInfoAllocated
      if res ≠ .success then (res, cleanupSurfaceCreation s' res (some surfaceIndex) pAllocator)
      else (.success, { s' with
        surfaces := ⟨s.nextHandle, platform, surfaceIndex⟩ :: s.surfaces, nextHandle := s.nextHandle + 1 })

/-- `terminator_CreateHeadlessSurfaceEXT`; `result` is `VK_SUCCESS` where the extension is not enabled. -/
def terminatorCreateHeadlessSurfaceEXT (s : SurfaceInstance) :=
  createSurface .headless s.extHeadlessSurface .success ["VkHeadlessSurfaceCreateInfoEXT"] s

/-- `terminator_CreateDisplayPlaneSurfaceKHR`. -/
def terminatorCreateDisplayPlaneSurfaceKHR (s : SurfaceInstance) :=
  createSurface .display s.khrDisplay .errorExtensionNotPresent
    ["VkDisplaySurfaceCreateInfoKHR", "VkDisplaySurfaceStereoCreateInfoNV"] s

/-- The driver can make its surface for the platform. -/
def SurfaceIcd.canCreate (icd : SurfaceIcd) : SurfacePlatform → Bool
  | .display => icd.createDisplayPlaneSurface && icd.khrDisplay
  | .headless => icd.createHeadlessSurface && icd.extHeadlessSurface

/-- `wsi_unwrap_icd_surface`: the result, the driver afterwards, and the handle that replaces the loader's. -/
def wsiUnwrapIcdSurface (icd : SurfaceIcd) (surface : IcdSurface) (driver : DriverHandle) :
    VkResult × SurfaceIcd × Handle :=
  match icd.surfaceList with
  | none => (.success, icd, surface.handle)
  | some l =>
    if l.length ≤ surface.surfaceIndex then (.success, icd, surface.handle)
    else if icd.interfaceVersion < icdVerSupportsIcdSurfaceKhr then (.success, icd, surface.handle)
    else if l.getD surface.surfaceIndex nullHandle ≠ nullHandle then
      (.success, icd, l.getD surface.surfaceIndex nullHandle)
    else if !icd.canCreate surface.platform then (.errorExtensionNotPresent, icd, nullHandle)
    else
      match driver with
      | .created h _ => (.success, { icd with
          surfaceList := some (writeEntry l surface.surfaceIndex (some h)), log := icd.log ++ [.made h] }, h)
      | .failed res _ left =>
        (res, { icd with surfaceList := some (writeEntry l surface.surfaceIndex left) }, left.getD nullHandle)

/-- The loop of `terminator_DestroySurfaceKHR`.  Both branches read the entry of a driver that uses surfaces: the
condition of the first, and the assertion of the second. -/
def destroySurfaceOnIcd (surfaceIndex : ℕ) (icd : SurfaceIcd) : SurfaceIcd :=
  if icd.usesSurfaces then
    let l := icd.surfaceList.getD []
    let h := l.getD surfaceIndex nullHandle
    let icd := { icd with inBounds := icd.inBounds && decide (surfaceIndex < l.length) }
    if icd.destroySurface ∧ h ≠ nullHandle then
      { icd with
        log := icd.log ++ [.givenBack h]
        surfaceList := icd.surfaceList.map fun l => writeEntry l surfaceIndex (some nullHandle) }
    else icd
  else icd

/-- `terminator_DestroySurfaceKHR`, on a live surface. -/
def terminatorDestroySurfaceKHR (s : SurfaceInstance) (surface : IcdSurface) : SurfaceInstance :=
  { s with
    icdTerms := s.icdTerms.map (destroySurfaceOnIcd surface.surfaceIndex)
    surfacesList := loaderReleaseObjectFromList s.surfacesList surface.surfaceIndex
    surfaces := s.surfaces.filter fun t => t.handle ≠ surface.handle }

/-- The calls: a surface is made, unwrapped for the driver at a place of the list, or destroyed. -/
inductive SurfaceCall where
  | create (platform : SurfacePlatform) (pAllocator : Option VkAllocationCallbacks) (answers : SurfaceAnswers)
  | unwrap (icd : ℕ) (surface : Handle) (driver : DriverHandle)
  | destroy (surface : Handle)

def createOn (platform : SurfacePlatform) (s : SurfaceInstance) (pAllocator : Option VkAllocationCallbacks)
    (a : SurfaceAnswers) : VkResult × SurfaceInstance :=
  match platform with
  | .display => terminatorCreateDisplayPlaneSurfaceKHR s pAllocator a
  | .headless => terminatorCreateHeadlessSurfaceEXT s pAllocator a

def surfaceStep (s : SurfaceInstance) : SurfaceCall → SurfaceInstance
  | .create platform pAllocator a => (createOn platform s pAllocator a).2
  | .unwrap i surface driver =>
    match s.surfaces.find? fun t => t.handle = surface with
    | none => s
    | some t => { s with icdTerms := s.icdTerms.modify i fun icd => (wsiUnwrapIcdSurface icd t driver).2.1 }
  | .destroy surface =>
    match s.surfaces.find? fun t => t.handle = surface with
    | none => s
    | some t => terminatorDestroySurfaceKHR s t

/-- Only live surfaces are used and destroyed. -/
def SurfaceCallable (s : SurfaceInstance) : SurfaceCall → Prop
  | .create _ _ _ => True
  | .unwrap _ surface _ => surface ∈ s.surfaces.map IcdSurface.handle
  | .destroy surface => surface ∈ s.surfaces.map IcdSurface.handle

/-! ### What the calls should keep -/

/-- The indices of the live surfaces. -/
def SurfaceInstance.indices (s : SurfaceInstance) : List ℕ := s.surfaces.map IcdSurface.surfaceIndex

/-- **The surface table**: the live surfaces have distinct indices, these are the indices in use, no access of a table
was out of bounds, and every surface a driver made was destroyed exactly once, or stands at the index of a live
surface. -/
structure SurfacesSound (s : SurfaceInstance) : Prop where
  nodup : s.indices.Nodup
  inUse : ∀ n, InUse s.surfacesList n ↔ n ∈ s.indices
  inBounds : ∀ icd ∈ s.icdTerms, icd.inBounds
  balanced : ∀ icd ∈ s.icdTerms, Lib.Balanced s.indices (icd.surfaceList.getD []) icd.log

/-- A creation that fails leaves the indices in use as they were. -/
def FailureKeepsIndices (s : SurfaceInstance) : SurfaceCall → Prop
  | .create platform pAllocator a => (createOn platform s pAllocator a).1 ≠ .success →
      ∀ n, InUse (createOn platform s pAllocator a).2.surfacesList n ↔ InUse s.surfacesList n
  | _ => True

end VulkanLoader
