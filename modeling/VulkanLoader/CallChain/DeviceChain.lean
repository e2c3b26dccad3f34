import VulkanLoader.CallChain.LayerLibraries
import VulkanLoader.Lib.Chains

/-!
# The call chain of a device

`loader_create_device_chain` calls the `vkCreateDevice` of the topmost layer, or the terminator, with a copy of the
application's `VkDeviceCreateInfo`.  Where the chain behind `pNext` has a `VkDeviceGroupDeviceCreateInfo`, the handles in
it are the loader's own, so a copy with the handles of the layer below takes its place: the structure before it in the
application's chain is written to point at the copy, and written back later.

The structures live in a heap.  Those on the loader's stack are allocated when the function starts to use them and
freed when it returns, so that a pointer to one of them dangles after that.
-/

namespace VulkanLoader

open Lib Lib.Heap

/-- `VkStructureType`, as far as the loader tells the types apart. -/
inductive StructureType where
  | deviceCreateInfo
  | deviceGroupDeviceCreateInfo
  | loaderDeviceCreateInfo
  | other (code : ℕ)
  deriving DecidableEq

/-- A structure of a `pNext` chain; the other members are those of a `VkDeviceGroupDeviceCreateInfo` or of a
`VkDeviceCreateInfo`.  The array `pPhysicalDevices` has `physicalDeviceCount` entries. -/
structure ChainStruct where
  sType : StructureType
  pNext : ℕ
  pPhysicalDevices : Option (List Handle)
  enabledLayerNames : List String
  enabledExtensionNames : List String
  deriving DecidableEq

/-- A structure with nothing but its type and its `pNext`. -/
def ChainStruct.plain (sType : StructureType) (pNext : ℕ) : ChainStruct := ⟨sType, pNext, none, [], []⟩

/-- The structure is a `VkDeviceGroupDeviceCreateInfo`. -/
def ChainStruct.isGroup (s : ChainStruct) : Bool := s.sType == .deviceGroupDeviceCreateInfo

/-- The structure has handles: `physicalDeviceCount` is not zero and `pPhysicalDevices` is not `NULL`. -/
def ChainStruct.hasDevices (s : ChainStruct) : Bool := s.pPhysicalDevices.any fun devices => !devices.isEmpty

/-- `p->pNext = q`. -/
def setPNext (h : Heap ChainStruct) (p q : ℕ) : Option (Heap ChainStruct) :=
  (h.get p).bind fun s => h.put p { s with pNext := q }

/-- The search for a `VkDeviceGroupDeviceCreateInfo` in the chain from `pNext`, with the structure before it.  The outer
`none` is undefined behaviour, or a chain that does not end. -/
def findDeviceGroup (h : Heap ChainStruct) : ℕ → ℕ → ℕ → Option (Option (ℕ × ℕ))
  | 0, _, _ => none
  | fuel + 1, pPrev, pNext =>
    if pNext = 0 then some none
    else
      (h.get pNext).bind fun s =>
        if s.isGroup then some (some (pPrev, pNext)) else findDeviceGroup h fuel pNext s.pNext

/-- Where a copy of a `VkDeviceGroupDeviceCreateInfo` was put in. -/
structure Splice where
  container : ℕ
  original : ℕ
  temp : ℕ

/-- A copy with other handles takes the place of the `VkDeviceGroupDeviceCreateInfo` behind the structure `info`. -/
def spliceDeviceGroup (physDevOf : Handle → Handle) (wish : ℕ) (h : Heap ChainStruct) (info : ℕ) :
    Option (Heap ChainStruct × Option Splice) :=
  (h.get info).bind fun createInfo =>
    (findDeviceGroup h h.bound info createInfo.pNext).bind fun found =>
      match found with
      | none => some (h, none)
      | some (pPrev, curStruct) =>
        (h.get curStruct).bind fun s =>
          if s.hasDevices then
            let tempStruct := h.place wish
            let h := h.alloc wish { s with pPhysicalDevices := s.pPhysicalDevices.map (·.map physDevOf) }
            (setPNext h pPrev tempStruct).map fun h => (h, some ⟨pPrev, curStruct, tempStruct⟩)
          else some (h, none)

/-- A `vkCreateDevice` of a layer or of a driver: what it returns, the device that it creates, and what it does to the
structures.  The structures that are there before the call are input for it, which it does not change. -/
structure NextCreateDevice where
  result : VkResult
  device : Handle
  run : Heap ChainStruct → ℕ → Heap ChainStruct
  keeps : ∀ h info p s, h.get p = some s → (run h info).get p = some s

/-- What creating a device depends on besides its arguments. -/
structure DeviceChainEnv where
  lib : LayerLibraries
  expandedActivatedLayerList : List ℕ
  layers : ℕ → LayerRecord
  /-- What `vkGetInstanceProcAddr` of a layer, or of the terminator, returns for `vkCreateDevice`. -/
  createDeviceOf : Pfn → Option NextCreateDevice
  callingLayer : Option Pfn
  /-- `phys_dev` of a `loader_physical_device_tramp`. -/
  physDevOf : Handle → Handle
  /-- Where the stack has room for the structures of the loader. -/
  wishes : ℕ × ℕ × ℕ × ℕ

/-! ### The layers -/

/-- `VkLayerDeviceLink`; the pointer to the next link is the place of that link in the array. -/
structure LayerDeviceLink where
  pNext : Option ℕ
  pfnNextGetInstanceProcAddr : Pfn
  pfnNextGetDeviceProcAddr : Pfn
  deriving DecidableEq

/-- The variables of the loop over the layers; `layerInfo` is `chain_info.u.pLayerInfo`, and `done` tells that the loop
has met the calling layer. -/
structure DeviceLinks where
  layers : ℕ → LayerRecord
  nextGipa : Pfn
  nextGdpa : Pfn
  links : List LayerDeviceLink
  layerInfo : Option ℕ
  activated : List ℕ
  layerNextGdpa : Option Pfn
  done : Bool

/-- The variables before the loop. -/
def DeviceLinks.start (layers : ℕ → LayerRecord) : DeviceLinks where
  layers := layers
  nextGipa := loaderGpaInstanceTerminator
  nextGdpa := loaderGpaDeviceTerminator
  links := []
  layerInfo := none
  activated := []
  layerNextGdpa := none
  done := false

/-- `vkGetInstanceProcAddr` of a layer with an open library: kept, or looked up. -/
def deviceGipa (lib : LayerLibraries) (libHandle : Handle) (prop : LayerRecord) : LayerRecord × Option Pfn :=
  match prop.functions.getInstanceProcAddr with
  | some gipa => (prop, some gipa)
  | none =>
    let gipa := lib.getProcAddress libHandle (functionName prop.functions.strGipa "vkGetInstanceProcAddr")
    if isUnnamed prop.functions.strGipa then
      ({ prop with functions := { prop.functions with getInstanceProcAddr := gipa } }, gipa)
    else (prop, gipa)

/-- `vkGetDeviceProcAddr` of a layer with an open library: kept, or looked up. -/
def deviceGdpa (lib : LayerLibraries) (libHandle : Handle) (prop : LayerRecord) : LayerRecord × Option Pfn :=
  match prop.functions.getDeviceProcAddr with
  | some gdpa => (prop, some gdpa)
  | none =>
    let gdpa := lib.getProcAddress libHandle (functionName prop.functions.strGdpa "vkGetDeviceProcAddr")
    if isUnnamed prop.functions.strGdpa then
      ({ prop with functions := { prop.functions with getDeviceProcAddr := gdpa } }, gdpa)
    else (prop, gdpa)

/-- A layer with an open library is linked above the others. -/
def linkDeviceLayer (env : DeviceChainEnv) (p : ℕ) (libHandle : Handle) (s : DeviceLinks) : DeviceLinks :=
  let (prop, fpGipa) := deviceGipa env.lib libHandle (s.layers p)
  let s := { s with layers := Function.update s.layers p prop }
  match fpGipa with
  | none => s
  | some fpGipa =>
    if some fpGipa = env.callingLayer then { s with layerNextGdpa := some s.nextGdpa, done := true }
    else
      let (prop, fpGdpa) := deviceGdpa env.lib libHandle prop
      let s := { s with layers := Function.update s.layers p prop }
      match fpGdpa with
      | none => s
      | some fpGdpa =>
        { s with
          links := s.links ++ [⟨s.layerInfo, s.nextGipa, s.nextGdpa⟩]
          layerInfo := some s.links.length
          nextGipa := fpGipa
          nextGdpa := fpGdpa
          activated := s.activated ++ [p] }

/-- One round of the loop of `loader_create_device_chain` over the layers. -/
def insertDeviceLayer (env : DeviceChainEnv) (p : ℕ) (s : DeviceLinks) : DeviceLinks :=
  if s.done then s
  else if s.activated.any fun q => (s.layers p).layerName == (s.layers q).layerName then s
  else
    match (s.layers p).libHandle with
    | none => s
    | some libHandle => linkDeviceLayer env p libHandle s

/-- The loop of `loader_create_device_chain` over the layers, from the last one to the first. -/
def buildDeviceChain (env : DeviceChainEnv) : List ℕ → DeviceLinks
  | [] => .start env.layers
  | p :: ps => insertDeviceLayer env p (buildDeviceChain env ps)

/-- The `vkCreateDevice` that is called. -/
def DeviceChainEnv.fpCreateDevice (env : DeviceChainEnv) : Option NextCreateDevice :=
  env.createDeviceOf (buildDeviceChain env env.expandedActivatedLayerList).nextGipa

/-! ### Creating the device -/

/-- The chain is written back: the structure before the first `VkDeviceGroupDeviceCreateInfo` points at the original
again. -/
def restoreDeviceGroup (h : Heap ChainStruct) (info original : ℕ) : Option (Heap ChainStruct) :=
  (h.get info).bind fun createInfo =>
    (findDeviceGroup h h.bound info createInfo.pNext).bind fun found =>
      match found with
      | none => some h
      | some (pPrev, curStruct) =>
        (h.get curStruct).bind fun s => if s.hasDevices then setPNext h pPrev original else some h

/-- A structure of the loader is put in front of the chain behind the structure `info`. -/
def pushStruct (wish : ℕ) (h : Heap ChainStruct) (info : ℕ) : Option (Heap ChainStruct × ℕ) :=
  (h.get info).bind fun createInfo =>
    let p := h.place wish
    (setPNext (h.alloc wish (.plain .loaderDeviceCreateInfo createInfo.pNext)) info p).map fun h => (h, p)

/-- What creating a device gives: the result, and the device and the `vkGetDeviceProcAddr` that fill its dispatch
table. -/
structure DeviceChainResult where
  res : VkResult
  chainDevice : Option (Handle × Pfn)
  layerNextGdpa : Option Pfn

/-- `loader_create_device_chain` from the call of `vkCreateDevice` on; `locals` are the structures on the stack. -/
def callCreateDevice (env : DeviceChainEnv) (links : DeviceLinks) (h : Heap ChainStruct)
    (loaderCreateInfo original : ℕ) (locals : List ℕ) : Option (DeviceChainResult × Heap ChainStruct) :=
  match env.createDeviceOf links.nextGipa with
  | none => (h.freeAll locals).map fun h => (⟨.errorInitializationFailed, none, links.layerNextGdpa⟩, h)
  | some fpCreateDevice =>
    (pushStruct env.wishes.2.2.2 h loaderCreateInfo).bind fun (h, createInfoDisp) =>
      let h := fpCreateDevice.run h loaderCreateInfo
      let locals := createInfoDisp :: locals
      if fpCreateDevice.result ≠ .success then
        (h.freeAll locals).map fun h => (⟨fpCreateDevice.result, none, links.layerNextGdpa⟩, h)
      else
        (restoreDeviceGroup h loaderCreateInfo original).bind fun h =>
          (h.freeAll locals).map fun h =>
            (⟨.success, some (fpCreateDevice.device, links.nextGdpa), links.layerNextGdpa⟩, h)

/-- `loader_create_device_chain`. -/
def loaderCreateDeviceChain (env : DeviceChainEnv) (h : Heap ChainStruct) (pCreateInfo : ℕ) :
    Option (DeviceChainResult × Heap ChainStruct) :=
  (h.get pCreateInfo).bind fun createInfo =>
    let loaderCreateInfo := h.place env.wishes.1
    let h := h.alloc env.wishes.1 createInfo
    (spliceDeviceGroup env.physDevOf env.wishes.2.1 h loaderCreateInfo).bind fun (h, splice) =>
      let original := splice.elim 0 Splice.original
      let locals := splice.elim [] (fun s => [s.temp]) ++ [loaderCreateInfo]
      if env.expandedActivatedLayerList.isEmpty then
        callCreateDevice env (.start env.layers) h loaderCreateInfo original locals
      else
        (pushStruct env.wishes.2.2.1 h loaderCreateInfo).bind fun (h, chainInfo) =>
          callCreateDevice env (buildDeviceChain env env.expandedActivatedLayerList) h loaderCreateInfo original
            (chainInfo :: locals)

/-! ### The terminator -/

/-- What `terminator_CreateDevice` depends on: the driver's `vkCreateDevice`, the results of setting up the list of
extensions and of filling it, with the extensions of the driver, and `phys_dev` of a `loader_physical_device_term`. -/
structure CreateDeviceTerminator where
  createDevice : Option NextCreateDevice
  listResult : VkResult
  extensionsResult : VkResult
  icdExts : List String
  physDevOf : Handle → Handle
  wishes : ℕ × ℕ

/-- The result of `terminator_CreateDevice`. -/
def CreateDeviceTerminator.result (env : CreateDeviceTerminator) : VkResult :=
  match env.createDevice with
  | none => .errorInitializationFailed
  | some fpCreateDevice =>
    if env.listResult ≠ .success then env.listResult
    else if env.extensionsResult ≠ .success then env.extensionsResult
    else fpCreateDevice.result

/-- The copy of the create info that the driver gets: no layers, and the extensions that it has. -/
def CreateDeviceTerminator.localCreateInfo (env : CreateDeviceTerminator) (createInfo : ChainStruct) : ChainStruct :=
  { createInfo with
    enabledLayerNames := []
    enabledExtensionNames := createInfo.enabledExtensionNames.filter env.icdExts.contains }

/-- `terminator_CreateDevice`; it keeps where it put the copy of a `VkDeviceGroupDeviceCreateInfo`, and writes the chain
back whatever the driver returns. -/
def terminatorCreateDevice (env : CreateDeviceTerminator) (h : Heap ChainStruct) (pCreateInfo : ℕ) :
    Option (Heap ChainStruct) :=
  match env.createDevice with
  | none => some h
  | some fpCreateDevice =>
    (h.get pCreateInfo).bind fun createInfo =>
      let localCreateInfo := h.place env.wishes.1
      let h := h.alloc env.wishes.1 (env.localCreateInfo createInfo)
      if env.listResult ≠ .success ∨ env.extensionsResult ≠ .success then h.free localCreateInfo
      else
        (spliceDeviceGroup env.physDevOf env.wishes.2 h localCreateInfo).bind fun (h, splice) =>
          let h := fpCreateDevice.run h localCreateInfo
          match splice with
          | none => h.free localCreateInfo
          | some splice =>
            (setPNext h splice.container splice.original).bind fun h => h.freeAll [splice.temp, localCreateInfo]

end VulkanLoader
