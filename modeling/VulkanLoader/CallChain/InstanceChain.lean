import VulkanLoader.CallChain.LayerLibraries

/-!
# The call chain of an instance

`loader_create_instance_chain` goes through the activated layers from the last to the first, opens the library of each,
negotiates or looks up its functions, and links it above the layers that it has linked before.  The functions of the
layer at hand live in variables that keep their values from one layer to the next.
-/

namespace VulkanLoader

/-- `VkLayerInstanceLink`; the pointer to the next link is the place of that link in the array. -/
structure LayerInstanceLink where
  pNext : Option ℕ
  pfnNextGetInstanceProcAddr : Option Pfn
  pfnNextGetPhysicalDeviceProcAddr : Option Pfn
  deriving DecidableEq

/-- The variables `cur_gipa`, `cur_gdpa` and `cur_gpdpa`. -/
structure CurFunctions where
  gipa : Option Pfn
  gdpa : Option Pfn
  gpdpa : Option Pfn

/-- The variables of the loop, and the layer records that it writes; `activated` holds the record behind each entry of
`activated_layers`, and `layerInfo` is `chain_info.u.pLayerInfo`. -/
structure InstanceChain where
  layers : ℕ → LayerRecord
  cur : CurFunctions
  nextGipa : Option Pfn
  nextGpdpa : Option Pfn
  links : List LayerInstanceLink
  layerInfo : Option ℕ
  activated : List ℕ

namespace InstanceChain

/-- The variables before the loop. -/
def start (layers : ℕ → LayerRecord) : InstanceChain where
  layers := layers
  cur := ⟨some loaderGpaInstanceTerminator, some loaderGpaDeviceTerminator, some loaderGpdpaInstanceTerminator⟩
  nextGipa := some loaderGpaInstanceTerminator
  nextGpdpa := some loaderGpdpaInstanceTerminator
  links := []
  layerInfo := none
  activated := []

/-- `loader_names_array_has_layer_property`. -/
def hasLayerProperty (s : InstanceChain) (name : String) : Bool :=
  s.activated.any fun p => name == (s.layers p).layerName

/-- A layer record is written. -/
def setLayer (s : InstanceChain) (p : ℕ) (prop : LayerRecord) : InstanceChain :=
  { s with layers := Function.update s.layers p prop }

end InstanceChain

section Loop

variable (lib : LayerLibraries)

/-- The negotiation of an interface version, and whether it gave the functions. -/
def negotiateInterface (libHandle : Handle) (prop : LayerRecord) (cur : CurFunctions) :
    LayerRecord × CurFunctions × Bool :=
  match lib.getProcAddress libHandle
      (functionName prop.functions.strNegotiateInterface "vkNegotiateLoaderLayerInterfaceVersion") with
  | none => (prop, cur, false)
  | some negotiate =>
    let prop := { prop with functions := { prop.functions with negotiateLayerInterface := some negotiate } }
    match lib.loaderGetLayerInterfaceVersion negotiate with
    | none => (prop, cur, false)
    | some interface =>
      let prop := { prop with interfaceVersion := interface.loaderLayerInterfaceVersion }
      if interface.loaderLayerInterfaceVersion > 1 then
        (prop, ⟨interface.pfnGetInstanceProcAddr, interface.pfnGetDeviceProcAddr,
          interface.pfnGetPhysicalDeviceProcAddr⟩, interface.pfnGetInstanceProcAddr.isSome)
      else (prop, cur, false)

/-- The look-up of `vkGetInstanceProcAddr` where the negotiation did not give it. -/
def lookUpGipa (libHandle : Handle) (prop : LayerRecord) (cur : CurFunctions) : LayerRecord × CurFunctions :=
  match prop.functions.getInstanceProcAddr with
  | some gipa => (prop, { cur with gipa := some gipa })
  | none =>
    let gipa := lib.getProcAddress libHandle (functionName prop.functions.strGipa "vkGetInstanceProcAddr")
    if isUnnamed prop.functions.strGipa then
      ({ prop with functions := { prop.functions with getInstanceProcAddr := gipa } }, { cur with gipa := gipa })
    else (prop, { cur with gipa := gipa })

/-- What the loop does to find the functions of a layer; the last component tells to go on with the layer. -/
def findFunctions (libHandle : Handle) (prop : LayerRecord) (cur : CurFunctions) :
    LayerRecord × CurFunctions × Bool :=
  if prop.functions.negotiateLayerInterface.isNone then
    let (prop, cur, functionsInInterface) := negotiateInterface lib libHandle prop cur
    if functionsInInterface then (prop, cur, true)
    else
      let (prop, cur) := lookUpGipa lib libHandle prop cur
      (prop, cur, cur.gipa.isSome)
  else (prop, cur, true)

/-- The pointers that the layer record keeps for later. -/
def keepFunctions (prop : LayerRecord) (cur : CurFunctions) : LayerRecord :=
  if prop.interfaceVersion > 1 then
    { prop with
      functions :=
        { prop.functions with
          getPhysicalDeviceProcAddr := cur.gpdpa.or prop.functions.getPhysicalDeviceProcAddr
          getInstanceProcAddr := cur.gipa.or prop.functions.getInstanceProcAddr
          getDeviceProcAddr := cur.gdpa.or prop.functions.getDeviceProcAddr } }
  else prop

/-- A layer is linked above the others. -/
def linkInstanceLayer (p : ℕ) (prop : LayerRecord) (s : InstanceChain) : Except VkResult InstanceChain :=
  let nextGpdpa := if prop.interfaceVersion > 1 && s.cur.gpdpa.isSome then s.cur.gpdpa else s.nextGpdpa
  let (res, libName) := lib.fixupLibraryBinaryPath prop.libName s.cur.gipa
  if res = .errorOutOfHostMemory then .error res
  else
    .ok
      { s with
        layers := Function.update s.layers p { keepFunctions prop s.cur with libName := libName }
        nextGipa := s.cur.gipa
        nextGpdpa := nextGpdpa
        links := s.links ++ [⟨s.layerInfo, s.nextGipa, s.nextGpdpa⟩]
        layerInfo := some s.links.length
        activated := s.activated ++ [p] }

/-- One round of the loop of `loader_create_instance_chain`. -/
def insertInstanceLayer (attempt : ℕ) (p : ℕ) (s : InstanceChain) : Except VkResult InstanceChain :=
  if s.hasLayerProperty (s.layers p).layerName then .ok s
  else
    let prop := lib.openLayerFile attempt (s.layers p)
    if prop.libStatus = .errorOutOfMemory then .error .errorOutOfHostMemory
    else
      match prop.libHandle with
      | none => .ok (s.setLayer p prop)
      | some libHandle =>
        let (prop, cur, found) := findFunctions lib libHandle prop s.cur
        if found then linkInstanceLayer lib p prop { s with cur := cur }
        else .ok { s.setLayer p prop with cur := cur }

/-- The loop of `loader_create_instance_chain`, from the last layer of the list to the first. -/
def buildInstanceChain (layers : ℕ → LayerRecord) : List ℕ → Except VkResult InstanceChain
  | [] => .ok (.start layers)
  | p :: ps => (buildInstanceChain layers ps).bind fun s => insertInstanceLayer lib ps.length p s

end Loop

/-- The check that each layer that the application asked for is in the chain. -/
def requestedLayersLoaded (expandedActivatedLayerList : List ℕ) (enabledLayerNames : List String) (s : InstanceChain) :
    Bool :=
  expandedActivatedLayerList.all fun p =>
    s.hasLayerProperty (s.layers p).layerName || !enabledLayerNames.contains (s.layers p).layerName

/-- `loader_create_instance_chain` up to the call of `vkCreateInstance`: the chain, and the function that
`next_gipa` returns for `vkCreateInstance`, which is called.  `none` is undefined behaviour, a call of `NULL`. -/
def loaderCreateInstanceChain (lib : LayerLibraries) (getProcAddr : Pfn → String → Option Pfn)
    (layers : ℕ → LayerRecord) (expandedActivatedLayerList : List ℕ) (enabledLayerNames : List String) :
    Option (Except VkResult (InstanceChain × Pfn)) :=
  match buildInstanceChain lib layers expandedActivatedLayerList with
  | .error res => some (.error res)
  | .ok s =>
    if requestedLayersLoaded expandedActivatedLayerList enabledLayerNames s then
      s.nextGipa.map fun gipa =>
        match getProcAddr gipa "vkCreateInstance" with
        | none => .error .errorInitializationFailed
        | some fpCreateInstance => .ok (s, fpCreateInstance)
    else some (.error .errorLayerNotPresent)

end VulkanLoader
