import VulkanLoader.Layers.Verify
import VulkanLoader.Lib.EarlyExit
import VulkanLoader.Manifests.Fields
import VulkanLoader.Manifests.Json

/-!
# Reading a layer of a manifest (`loader_read_layer_json`)

The fields of a layer are parsed one after the other into a record, and each of them may end the reading: `goto out` is
an exit with the result that the function has then.  At its end the function appends the record if that result is
`VK_SUCCESS`, wherever it comes from, and frees it otherwise.

The blocks of memory of a record are counted.  How each request for memory ends is an argument of the reader; what
`loader_realloc` leaves open in an array that grows is taken as cleared.
-/

namespace VulkanLoader

/-! ### The record -/

/-- `struct loader_dev_ext_props`, with the list of its entry points. -/
structure RecordDevExt where
  props : VkExtensionProperties
  entrypoints : StringList

/-- `struct loader_device_extension_list` of a record, its capacity counted in entries. -/
structure RecordDevExtList where
  list : List RecordDevExt
  capacity : ℕ

/-- The list with one more extension. -/
def RecordDevExtList.push (extList : RecordDevExtList) (ext : RecordDevExt) : RecordDevExtList where
  list := extList.list ++ [ext]
  capacity := if extList.list.length ≥ extList.capacity then extList.capacity * 2 else extList.capacity

/-- An environment variable of a layer. -/
structure LayerEnvVar where
  name : Option String
  value : Option String
  deriving DecidableEq

/-- `struct loader_layer_functions`, as far as a manifest names them. -/
structure LayerFunctionNames where
  strNegotiateInterface : Option String
  strGipa : Option String
  strGdpa : Option String
  deriving DecidableEq

/-- `struct loader_layer_pre_instance_functions`. -/
structure PreInstanceFunctions where
  enumerateInstanceExtensionProperties : Option String
  enumerateInstanceLayerProperties : Option String
  enumerateInstanceVersion : Option String
  deriving DecidableEq

/-- `struct loader_layer_properties`, with all that a manifest can say. -/
structure ManifestLayer where
  manifestFileName : Option String
  layerName : String
  specVersion : UInt32
  implementationVersion : UInt32
  description : String
  typeFlags : LayerTypeFlags
  isOverride : Bool
  libName : Option String
  componentLayerNames : StringList
  blacklistLayerNames : StringList
  overridePaths : StringList
  disableEnvVar : LayerEnvVar
  functions : LayerFunctionNames
  instanceExtensionList : ExtensionList
  deviceExtensionList : RecordDevExtList
  enableEnvVar : LayerEnvVar
  preInstanceFunctions : PreInstanceFunctions
  appKeyPaths : StringList

namespace ManifestLayer

/-- A record of zeros. -/
def zero : ManifestLayer where
  manifestFileName := none
  layerName := ""
  specVersion := 0
  implementationVersion := 0
  description := ""
  typeFlags := ⟨false, false⟩
  isOverride := false
  libName := none
  componentLayerNames := .zero
  blacklistLayerNames := .zero
  overridePaths := .zero
  disableEnvVar := ⟨none, none⟩
  functions := ⟨none, none, none⟩
  instanceExtensionList := ⟨[], 0⟩
  deviceExtensionList := ⟨[], 0⟩
  enableEnvVar := ⟨none, none⟩
  preInstanceFunctions := ⟨none, none, none⟩
  appKeyPaths := .zero

/-- The block of a string. -/
def stringBlocks (string : Option String) : ℕ := if string.isSome then 1 else 0

/-- The blocks of a list of device extensions: nothing of a list without memory is freed. -/
def devExtBlocks (list : RecordDevExtList) : ℕ :=
  if list.capacity = 0 then 0 else 1 + (list.list.map fun ext => ext.entrypoints.blocks).sum

/-- The blocks that `loader_free_layer_properties` frees, field by field in the order in which they are filled in. -/
def blocks (props : ManifestLayer) : List ℕ :=
  [stringBlocks props.manifestFileName, stringBlocks props.libName, props.componentLayerNames.blocks,
    props.blacklistLayerNames.blocks, props.overridePaths.blocks, stringBlocks props.disableEnvVar.name,
    stringBlocks props.disableEnvVar.value, stringBlocks props.functions.strNegotiateInterface,
    stringBlocks props.functions.strGipa, stringBlocks props.functions.strGdpa,
    if props.instanceExtensionList.capacity = 0 then 0 else 1, devExtBlocks props.deviceExtensionList,
    stringBlocks props.enableEnvVar.name, stringBlocks props.enableEnvVar.value,
    stringBlocks props.preInstanceFunctions.enumerateInstanceExtensionProperties,
    stringBlocks props.preInstanceFunctions.enumerateInstanceLayerProperties,
    stringBlocks props.preInstanceFunctions.enumerateInstanceVersion, props.appKeyPaths.blocks]

/-- What the rest of the loader reads of a record. -/
def toProperties (props : ManifestLayer) : LayerProperties where
  layerName := props.layerName
  specVersion := loaderMakeFullVersion props.specVersion
  typeFlags := props.typeFlags
  settingsControlValue := .default
  libName := props.libName
  instanceExtensionList := props.instanceExtensionList
  deviceExtensionList :=
    ⟨props.deviceExtensionList.list.map fun ext => ⟨ext.props, ext.entrypoints.strings⟩,
      props.deviceExtensionList.capacity⟩
  disableEnvVar := props.disableEnvVar.name
  enableEnvVar := props.enableEnvVar.name.bind fun name => props.enableEnvVar.value.map fun value => (name, value)
  componentLayerNames := props.componentLayerNames.strings
  overridePaths := props.overridePaths.strings
  isOverride := props.isOverride
  blacklistLayerNames := props.blacklistLayerNames.strings
  appKeyPaths := props.appKeyPaths.strings

end ManifestLayer

/-- The answers to the requests that are made for a layer: for a name each, or for an array of strings; those of the
loops by the index of the element, and those for an array that grows by its capacity. -/
structure LayerRequests where
  manifestFileName : Bool
  libraryPath : Bool
  fullPath : Bool
  componentLayers : StringListRequests
  blacklistedLayers : StringListRequests
  overridePaths : StringListRequests
  disableName : Bool
  disableValue : Bool
  negotiate : Bool
  gipa : Bool
  gdpa : Bool
  instanceSpecVersion : ℕ → Bool
  growInstance : ℕ → Bool
  deviceSpecVersion : ℕ → Bool
  entrypoints : ℕ → StringListRequests
  growDevice : ℕ → Bool
  enableName : Bool
  enableValue : Bool
  preInstanceExtensions : Bool
  preInstanceLayers : Bool
  preInstanceVersion : Bool
  appKeys : StringListRequests
  growList : ℕ → Bool

/-- All requests are granted. -/
def LayerRequests.granted : LayerRequests where
  manifestFileName := true
  libraryPath := true
  fullPath := true
  componentLayers := .granted
  blacklistedLayers := .granted
  overridePaths := .granted
  disableName := true
  disableValue := true
  negotiate := true
  gipa := true
  gdpa := true
  instanceSpecVersion := fun _ => true
  growInstance := fun _ => true
  deviceSpecVersion := fun _ => true
  entrypoints := fun _ => .granted
  growDevice := fun _ => true
  enableName := true
  enableValue := true
  preInstanceExtensions := true
  preInstanceLayers := true
  preInstanceVersion := true
  appKeys := .granted
  growList := fun _ => true

/-- What a layer is read with: the name of its file, the version of the manifest, whether the layer is implicit, and the
bytes of a pointer. -/
structure LayerFile where
  fileName : String
  version : ApiVersion
  isImplicit : Bool
  pointerSize : ℕ

/-! ### The fields -/

namespace LayerReader

open Lib

/-- The record, and the number of the blocks that are allocated for it and not freed. -/
structure State where
  props : ManifestLayer
  live : ℤ

/-- The reader: an exit is a `goto out` with the result. -/
abbrev Reader := Exiting VkResult State

/-- Something is written to the record. -/
def store (write : ManifestLayer → ManifestLayer) : Reader Unit := modify fun s => { s with props := write s.props }

/-- So many blocks are allocated, or freed if there are fewer than none. -/
def allocate (n : ℤ) : Reader Unit := modify fun s => { s with live := s.live + n }

/-- `loader_copy_to_new_str`. -/
def loaderCopyToNewStr (granted : Bool) (str : String) : VkResult × Option String :=
  if granted then (.success, some str) else (.errorOutOfHostMemory, none)

/-- A string is taken over into a field; only a refused request ends the reading. -/
def keepString (parsed : VkResult × Option String) (write : Option String → ManifestLayer → ManifestLayer) : Reader Unit :=
  match parsed with
  | (_, some str) => do
    allocate 1
    store (write (some str))
  | (.errorOutOfHostMemory, none) => throw .errorOutOfHostMemory
  | (_, none) => pure ()

/-- A list of strings is taken over into a field, with what was parsed before an error. -/
def keepStrings (parsed : VkResult × StringList) (write : StringList → ManifestLayer → ManifestLayer) : Reader Unit := do
  allocate parsed.2.blocks
  store (write parsed.2)
  if parsed.1 = .errorOutOfHostMemory then throw .errorOutOfHostMemory

variable (req : LayerRequests) (file : LayerFile) (node : CJson)

/-- `manifest_file_name`. -/
def readManifestFileName : Reader Unit :=
  keepString (loaderCopyToNewStr req.manifestFileName file.fileName) fun str props =>
    { props with manifestFileName := str }

/-- `name`. -/
def readName : Reader Unit :=
  match loaderParseJsonStringToExistingStr node "name" vkMaxExtensionNameSize with
  | none => throw .errorInitializationFailed
  | some layerName => store fun props => { props with layerName, isOverride := layerName == vkOverrideLayerName }

/-- `type`. -/
def readType : Reader Unit :=
  match node.stringItem "type" with
  | none => throw .errorInitializationFailed
  | some type =>
    if type = "DEVICE" then throw .errorInitializationFailed
    else if type = "INSTANCE" ∨ type = "GLOBAL" then
      store fun props => { props with typeFlags := ⟨!file.isImplicit, false⟩ }
    else throw .errorInitializationFailed

/-- `api_version`. -/
def readApiVersion : Reader Unit :=
  match node.stringItem "api_version" with
  -- the result is still that of the name
  | none => throw .success
  | some apiVersion => do
    store fun props => { props with specVersion := loaderParseVersionString apiVersion }
    if vkApiVersionVariant (loaderParseVersionString apiVersion) ≠ 0 then throw .errorInitializationFailed

/-- `implementation_version`. -/
def readImplementationVersion : Reader Unit :=
  match node.stringItem "implementation_version" with
  -- and here as well
  | none => throw .success
  | some implementationVersion =>
    store fun props => { props with implementationVersion := UInt32.ofInt (atoi implementationVersion.toList) }

/-- `VK_MAX_DESCRIPTION_SIZE`. -/
def vkMaxDescriptionSize : ℕ := 256

/-- `description`. -/
def readDescription : Reader Unit :=
  match loaderParseJsonStringToExistingStr node "description" vkMaxDescriptionSize with
  | none => throw .errorInitializationFailed
  | some description => store fun props => { props with description }

/-- `library_path`: whether there is one. -/
def readLibraryPath : Reader Bool :=
  match loaderParseJsonString req.libraryPath node "library_path" with
  | (_, some libraryPath) => do
    allocate 1
    if (node.getObjectItem "component_layers").isSome then
      allocate (-1)
      throw .errorInitializationFailed
    else
      match combineManifestDirectoryAndLibraryPath req.fullPath libraryPath file.fileName with
      -- the path is taken over, or freed for one that is
      | (.success, libName) =>
        store fun props => { props with libName }
        pure true
      | (res, _) =>
        allocate (-1)
        throw res
  | (.errorOutOfHostMemory, none) => throw .errorOutOfHostMemory
  | (_, none) => pure false

/-- `component_layers`, of a layer without a library. -/
def readComponentLayers (hasLibrary : Bool) : Reader Unit :=
  if hasLibrary then pure ()
  else do
    let parsed := loaderParseJsonArrayOfStrings req.componentLayers node "component_layers"
    keepStrings parsed fun componentLayerNames props => { props with componentLayerNames }
    if parsed.1 = .errorInitializationFailed then throw .errorInitializationFailed
    store fun props => { props with typeFlags := { props.typeFlags with metaLayer := true } }

/-- `blacklisted_layers`, of the override layer. -/
def readBlacklistedLayers : Reader Unit := do
  let s ← get
  if s.props.isOverride then
    keepStrings (loaderParseJsonArrayOfStrings req.blacklistedLayers node "blacklisted_layers")
      fun blacklistLayerNames props => { props with blacklistLayerNames }

/-- `override_paths`. -/
def readOverridePaths : Reader Unit :=
  keepStrings (loaderParseJsonArrayOfStrings req.overridePaths node "override_paths")
    fun overridePaths props => { props with overridePaths }

/-- The first member of an object, if it is a string. -/
def firstString : CJson → Option (String × String)
  | .object ((string, .string valuestring) :: _) => some (string, valuestring)
  | _ => none

/-- `disable_environment`, of an implicit layer. -/
def readDisableEnvironment : Reader Unit :=
  if !file.isImplicit then pure ()
  else
    match (node.getObjectItem "disable_environment").bind firstString with
    | none => throw .errorInitializationFailed
    | some (string, valuestring) => do
      keepString (loaderCopyToNewStr req.disableName string) fun name props =>
        { props with disableEnvVar := { props.disableEnvVar with name } }
      keepString (loaderCopyToNewStr req.disableValue valuestring) fun value props =>
        { props with disableEnvVar := { props.disableEnvVar with value } }

/-- `functions`. -/
def readFunctions : Reader Unit :=
  match node.getObjectItem "functions" with
  | none => pure ()
  | some functions => do
    if loaderCheckVersionMeetsRequired ⟨1, 1, 0⟩ file.version then
      keepString (loaderParseJsonString req.negotiate functions "vkNegotiateLoaderLayerInterfaceVersion")
        fun strNegotiateInterface props => { props with functions := { props.functions with strNegotiateInterface } }
    keepString (loaderParseJsonString req.gipa functions "vkGetInstanceProcAddr") fun strGipa props =>
      { props with functions := { props.functions with strGipa } }
    keepString (loaderParseJsonString req.gdpa functions "vkGetDeviceProcAddr") fun strGdpa props =>
      { props with functions := { props.functions with strGdpa } }

/-! ### Extensions -/

/-- The name and the version of an extension.  It is `none` without a name; the string of the version is freed again. -/
def parseExtension (granted : Bool) (extItem : CJson) : Reader (Option VkExtensionProperties) :=
  if !extItem.isObject then pure none
  else
    match loaderParseJsonStringToExistingStr extItem "name" vkMaxExtensionNameSize with
    | none => pure none
    | some extensionName =>
      match loaderParseJsonString granted extItem "spec_version" with
      | (.errorOutOfHostMemory, none) => throw .errorOutOfHostMemory
      | (_, specVersion) =>
        pure (some ⟨extensionName, specVersion.elim 0 fun str => (UInt32.ofInt (atoi str.toList)).toNat⟩)

/-- An extension is added to the instance extensions of the record. -/
def addInstanceExtension (extProp : VkExtensionProperties) : Reader Unit := do
  let s ← get
  let (res, instanceExtensionList) := loaderAddToExtList req.growInstance s.props.instanceExtensionList [extProp]
  if s.props.instanceExtensionList.capacity = 0 ∧ req.growInstance 0 then allocate 1
  store fun props => { props with instanceExtensionList }
  if res = .errorOutOfHostMemory then throw res

/-- The body of the loop over `instance_extensions`. -/
def readInstanceExtension (i : ℕ) (extItem : CJson) : Reader Unit := do
  match ← parseExtension (req.instanceSpecVersion i) extItem with
  | none => pure ()
  | some extProp => if !wsiUnsupportedInstanceExtension extProp then addInstanceExtension req extProp

/-- A loop over the elements of an array, from the index `i` on. -/
def forEach (body : ℕ → CJson → Reader Unit) : ℕ → List CJson → Reader Unit
  | _, [] => pure ()
  | i, item :: items => do
    body i item
    forEach body (i + 1) items

/-- The elements of a member, if it is an array. -/
def arrayItems (key : String) : List CJson :=
  match node.getObjectItem key with
  | some (.array items) => items
  | _ => []

/-- `instance_extensions`. -/
def readInstanceExtensions : Reader Unit :=
  forEach (readInstanceExtension req) 0 (arrayItems node "instance_extensions")

/-- The list of device extensions gets its array, if it has none; where it cannot, the entry points are freed. -/
def initDeviceExtensions (entrys : Option StringList) : Reader Unit := do
  let s ← get
  if s.props.deviceExtensionList.capacity = 0 then
    if req.growDevice 0 then
      allocate 1
      store fun props => { props with deviceExtensionList := ⟨[], 32⟩ }
    else
      allocate (-entrys.elim 0 StringList.blocks)
      throw .errorOutOfHostMemory

/-- `loader_add_to_dev_ext_list`.  The entry points are taken over with the extension, and freed if it is not added. -/
def loaderAddToDevExtList (props : VkExtensionProperties) (entrys : Option StringList) : Reader Unit := do
  initDeviceExtensions req entrys
  let s ← get
  let extList := s.props.deviceExtensionList
  if extList.list.any fun ext => ext.props.extensionName == props.extensionName then
    allocate (-entrys.elim 0 StringList.blocks)
  else if extList.list.length ≥ extList.capacity ∧ !req.growDevice extList.capacity then
    allocate (-entrys.elim 0 StringList.blocks)
    throw .errorOutOfHostMemory
  else
    store fun record => { record with deviceExtensionList := extList.push ⟨props, entrys.getD .zero⟩ }

/-- The body of the loop over `device_extensions`. -/
def readDeviceExtension (i : ℕ) (extItem : CJson) : Reader Unit := do
  match ← parseExtension (req.deviceSpecVersion i) extItem with
  | none => pure ()
  | some extProp =>
    match extItem.getObjectItem "entrypoints" with
    | none => loaderAddToDevExtList req extProp none
    | some _ =>
      let parsed := loaderParseJsonArrayOfStrings (req.entrypoints i) extItem "entrypoints"
      allocate parsed.2.blocks
      if parsed.1 = .errorOutOfHostMemory then throw .errorOutOfHostMemory
      loaderAddToDevExtList req extProp (some parsed.2)

/-- `device_extensions`. -/
def readDeviceExtensions : Reader Unit :=
  forEach (readDeviceExtension req) 0 (arrayItems node "device_extensions")

/-! ### The fields at the end -/

/-- `enable_environment`, of an implicit layer. -/
def readEnableEnvironment : Reader Unit :=
  if !file.isImplicit then pure ()
  else
    match (node.getObjectItem "enable_environment").bind firstString with
    | none => pure ()
    | some (string, valuestring) => do
      keepString (loaderCopyToNewStr req.enableName string) fun name props =>
        { props with enableEnvVar := { props.enableEnvVar with name } }
      keepString (loaderCopyToNewStr req.enableValue valuestring) fun value props =>
        { props with enableEnvVar := { props.enableEnvVar with value } }

/-- `pre_instance_functions`. -/
def readPreInstanceFunctions : Reader Unit :=
  match node.getObjectItem "pre_instance_functions" with
  | none => pure ()
  | some preInstance =>
    if !loaderCheckVersionMeetsRequired ⟨1, 1, 2⟩ file.version then pure ()
    else if !file.isImplicit then pure ()
    else do
      keepString (loaderParseJsonString req.preInstanceExtensions preInstance "vkEnumerateInstanceExtensionProperties")
        fun enumerateInstanceExtensionProperties props =>
          { props with
            preInstanceFunctions := { props.preInstanceFunctions with enumerateInstanceExtensionProperties } }
      keepString (loaderParseJsonString req.preInstanceLayers preInstance "vkEnumerateInstanceLayerProperties")
        fun enumerateInstanceLayerProperties props =>
          { props with preInstanceFunctions := { props.preInstanceFunctions with enumerateInstanceLayerProperties } }
      keepString (loaderParseJsonString req.preInstanceVersion preInstance "vkEnumerateInstanceVersion")
        fun enumerateInstanceVersion props =>
          { props with preInstanceFunctions := { props.preInstanceFunctions with enumerateInstanceVersion } }

/-- `app_keys`. -/
def readAppKeys : Reader Unit :=
  if (node.getObjectItem "app_keys").isSome then
    keepStrings (loaderParseJsonArrayOfStrings req.appKeys node "app_keys")
      fun appKeyPaths props => { props with appKeyPaths }
  else pure ()

/-- `library_arch`. -/
def readLibraryArch : Reader Unit :=
  match node.stringItem "library_arch" with
  | none => pure ()
  | some libraryArch =>
    if libraryArchMatches file.pointerSize libraryArch then pure () else throw .errorInitializationFailed

/-! ### The layer -/

/-- `loader_read_layer_json` up to `out`. -/
def readLayer : Reader Unit := do
  readManifestFileName req file
  readName node
  readType file node
  readApiVersion node
  readImplementationVersion node
  readDescription node
  let hasLibrary ← readLibraryPath req file node
  readComponentLayers req node hasLibrary
  readBlacklistedLayers req node
  readOverridePaths req node
  readDisableEnvironment req file node
  readFunctions req file node
  readInstanceExtensions req node
  readDeviceExtensions req node
  readEnableEnvironment req file node
  readPreInstanceFunctions req file node
  readAppKeys req node
  readLibraryArch file node

end LayerReader

/-- `struct loader_layer_list`, its capacity counted in entries. -/
structure LayerList where
  list : List ManifestLayer
  capacity : ℕ
  empty : capacity = 0 → list = []

/-- A list of zeros. -/
def LayerList.zero : LayerList := ⟨[], 0, fun _ => rfl⟩

/-- `loader_append_layer_property`. -/
def LayerList.append (grow : ℕ → Bool) (layerList : LayerList) (layerProperty : ManifestLayer) :
    VkResult × LayerList :=
  if hzero : layerList.capacity = 0 then
    if grow 0 then (.success, ⟨[layerProperty], 32, fun h => absurd h (by decide)⟩) else (.errorOutOfHostMemory, layerList)
  else if layerList.list.length + 1 > layerList.capacity then
    if grow layerList.capacity then
      (.success, ⟨layerList.list ++ [layerProperty], layerList.capacity * 2, fun h => absurd h (by omega)⟩)
    else (.errorOutOfHostMemory, layerList)
  else (.success, ⟨layerList.list ++ [layerProperty], layerList.capacity, fun h => absurd h hzero⟩)

/-- What `loader_read_layer_json` leaves: its result, the list, and how many blocks are neither freed nor owned by a
record of the list. -/
structure ReadOutcome where
  result : VkResult
  layerList : LayerList
  leaked : ℤ

/-- `loader_read_layer_json`.  The blocks of the record go to the list with it, or are freed. -/
def loaderReadLayerJson (req : LayerRequests) (file : LayerFile) (node : CJson) (layerList : LayerList) :
    ReadOutcome :=
  let (ended, s) := (LayerReader.readLayer req file node).from ⟨.zero, 0⟩
  let result :=
    match ended with
    | .ok () => .success
    | .error res => res
  let appended := if result = .success then layerList.append req.growList s.props else (result, layerList)
  ⟨appended.1, appended.2, s.live - s.props.blocks.sum⟩

end VulkanLoader
