import VulkanLoader.Instance.Extensions

/-!
# Layers and the filters of the environment

The record that a layer manifest is read into, and the questions that scanning and activation ask about a layer: whether
a filter of the environment takes it, and whether it is enabled when it is implicit.
-/

namespace VulkanLoader

/-- `loader_api_version`. -/
structure ApiVersion where
  major : ℕ
  minor : ℕ
  patch : ℕ
  deriving DecidableEq

/-- `loader_make_version`. -/
def loaderMakeVersion (version : ApiVersion) : ApiVersion := { version with patch := 0 }

/-- `loader_check_version_meets_required`. -/
def loaderCheckVersionMeetsRequired (required version : ApiVersion) : Bool :=
  version.major > required.major ||
    (version.major == required.major && version.minor > required.minor) ||
    (version.major == required.major && version.minor == required.minor && version.patch ≥ required.patch)

/-- `enum loader_settings_layer_control`. -/
inductive SettingsLayerControl where
  | default
  | on
  | off
  | unorderedLayerLocation
  deriving DecidableEq

/-- The bits of `enum layer_type_flags` that are read. -/
structure LayerTypeFlags where
  explicitLayer : Bool
  metaLayer : Bool
  deriving DecidableEq

/-- `struct loader_dev_ext_props`. -/
structure DevExtProps where
  props : VkExtensionProperties
  entrypoints : List String
  deriving DecidableEq

/-- `struct loader_device_extension_list`, its capacity counted in entries. -/
structure DeviceExtensionList where
  list : List DevExtProps
  capacity : ℕ

/-- `struct loader_layer_properties`.  Of the two variables of an implicit layer the value counts for the one that
enables it only. -/
structure LayerProperties where
  layerName : String
  specVersion : ApiVersion
  typeFlags : LayerTypeFlags
  settingsControlValue : SettingsLayerControl
  libName : Option String
  instanceExtensionList : ExtensionList
  deviceExtensionList : DeviceExtensionList
  disableEnvVar : Option String
  enableEnvVar : Option (String × String)
  componentLayerNames : List String
  overridePaths : List String
  isOverride : Bool
  blacklistLayerNames : List String
  appKeyPaths : List String

namespace LayerProperties

/-- A record of zeros. -/
def zero : LayerProperties where
  layerName := ""
  specVersion := ⟨0, 0, 0⟩
  typeFlags := ⟨false, false⟩
  settingsControlValue := .default
  libName := none
  instanceExtensionList := ⟨[], 0⟩
  deviceExtensionList := ⟨[], 0⟩
  disableEnvVar := none
  enableEnvVar := none
  componentLayerNames := []
  overridePaths := []
  isOverride := false
  blacklistLayerNames := []
  appKeyPaths := []

/-- The bit `VK_LAYER_TYPE_FLAG_EXPLICIT_LAYER`. -/
def isExplicit (p : LayerProperties) : Bool := p.typeFlags.explicitLayer

/-- The bit `VK_LAYER_TYPE_FLAG_META_LAYER`. -/
def isMeta (p : LayerProperties) : Bool := p.typeFlags.metaLayer

end LayerProperties

/-- An explicit layer. -/
def LayerProperties.explicitNamed (name : String) : LayerProperties :=
  { LayerProperties.zero with layerName := name, typeFlags := ⟨true, false⟩ }

/-- An explicit meta-layer with these components. -/
def metaOf (layerName : String) (componentLayerNames : List String) : LayerProperties :=
  { LayerProperties.zero with
    layerName := layerName, typeFlags := ⟨true, true⟩, componentLayerNames := componentLayerNames }

/-- `VK_OVERRIDE_LAYER_NAME`. -/
def vkOverrideLayerName : String := "VK_LAYER_LUNARG_override"

/-- `loader_find_layer_property`. -/
def loaderFindLayerProperty (name : String) (layerList : List LayerProperties) : Option LayerProperties :=
  layerList.find? fun item => name == item.layerName

/-- `loader_find_layer_name_in_list`. -/
def loaderFindLayerNameInList (name : String) (layerList : List LayerProperties) : Bool :=
  layerList.any fun item => name == item.layerName

theorem mem_of_loaderFindLayerProperty {name : String} {l : List LayerProperties} {p : LayerProperties}
    (h : loaderFindLayerProperty name l = some p) : p ∈ l ∧ p.layerName = name := by
  refine ⟨List.mem_of_find?_eq_some h, ?_⟩
  have hname := List.find?_some h
  exact (beq_iff_eq.1 hname).symm

/-! ### The filters -/

/-- `enum loader_filter_string_type`. -/
inductive FilterStringType where
  | fullName
  | substring
  | nameStart
  | nameEnd
  | special
  deriving DecidableEq

/-- `struct loader_envvar_filter_value`; its length is that of the value. -/
structure EnvvarFilterValue where
  value : List Char
  type : FilterStringType

/-- `struct loader_envvar_filter`. -/
abbrev EnvvarFilter := List EnvvarFilterValue

/-- `struct loader_envvar_disable_layers_filter`. -/
structure EnvvarDisableLayersFilter where
  additionalFilters : EnvvarFilter
  disableAll : Bool
  disableAllImplicit : Bool
  disableAllExplicit : Bool

/-- `struct loader_envvar_all_filters`. -/
structure EnvvarAllFilters where
  enableFilter : EnvvarFilter
  disableFilter : EnvvarDisableLayersFilter
  allowFilter : EnvvarFilter

/-- No filter is set. -/
def EnvvarAllFilters.unset : EnvvarAllFilters := ⟨[], ⟨[], false, false, false⟩, []⟩

/-- `name_segment_matches_filter_value`, for a segment that is long enough. -/
def nameSegmentMatchesFilterValue (nameSegment lowercaseFilterValue : List Char) : Bool :=
  (nameSegment.take lowercaseFilterValue.length).map Char.toLower == lowercaseFilterValue

/-- One round of the loop of `check_name_matches_filter_environment_var`. -/
def nameMatchesFilterValue (name : List Char) (filter : EnvvarFilterValue) : Bool :=
  if filter.value.length > name.length then false
  else
    match filter.type with
    | .special => filter.value == "~all~".toList || filter.value == "*".toList || filter.value == "**".toList
    | .substring =>
      (List.range (name.length - filter.value.length + 1)).any fun start =>
        nameSegmentMatchesFilterValue (name.drop start) filter.value
    | .nameEnd => nameSegmentMatchesFilterValue (name.drop (name.length - filter.value.length)) filter.value
    | .nameStart => nameSegmentMatchesFilterValue name filter.value
    | .fullName => name.length == filter.value.length && nameSegmentMatchesFilterValue name filter.value

/-- `check_name_matches_filter_environment_var`. -/
def checkNameMatchesFilterEnvironmentVar (name : String) (filterStruct : EnvvarFilter) : Bool :=
  filterStruct.any (nameMatchesFilterValue name.toList)

/-- `loader_layer_is_available`. -/
def loaderLayerIsAvailable (filters : EnvvarAllFilters) (prop : LayerProperties) : Bool :=
  let disabledByType :=
    if prop.isExplicit then filters.disableFilter.disableAllExplicit else filters.disableFilter.disableAllImplicit
  let available :=
    if (filters.disableFilter.disableAll || disabledByType ||
        checkNameMatchesFilterEnvironmentVar prop.layerName filters.disableFilter.additionalFilters) &&
      !checkNameMatchesFilterEnvironmentVar prop.layerName filters.allowFilter then false
    else true
  if checkNameMatchesFilterEnvironmentVar prop.layerName filters.enableFilter then true else available

/-- What the questions about layers depend on: the variables of the environment, the filters, and the
`instance_layer_list` of the instance where its `override_layer_present` is set. -/
structure LayerContext where
  getenv : String → Option String
  filters : EnvvarAllFilters
  override : Option (List LayerProperties)

/-- No variable and no filter is set. -/
def plainContext : LayerContext := ⟨fun _ => none, .unset, none⟩

/-- The override layer of the instance names the layer. -/
def LayerContext.overrides (ctx : LayerContext) (name : String) : Bool :=
  match ctx.override with
  | none => false
  | some instanceLayerList =>
    match loaderFindLayerProperty vkOverrideLayerName instanceLayerList with
    | none => false
    | some override => override.componentLayerNames.any fun component => component == name

/-- `loader_implicit_layer_is_enabled`. -/
def loaderImplicitLayerIsEnabled (ctx : LayerContext) (prop : LayerProperties) : Bool :=
  let disable := ctx.filters.disableFilter
  let forcedDisabled :=
    (disable.disableAll || disable.disableAllImplicit ||
        checkNameMatchesFilterEnvironmentVar prop.layerName disable.additionalFilters) &&
      !checkNameMatchesFilterEnvironmentVar prop.layerName ctx.filters.allowFilter
  let forcedEnabled := checkNameMatchesFilterEnvironmentVar prop.layerName ctx.filters.enableFilter
  let enable :=
    match prop.enableEnvVar with
    | none => true
    | some (name, value) => ctx.getenv name == some value
  if !forcedEnabled && enable && forcedDisabled then false
  else
    let enable := forcedEnabled || enable
    -- the variable that disables the layer comes before everything but the override layer
    let enable :=
      match prop.disableEnvVar with
      | none => enable
      | some name => if (ctx.getenv name).isSome then false else enable
    if ctx.overrides prop.layerName then true else enable

end VulkanLoader
