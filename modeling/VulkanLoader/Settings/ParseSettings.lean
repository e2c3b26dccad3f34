import VulkanLoader.Settings.LoaderSettings
import VulkanLoader.Manifests.Json

/-!
# The settings file (`get_loader_settings`)

The parts of the settings that a file may have, each parsed on its own.  A part that is wrong is left out as a whole;
only a refused request for memory makes the settings fail.
-/

namespace VulkanLoader

/-! ### Layers and drivers -/

/-- `parse_control_string`. -/
def parseControlString (controlString : String) : SettingsLayerControl :=
  if controlString == "auto" then .default
  else if controlString == "on" then .on
  else if controlString == "off" then .off
  else if controlString == "unordered_layer_location" then .unorderedLayerLocation
  else .default

/-- The answers to the requests for the strings of a layer configuration. -/
structure LayerConfigurationRequests where
  control : Bool
  name : Bool
  path : Bool

/-- A configuration of zeros. -/
def SettingsLayerConfiguration.zero : SettingsLayerConfiguration := ⟨none, none, .default, false⟩

/-- `parse_layer_configuration`. -/
def parseLayerConfiguration (req : LayerConfigurationRequests) (json : CJson) :
    VkResult × SettingsLayerConfiguration :=
  match loaderParseJsonString req.control json "control" with
  | (res, none) => (res, .zero)
  | (_, some controlString) =>
    let control := parseControlString controlString
    if control = .unorderedLayerLocation then (.success, { SettingsLayerConfiguration.zero with control })
    else
      match loaderParseJsonString req.name json "name" with
      | (res, none) => (res, .zero)
      | (_, some name) =>
        match loaderParseJsonString req.path json "path" with
        | (res, none) => (res, .zero)
        | (_, some path) => (.success, ⟨some name, some path, control, isTrueItem json "treat_as_implicit_manifest"⟩)

/-- `parse_additional_driver`. -/
def parseAdditionalDriver (granted : Bool) (json : CJson) : VkResult × SettingsDriverConfiguration :=
  match loaderParseJsonString granted json "path" with
  | (res, none) => (res, ⟨none⟩)
  | (_, some path) => (.success, ⟨some path⟩)

/-- The loops of `parse_layer_configurations` and `parse_additional_drivers` over the elements from the index `i` on: the
first one that is wrong ends them. -/
def parseElements {α : Type} (parse : ℕ → CJson → VkResult × α) : ℕ → List CJson → VkResult × List α
  | _, [] => (.success, [])
  | i, element :: elements =>
    if !element.isObject then (.errorInitializationFailed, [])
    else
      match parse i element with
      | (.success, a) =>
        let r := parseElements parse (i + 1) elements
        (r.1, a :: r.2)
      | (res, _) => (res, [])

/-- The answers to the requests for an array of parsed elements and for each of them. -/
structure ElementsRequests (α : Type) where
  array : Bool
  element : ℕ → α

/-- `parse_layer_configurations`. -/
def parseLayerConfigurations (req : ElementsRequests LayerConfigurationRequests) (settingsObject : CJson)
    (settings : LoaderSettings) : VkResult × LoaderSettings :=
  match settingsObject.getObjectItem "layers" with
  | none => (.success, settings)
  | some layerConfigurations =>
    if layerConfigurations.getArraySize = 0 then (.success, { settings with layerConfigurationsActive := true })
    else if !req.array then (.errorOutOfHostMemory, { settings with layerConfigurations := [] })
    else
      match parseElements (fun i => parseLayerConfiguration (req.element i)) 0 layerConfigurations.children with
      | (.success, layerConfigurations) =>
        (.success, { settings with layerConfigurations, layerConfigurationsActive := true })
      | (res, _) => (res, { settings with layerConfigurations := [] })

/-- `parse_additional_drivers`. -/
def parseAdditionalDrivers (req : ElementsRequests Bool) (settingsObject : CJson) (settings : LoaderSettings) :
    VkResult × LoaderSettings :=
  let settings :=
    if isTrueItem settingsObject "additional_drivers_use_exclusively" then
      { settings with additionalDriversUseExclusively := true }
    else settings
  match settingsObject.getObjectItem "additional_drivers" with
  | none => (.success, settings)
  | some additionalDrivers =>
    if additionalDrivers.getArraySize = 0 then (.success, settings)
    else if !req.array then (.errorOutOfHostMemory, { settings with additionalDrivers := [] })
    else
      match parseElements (fun i => parseAdditionalDriver (req.element i)) 0 additionalDrivers.children with
      | (.success, additionalDrivers) => (.success, { settings with additionalDrivers })
      | (res, _) => (res, { settings with additionalDrivers := [] })

/-! ### Devices -/

/-- `VK_MAX_PHYSICAL_DEVICE_NAME_SIZE`. -/
def vkMaxPhysicalDeviceNameSize : ℕ := 256

/-- The loop of `parse_uuid_array` from the index `i` on. -/
def parseUuidFields : ℕ → List CJson → Uuid → VkResult × Uuid
  | _, [], uuid => (.success, uuid)
  | i, .number valueint _ :: fields, uuid =>
    if i ≥ 16 then (.success, uuid)
    else if valueint < 0 ∨ valueint > 255 then (.errorInitializationFailed, uuid)
    else parseUuidFields (i + 1) fields (uuid.setIfInBounds i (UInt8.ofNat valueint.toNat))
  | i, _ :: _, uuid => if i ≥ 16 then (.success, uuid) else (.errorInitializationFailed, uuid)

/-- `parse_uuid_array`. -/
def parseUuidArray (json : CJson) (uuidName : String) (uuid : Uuid) : VkResult × Uuid :=
  match json.getObjectItem uuidName with
  | some (.array items) =>
    if items.length ≠ 16 then (.errorInitializationFailed, uuid) else parseUuidFields 0 items uuid
  | _ => (.errorInitializationFailed, uuid)

/-- `parse_device_configuration`, into an entry that may have been written to before. -/
def parseDeviceConfiguration (json : CJson) (device : DeviceConfiguration) : VkResult × DeviceConfiguration :=
  match parseUuidArray json "deviceUUID" device.deviceUUID with
  | (.success, deviceUUID) =>
    match parseUuidArray json "driverUUID" device.driverUUID with
    | (.success, driverUUID) =>
      match json.getObjectItem "driverVersion" with
      | some (.number valueint _) =>
        (.success,
          { deviceUUID, driverUUID
            driverVersion := UInt32.ofInt valueint
            deviceName := (loaderParseJsonStringToExistingStr json "deviceName" vkMaxPhysicalDeviceNameSize).getD
              device.deviceName
            driverName := (loaderParseJsonStringToExistingStr json "driverName" vkMaxPhysicalDeviceNameSize).getD
              device.driverName })
      -- the one exit that does not clear the entry
      | _ => (.errorInitializationFailed, { device with deviceUUID, driverUUID })
    | (res, _) => (res, .zero)
  | (res, _) => (res, .zero)

/-- The loop of `parse_device_configurations`, with the result of the element before and the index to write at.  It
tells whether it came to the end of the elements. -/
def parseDevices : VkResult → List CJson → ℕ → List DeviceConfiguration → Bool × VkResult × List DeviceConfiguration
  | res, [], _, devices => (true, res, devices)
  | _, device :: rest, i, devices =>
    if !device.isObject then (false, .errorInitializationFailed, devices)
    else
      let (res, entry) := parseDeviceConfiguration device (devices.getD i .zero)
      let devices := devices.set i entry
      if res = .errorOutOfHostMemory then (false, res, devices)
      else if res ≠ .success then parseDevices res rest i devices
      else parseDevices res rest (i + 1) devices

/-- `parse_device_configurations`. -/
def parseDeviceConfigurations (granted : Bool) (settingsObject : CJson) (settings : LoaderSettings) :
    VkResult × LoaderSettings :=
  match settingsObject.getObjectItem "device_configurations" with
  | none => (.success, settings)
  | some deviceConfigurations =>
    if deviceConfigurations.getArraySize = 0 then (.success, { settings with deviceConfigurationsActive := true })
    else if !granted then (.errorOutOfHostMemory, { settings with deviceConfigurations := [] })
    else
      let (ended, res, devices) := parseDevices .success deviceConfigurations.children 0
        (List.replicate deviceConfigurations.getArraySize .zero)
      let settings := if ended then { settings with deviceConfigurationsActive := true } else settings
      (res, { settings with deviceConfigurations := if res = .success then devices else [] })

/-! ### The file -/

/-- The bit of a name in `parse_log_filters_from_strings`. -/
def logFilterBits (name : String) : ℕ :=
  if name == "all" then 0xff
  else if name == "info" then 0x01
  else if name == "warn" then 0x02
  else if name == "perf" then 0x04
  else if name == "error" then 0x08
  else if name == "debug" then 0x10
  else if name == "layer" then 0x20
  else if name == "driver" then 0x40
  else if name == "validation" then 0x80
  else 0

/-- `parse_log_filters_from_strings`. -/
def parseLogFiltersFromStrings (logFilters : List String) : ℕ :=
  logFilters.foldl (fun filters name => filters ||| logFilterBits name) 0

/-- The loop of `get_loader_settings` that looks for the settings of the executable; those without `app_keys` that come
first are for all others. -/
def settingsToUse (executablePath : Option String) : List CJson → Option CJson → Option CJson
  | [], globalSettings => globalSettings
  | settings :: rest, globalSettings =>
    if !settings.isObject then globalSettings
    else
      match settings.getObjectItem "app_keys" with
      | none => settingsToUse executablePath rest (globalSettings <|> some settings)
      | some appKeys =>
        match executablePath with
        | none => globalSettings
        | some path =>
          if appKeys.children.any fun appKey => appKey.getStringValue == some path then some settings
          else settingsToUse executablePath rest globalSettings

/-- The answers to the requests that the settings depend on.  Those for `log_locations`, which is parsed and dropped, are
none of them. -/
structure SettingsRequests where
  fileFormatVersion : Bool
  stderrLog : StringListRequests
  layers : ElementsRequests LayerConfigurationRequests
  drivers : ElementsRequests Bool
  devices : Bool

/-- What `get_loader_settings` finds: the path of the settings file, what `loader_get_json` makes of it, and the path of
the executable. -/
structure SettingsSource where
  settingsFilePath : VkResult × String
  json : VkResult × Option CJson
  executablePath : Option String

/-- The parts of the settings that are chosen. -/
def parseSettings (req : SettingsRequests) (path : String) (settingsToUse : CJson) : VkResult × LoaderSettings :=
  let stderrLog := loaderParseJsonArrayOfStrings req.stderrLog settingsToUse "stderr_log"
  if stderrLog.1 = .errorOutOfHostMemory then (.errorOutOfHostMemory, .zero)
  else
    let settings := { LoaderSettings.zero with debugLevel := parseLogFiltersFromStrings stderrLog.2.strings }
    let (layersRes, settings) := parseLayerConfigurations req.layers settingsToUse settings
    if layersRes = .errorOutOfHostMemory then (layersRes, settings)
    else
      let settings :=
        { settings with
          hasUnorderedLayerLocation :=
            settings.layerConfigurations.any fun layer => layer.control == .unorderedLayerLocation }
      let (driversRes, settings) := parseAdditionalDrivers req.drivers settingsToUse settings
      if driversRes = .errorOutOfHostMemory then (driversRes, settings)
      else
        let (devicesRes, settings) := parseDeviceConfigurations req.devices settingsToUse settings
        if devicesRes = .errorOutOfHostMemory then (devicesRes, settings)
        else if settings.debugLevel ≠ 0 ∨ settings.layerConfigurationsActive ∨ settings.additionalDrivers ≠ [] ∨
            settings.deviceConfigurationsActive then
          (.success, { settings with settingsFilePath := some path, settingsActive := true })
        else (.success, settings)

/-- `get_loader_settings`, for settings of zeros. -/
def getLoaderSettings (req : SettingsRequests) (source : SettingsSource) : VkResult × LoaderSettings :=
  if source.settingsFilePath.1 ≠ .success then (source.settingsFilePath.1, .zero)
  else
    match source.json with
    | (.success, some (.object members)) =>
      let json := CJson.object members
      match loaderParseJsonString req.fileFormatVersion json "file_format_version" with
      | (res, none) => (res, .zero)
      | (_, some _) =>
        let chain :=
          match json.getObjectItem "settings_array" with
          | some settingsArray => some settingsArray.children
          | none => if (json.getObjectItem "settings").isSome then some (json.itemsFrom "settings") else none
        match chain with
        | none => (.errorInitializationFailed, .zero)
        | some chain =>
          match settingsToUse source.executablePath chain none with
          | none => (.success, .zero)
          | some settings => parseSettings req source.settingsFilePath.2 settings
    | (res, _) => (res, .zero)

end VulkanLoader
