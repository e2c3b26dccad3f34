import VulkanLoader.Layers.FilterParsing
import VulkanLoader.Manifests.Fields
import VulkanLoader.Settings.LoaderSettings
import VulkanLoader.Manifests.Json

/-!
# The scan for drivers (`loader_icd_scan`)

The manifests that are found, with those that the settings add put before them, are parsed one after the other.  What is
read out of one is handed to `loader_scanned_icd_add`, unless the parser rejects it or a filter takes it out.

How each request for memory ends is an argument of the scan, and so is what `loader_scanned_icd_add` returns for each
manifest.
-/

namespace VulkanLoader

/-! ### One manifest -/

/-- `struct ICDManifestInfo`. -/
structure ICDManifestInfo where
  fullLibraryPath : Option String
  version : UInt32
  deriving DecidableEq

/-- A driver that nothing is known of. -/
def ICDManifestInfo.zero : ICDManifestInfo := ⟨none, 0⟩

/-- What comes of a manifest file at its turn: what `loader_get_json` makes of it, the answers to the requests for its
library path as text and in full, and what `loader_scanned_icd_add` returns for it. -/
structure ManifestReading where
  json : VkResult × Option CJson
  print : Bool
  fullPath : Bool
  added : VkResult

/-- A manifest file at its turn. -/
structure IcdManifest where
  fileStr : String
  reading : ManifestReading

/-- What a parser knows of the platform and the instance: the bytes of a pointer, and `portability_enumeration_enabled`
where there is an instance. -/
structure IcdContext where
  pointerSize : ℕ
  portabilityEnumerationEnabled : Option Bool

/-- What `loader_parse_icd_manifest` leaves: its result, the driver, and whether it sets
`skipped_portability_drivers`. -/
structure ParsedIcd where
  result : VkResult
  icd : ICDManifestInfo
  skippedPortabilityDriver : Bool

/-- The part of `loader_parse_icd_manifest` after the library path. -/
def parseIcdVersion (ctx : IcdContext) (itemICD : CJson) (icd : ICDManifestInfo) : ParsedIcd :=
  match itemICD.getObjectItem "api_version" with
  | none => ⟨.errorIncompatibleDriver, icd, false⟩
  | some apiVersion =>
    match apiVersion.getStringValue with
    -- left at the success of the library path
    | none => ⟨.success, icd, false⟩
    | some versionStr =>
      let icd := { icd with version := loaderParseVersionString versionStr }
      if vkApiVersionVariant icd.version ≠ 0 then ⟨.errorIncompatibleDriver, icd, false⟩
      else if isTrueItem itemICD "is_portability_driver" ∧ ctx.portabilityEnumerationEnabled = some false then
        ⟨.errorIncompatibleDriver, icd, true⟩
      else
        match itemICD.stringItem "library_arch" with
        | some libraryArch =>
          if libraryArchMatches ctx.pointerSize libraryArch then ⟨.success, icd, false⟩
          else ⟨.errorIncompatibleDriver, icd, false⟩
        | none => ⟨.success, icd, false⟩

theorem parseIcdVersion_result (ctx : IcdContext) (itemICD : CJson) (icd : ICDManifestInfo) :
    (parseIcdVersion ctx itemICD icd).result = .success ∨
      (parseIcdVersion ctx itemICD icd).result = .errorIncompatibleDriver := by
  unfold parseIcdVersion
  rcases itemICD.getObjectItem "api_version" with _ | apiVersion
  · exact .inr rfl
  dsimp only
  rcases apiVersion.getStringValue with _ | versionStr
  · exact .inl rfl
  dsimp only
  split_ifs
  · exact .inr rfl
  · exact .inr rfl
  rcases itemICD.stringItem "library_arch" with _ | libraryArch
  · exact .inl rfl
  dsimp only
  split_ifs
  · exact .inl rfl
  · exact .inr rfl

/-- `loader_parse_icd_manifest`, for a driver that nothing is known of. -/
def loaderParseIcdManifest (ctx : IcdContext) (m : IcdManifest) : ParsedIcd :=
  match m.reading.json with
  | (.errorOutOfHostMemory, _) => ⟨.errorOutOfHostMemory, .zero, false⟩
  | (.success, some json) =>
    match json.getObjectItem "file_format_version" with
    | none => ⟨.errorIncompatibleDriver, .zero, false⟩
    | some fileFormatVersion =>
      match fileFormatVersion.getStringValue with
      -- left at the success of reading the file
      | none => ⟨.success, .zero, false⟩
      | some _ =>
        match json.getObjectItem "ICD" with
        | none => ⟨.errorIncompatibleDriver, .zero, false⟩
        | some itemICD =>
          match itemICD.getObjectItem "library_path" with
          | none => ⟨.errorIncompatibleDriver, .zero, false⟩
          | some libraryPath =>
            if !m.reading.print then ⟨.errorOutOfHostMemory, .zero, false⟩
            else if libraryPath.print = "" then ⟨.errorIncompatibleDriver, .zero, false⟩
            else
              match combineManifestDirectoryAndLibraryPath m.reading.fullPath libraryPath.print m.fileStr with
              | (.success, fullLibraryPath) => parseIcdVersion ctx itemICD ⟨fullLibraryPath, 0⟩
              | (res, fullLibraryPath) => ⟨res, ⟨fullLibraryPath, 0⟩, false⟩
  | _ => ⟨.errorIncompatibleDriver, .zero, false⟩

/-! ### The loop -/

/-- The part of a path behind its last directory symbol. -/
def justFilename (path : String) : String :=
  String.ofList (path.toList.reverse.takeWhile (· ≠ directorySymbol)).reverse

/-- The filters `VK_LOADER_DRIVERS_SELECT` and `VK_LOADER_DRIVERS_DISABLE`. -/
structure DriverFilters where
  selectFilter : EnvvarFilter
  disableFilter : EnvvarFilter

/-- No filter takes the manifest out. -/
def DriverFilters.pass (filters : DriverFilters) (fileStr : String) : Bool :=
  let nameMatchesSelect := checkNameMatchesFilterEnvironmentVar (justFilename fileStr) filters.selectFilter
  let nameMatchesDisable := checkNameMatchesFilterEnvironmentVar (justFilename fileStr) filters.disableFilter
  if nameMatchesDisable && !nameMatchesSelect then false
  else if !filters.selectFilter.isEmpty && !nameMatchesSelect then false
  else true

/-- What a scan did: its result, the manifests that it parsed, those whose driver it handed over, and whether a driver
was skipped for its portability. -/
structure ScanTrace where
  result : VkResult
  considered : List IcdManifest
  handedOver : List (IcdManifest × ICDManifestInfo)
  skippedPortabilityDrivers : Bool

/-- A scan that ends before it has parsed a manifest. -/
def ScanTrace.ended (result : VkResult) : ScanTrace := ⟨result, [], [], false⟩

/-- What a round of the loop adds to what the later ones do. -/
def ScanTrace.after (trace : ScanTrace) (m : IcdManifest) (parsed : ParsedIcd)
    (handedOver : List (IcdManifest × ICDManifestInfo)) : ScanTrace :=
  ⟨trace.result, m :: trace.considered, handedOver ++ trace.handedOver,
    parsed.skippedPortabilityDriver || trace.skippedPortabilityDrivers⟩

/-- The loop of `loader_icd_scan`. -/
def scanManifests (ctx : IcdContext) (filters : DriverFilters) : List IcdManifest → ScanTrace
  | [] => .ended .success
  | m :: rest =>
    let parsed := loaderParseIcdManifest ctx m
    if parsed.result = .errorOutOfHostMemory then (ScanTrace.ended parsed.result).after m parsed []
    else if parsed.result = .errorIncompatibleDriver then (scanManifests ctx filters rest).after m parsed []
    else if !filters.pass m.fileStr then (scanManifests ctx filters rest).after m parsed []
    else if m.reading.added = .errorOutOfHostMemory then
      (ScanTrace.ended m.reading.added).after m parsed [(m, parsed.icd)]
    else (scanManifests ctx filters rest).after m parsed [(m, parsed.icd)]

theorem scanManifests_cons (ctx : IcdContext) (filters : DriverFilters) (m : IcdManifest) (rest : List IcdManifest) :
    scanManifests ctx filters (m :: rest) =
      if (loaderParseIcdManifest ctx m).result = .errorOutOfHostMemory then
        (ScanTrace.ended (loaderParseIcdManifest ctx m).result).after m (loaderParseIcdManifest ctx m) []
      else if (loaderParseIcdManifest ctx m).result = .errorIncompatibleDriver ∨ !filters.pass m.fileStr then
        (scanManifests ctx filters rest).after m (loaderParseIcdManifest ctx m) []
      else if m.reading.added = .errorOutOfHostMemory then
        (ScanTrace.ended m.reading.added).after m (loaderParseIcdManifest ctx m) [(m, (loaderParseIcdManifest ctx m).icd)]
      else
        (scanManifests ctx filters rest).after m (loaderParseIcdManifest ctx m)
          [(m, (loaderParseIcdManifest ctx m).icd)] := by
  conv_lhs => unfold scanManifests
  dsimp only
  split_ifs <;> first | rfl | tauto

/-! ### The drivers of the settings -/

/-- `is_json`. -/
def isJson (path : String) : Bool := ".json".toList.isSuffixOf path.toList

/-- `prepend_if_manifest_file`. -/
def prependIfManifestFile (req : InsertionRequests) (fileName : String) (outFiles : StringList) :
    Option (VkResult × StringList) :=
  if isJson fileName then copyStrToStartOfStringList req outFiles fileName else some (.incomplete, outFiles)

/-- The loop of `loader_settings_get_additional_driver_files` from the index `i` on: what each insertion returns, and the
list.  It is `none` where a string would be written to an array that is not there. -/
def prependDriverFiles (req : ℕ → InsertionRequests) : ℕ → List String → StringList → Option (List VkResult × StringList)
  | _, [], outFiles => some ([], outFiles)
  | i, path :: paths, outFiles =>
    match prependIfManifestFile (req i) path outFiles with
    | none => none
    | some (res, outFiles) =>
      (prependDriverFiles req (i + 1) paths outFiles).map fun r => (res :: r.1, r.2)

/-- The paths of `additional_drivers`; the parser gives each driver one. -/
def LoaderSettings.additionalDriverPaths (settings : LoaderSettings) : List String :=
  settings.additionalDrivers.map fun driver => driver.path.getD ""

/-- The list that the additional drivers are put into. -/
def LoaderSettings.keptDriverFiles (settings : LoaderSettings) (outFiles : StringList) : StringList :=
  if settings.additionalDriversUseExclusively then .zero else outFiles

/-- `loader_settings_get_additional_driver_files`: of the results of the insertions the last one stays. -/
def loaderSettingsGetAdditionalDriverFiles (req : ℕ → InsertionRequests) (settings : LoaderSettings)
    (outFiles : StringList) : Option (VkResult × StringList) :=
  if !settings.settingsActive then some (.success, outFiles)
  else
    (prependDriverFiles req 0 settings.additionalDriverPaths (settings.keptDriverFiles outFiles)).map fun r =>
      (r.1.getLast?.getD .success, r.2)

/-! ### The scan -/

/-- What a scan depends on: the context, the settings, the answer to the request for the list of the drivers, the values
of the two variables with the answers to the requests for their copies, what `loader_get_data_files` returns from a search
that came to its end, the answers to the requests of the insertions, and what comes of the manifest at a path at an index
of the list. -/
structure IcdScan where
  context : IcdContext
  settings : LoaderSettings
  driverList : Bool
  selectVar : Bool × Option String
  disableVar : Bool × Option String
  dataFiles : VkResult × StringList
  insertions : ℕ → InsertionRequests
  reading : ℕ → String → ManifestReading

/-- `loader_settings_should_use_driver_environment_variables`. -/
def loaderSettingsShouldUseDriverEnvironmentVariables (settings : LoaderSettings) : Bool :=
  !(settings.settingsActive && settings.deviceConfigurationsActive)

namespace IcdScan

variable (scan : IcdScan)

/-- The filters of the environment, where the settings leave them in use. -/
def filters : VkResult × DriverFilters :=
  if loaderSettingsShouldUseDriverEnvironmentVariables scan.settings then
    match parseGenericFilterEnvironmentVar scan.selectVar.1 scan.selectVar.2 with
    | (.success, selectFilter) =>
      let (res, disableFilter) := parseGenericFilterEnvironmentVar scan.disableVar.1 scan.disableVar.2
      (res, ⟨selectFilter, disableFilter⟩)
    | (res, selectFilter) => (res, ⟨selectFilter, []⟩)
  else (.success, ⟨[], []⟩)

/-- The manifests at the paths of a list. -/
def manifestsAt (files : List String) : List IcdManifest :=
  files.zipIdx.map fun entry => ⟨entry.1, scan.reading entry.2 entry.1⟩

end IcdScan

/-- `loader_icd_scan`. -/
def loaderIcdScan (scan : IcdScan) : Option ScanTrace :=
  if !scan.driverList then some (.ended .errorOutOfHostMemory)
  else
    match scan.filters with
    | (.success, filters) =>
      match scan.dataFiles with
      | (.success, manifestFiles) =>
        match loaderSettingsGetAdditionalDriverFiles scan.insertions scan.settings manifestFiles with
        | none => none
        | some (.success, manifestFiles) =>
          some (scanManifests scan.context filters (scan.manifestsAt manifestFiles.strings))
        | some (res, _) => some (.ended res)
      | (res, _) => some (.ended res)
    | (res, _) => some (.ended res)

end VulkanLoader
