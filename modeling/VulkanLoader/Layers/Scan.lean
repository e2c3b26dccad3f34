import VulkanLoader.Layers.Meta
import VulkanLoader.Layers.Override
import VulkanLoader.Layers.Settings
import VulkanLoader.Layers.Verify

/-!
# Scanning for layers

`loader_scan_for_layers` makes the `instance_layer_list` that activation works on.  The layers of the settings file go
into it as they are; the regular ones, which are found elsewhere, are verified first.
-/

namespace VulkanLoader

/-- What `loader_get_data_files` finds. -/
structure FileSearch where
  result : VkResult
  files : List ManifestFile

/-- The loop of `loader_parse_instance_layers`. -/
def parseManifestFiles (isImplicit : Bool) : List ManifestFile → List LayerProperties → VkResult × List LayerProperties
  | [], instanceLayers => (.success, instanceLayers)
  | file :: files, instanceLayers =>
    if file.json = .errorOutOfHostMemory then (.errorOutOfHostMemory, instanceLayers)
    else if file.json ≠ .success then parseManifestFiles isImplicit files instanceLayers
    else if file.result isImplicit = .errorOutOfHostMemory then
      (.errorOutOfHostMemory, instanceLayers ++ file.layers isImplicit)
    else parseManifestFiles isImplicit files (instanceLayers ++ file.layers isImplicit)

/-- `loader_parse_instance_layers`. -/
def loaderParseInstanceLayers (isImplicit : Bool) (search : FileSearch) (instanceLayers : List LayerProperties) :
    VkResult × List LayerProperties :=
  if search.result ≠ .success then (search.result, instanceLayers)
  else parseManifestFiles isImplicit search.files instanceLayers

/-- What a scan depends on: the settings, if they are active, the implicit manifests, the explicit ones, which depend on
the override paths, the executable, the environment and the memory. -/
structure LayerScan where
  settings : Option (List SettingsEntry)
  implicitFiles : FileSearch
  explicitFiles : List String → FileSearch
  overridePathsMemory : Bool
  executablePath : Option String
  getenv : String → Option String
  filters : EnvvarAllFilters
  extensionRequests : ℕ → ExtensionRequests
  combineMemory : Bool

/-- What a scan leaves: its result, `override_layer_present` of the instance and the layers. -/
structure ScanResult where
  result : VkResult
  overrideLayerPresent : Bool
  layers : List LayerProperties

namespace LayerScan

/-- The questions about layers, as the scan asks them: `override_layer_present` is not set yet. -/
def context (s : LayerScan) : LayerContext := ⟨s.getenv, s.filters, none⟩

/-- The layers of the settings file. -/
def settingsLayers (s : LayerScan) : List LayerProperties := (getSettingsLayers s.settings).2.1

/-- The override layer whose paths are used. -/
def overrideLayer (s : LayerScan) (layers : List LayerProperties) : Option LayerProperties :=
  layers.find? fun prop =>
    prop.isOverride && loaderImplicitLayerIsEnabled s.context prop && decide (prop.overridePaths.length > 0)

/-- The part of `loader_scan_for_layers` that reads the regular manifests. -/
def regularLayers (s : LayerScan) : VkResult × List LayerProperties :=
  let implicit := loaderParseInstanceLayers true s.implicitFiles []
  if implicit.1 ≠ .success then implicit
  else
    let layers := removeAllNonValidOverrideLayers s.executablePath implicit.2
    match s.overrideLayer layers with
    | none => loaderParseInstanceLayers false (s.explicitFiles []) layers
    | some prop =>
      if !s.overridePathsMemory then (.errorOutOfHostMemory, layers)
      else loaderParseInstanceLayers false (s.explicitFiles prop.overridePaths) layers

/-- The check of the meta-layers among the regular layers. -/
def verified (s : LayerScan) : VkResult × Bool × List LayerProperties :=
  verifyAllMetaLayers s.context s.extensionRequests s.regularLayers.2

/-- What is left of the verified layers: those that are not on the blacklist, that are available and that are no
duplicates. -/
def remaining (s : LayerScan) : List LayerProperties :=
  let layers := if s.verified.2.1 then loaderRemoveLayersInBlacklist s.verified.2.2 else s.verified.2.2
  loaderRemoveDuplicateLayers (layers.filter fun prop => loaderLayerIsAvailable s.filters prop)

end LayerScan

/-- `loader_scan_for_layers`.  The out of memory result of `verify_all_meta_layers` does not occur. -/
def loaderScanForLayers (s : LayerScan) : ScanResult :=
  let (result, settingsLayers, shouldSearchForOtherLayers) := getSettingsLayers s.settings
  if result ≠ .success then ⟨result, false, []⟩
  else if !shouldSearchForOtherLayers then ⟨.success, false, settingsLayers⟩
  else if s.regularLayers.1 ≠ .success then ⟨s.regularLayers.1, false, []⟩
  else if s.verified.1 = .errorOutOfHostMemory then ⟨.errorOutOfHostMemory, false, []⟩
  else
    let r := combineSettingsLayersWithRegularLayers s.combineMemory settingsLayers s.remaining
    ⟨r.1, s.verified.2.1, r.2⟩

/-- The questions about layers, as activation asks them after the scan. -/
def LayerScan.activationContext (s : LayerScan) : LayerContext :=
  let r := loaderScanForLayers s
  ⟨s.getenv, s.filters, if r.overrideLayerPresent then some r.layers else none⟩

/-! ### Where the layers come from -/

namespace LayerScan

variable {s : LayerScan} {p : LayerProperties}

theorem remaining_sublist (s : LayerScan) : s.remaining.Sublist s.verified.2.2 := by
  unfold remaining
  refine (loaderRemoveDuplicateLayers_sublist _).trans (List.filter_sublist.trans ?_)
  split_ifs
  · exact loaderRemoveLayersInBlacklist_sublist _
  · exact List.Sublist.refl _

/-- A layer of the list is one of the settings file, or one that was verified. -/
theorem mem_of_mem_scan (h : p ∈ (loaderScanForLayers s).layers) : p ∈ s.settingsLayers ∨ p ∈ s.verified.2.2 := by
  unfold loaderScanForLayers at h
  dsimp only at h
  split_ifs at h
  · cases h
  · exact Or.inl h
  · cases h
  · cases h
  · rcases mem_of_mem_combine h with hp | hp
    · exact Or.inl hp
    · exact Or.inr ((remaining_sublist s).subset hp)

end LayerScan

end VulkanLoader
