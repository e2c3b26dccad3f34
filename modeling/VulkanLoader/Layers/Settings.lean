import VulkanLoader.Layers.Properties
import Mathlib.Data.List.TakeDrop

/-!
# The layers of the settings file

`get_settings_layers` reads the manifests that the settings file names, and
`combine_settings_layers_with_regular_layers` merges what it found with the layers found elsewhere.
-/

namespace VulkanLoader

/-- `loader_settings_layer_configuration`. -/
structure LayerConfiguration where
  name : String
  path : Option String
  control : SettingsLayerControl
  treatAsImplicitManifest : Bool

/-- What reading a manifest file gives: the result of `loader_get_json`, and then, for an explicit or an implicit
manifest, the layers that `loader_add_layer_properties` appends and its result. -/
structure ManifestFile where
  json : VkResult
  layers : Bool → List LayerProperties
  result : Bool → VkResult

/-- A configuration of the settings file, what is found at its path, and whether there is memory for the entry that
stands for it. -/
structure SettingsEntry where
  config : LayerConfiguration
  manifest : ManifestFile
  memory : Bool

/-- The entry for a layer that is off; the name of a layer has at most 255 characters. -/
def offPlaceholder (config : LayerConfiguration) : LayerProperties :=
  { LayerProperties.zero with
    layerName := String.ofList (config.name.toList.take 255)
    settingsControlValue := .off }

/-- The entry for the place of the other layers. -/
def unorderedMarker : LayerProperties := { LayerProperties.zero with settingsControlValue := .unorderedLayerLocation }

/-- The layer is one of the list already: of the same name and library. -/
def isDuplicateSettingsLayer (settingsLayers : List LayerProperties) (layer : LayerProperties) : Bool :=
  settingsLayers.any fun item =>
    item.layerName == layer.layerName && !layer.isMeta && item.libName.isSome && layer.libName.isSome &&
      item.libName == layer.libName

/-- The loop of `get_settings_layers` over the layers that a manifest has added. -/
def keepNewSettingsLayers (config : LayerConfiguration) :
    List LayerProperties → List LayerProperties → List LayerProperties
  | settingsLayers, [] => settingsLayers
  | settingsLayers, layer :: added =>
    let layer := { layer with settingsControlValue := config.control }
    if layer.layerName != config.name then keepNewSettingsLayers config settingsLayers added
    else if isDuplicateSettingsLayer settingsLayers layer then keepNewSettingsLayers config settingsLayers added
    else keepNewSettingsLayers config (settingsLayers ++ [layer]) added

/-- The loop of `get_settings_layers`; what it leaves is the result, the layers and `should_search_for_other_layers`. -/
def getSettingsLayersFrom : List SettingsEntry → List LayerProperties → Bool → VkResult × List LayerProperties × Bool
  | [], settingsLayers, shouldSearch => (.success, settingsLayers, shouldSearch)
  | ⟨config, manifest, memory⟩ :: entries, settingsLayers, shouldSearch =>
    match config.control with
    | .off =>
      if !memory then (.errorOutOfHostMemory, settingsLayers, shouldSearch)
      else getSettingsLayersFrom entries (settingsLayers ++ [offPlaceholder config]) shouldSearch
    | .unorderedLayerLocation =>
      if !memory then (.errorOutOfHostMemory, settingsLayers, shouldSearch)
      else getSettingsLayersFrom entries (settingsLayers ++ [unorderedMarker]) true
    | _ =>
      if config.path.isNone then getSettingsLayersFrom entries settingsLayers shouldSearch
      else if manifest.json = .errorOutOfHostMemory then (.errorOutOfHostMemory, settingsLayers, shouldSearch)
      else if manifest.json ≠ .success then getSettingsLayersFrom entries settingsLayers shouldSearch
      else
        let added := manifest.layers config.treatAsImplicitManifest
        let localRes := manifest.result config.treatAsImplicitManifest
        if localRes = .errorOutOfHostMemory then (.errorOutOfHostMemory, settingsLayers ++ added, shouldSearch)
        else if localRes ≠ .success then
          -- the layers before the one that was wrong stay in the list as they are
          getSettingsLayersFrom entries (settingsLayers ++ added) shouldSearch
        else getSettingsLayersFrom entries (keepNewSettingsLayers config settingsLayers added) shouldSearch

/-- `get_settings_layers`, for settings that may not be active. -/
def getSettingsLayers : Option (List SettingsEntry) → VkResult × List LayerProperties × Bool
  | none => (.success, [], true)
  | some entries => getSettingsLayersFrom entries [] false

/-- `check_if_layer_is_in_list`. -/
def checkIfLayerIsInList : List LayerProperties → LayerProperties → Bool → Bool
  | [], _, _ => false
  | item :: items, layerProperty, considerLibPath =>
    if item.layerName == layerProperty.layerName then
      if item.settingsControlValue = .off then true
      else if layerProperty.isMeta then true
      else if !considerLibPath then true
      else
        match item.libName, layerProperty.libName with
        | some lib, some lib' => lib == lib'
        | _, _ => checkIfLayerIsInList items layerProperty considerLibPath
    else checkIfLayerIsInList items layerProperty considerLibPath

/-- The two loops that insert settings layers.  What is inserted leaves zeros behind in `settings_layers`, which is the
first list of the result; the second one is `output_layers`. -/
def insertSettingsLayers : List LayerProperties → List LayerProperties → List LayerProperties × List LayerProperties
  | [], outputLayers => ([], outputLayers)
  | layer :: layers, outputLayers =>
    if !checkIfLayerIsInList outputLayers layer true then
      let r := insertSettingsLayers layers (outputLayers ++ [layer])
      (.zero :: r.1, r.2)
    else
      let r := insertSettingsLayers layers outputLayers
      (layer :: r.1, r.2)

/-- The loop that inserts the regular layers. -/
def insertRegularLayers (settingsLayers : List LayerProperties) :
    List LayerProperties → List LayerProperties → List LayerProperties
  | [], outputLayers => outputLayers
  | layer :: layers, outputLayers =>
    if checkIfLayerIsInList outputLayers layer false || checkIfLayerIsInList settingsLayers layer false then
      insertRegularLayers settingsLayers layers outputLayers
    else insertRegularLayers settingsLayers layers (outputLayers ++ [layer])

/-- `combine_settings_layers_with_regular_layers`; `memory` is the request for an array that holds both lists. -/
def combineSettingsLayersWithRegularLayers (memory : Bool) (settingsLayers regularLayers : List LayerProperties) :
    VkResult × List LayerProperties :=
  match settingsLayers.span fun layer => layer.settingsControlValue != .unorderedLayerLocation with
  | ([], []) => (.success, regularLayers)
  | (_, []) => (.success, settingsLayers)
  | (before, marker :: after) =>
    if regularLayers = [] then (.success, settingsLayers)
    else if !memory then (.errorOutOfHostMemory, [])
    else
      let r := insertSettingsLayers before []
      let outputLayers := insertRegularLayers (r.1 ++ marker :: after) regularLayers r.2
      (.success, (insertSettingsLayers after outputLayers).2)

/-! ### Where the layers of the output come from -/

/-- A layer that has gone to the output was the next one of the layers. -/
theorem mem_cons_or_of_mem_concat {p layer : LayerProperties} {layers outputLayers : List LayerProperties}
    (h : p ∈ layers ∨ p ∈ outputLayers ++ [layer]) : p ∈ layer :: layers ∨ p ∈ outputLayers := by
  rcases h with hp | hp
  · exact Or.inl (List.mem_cons_of_mem _ hp)
  · rcases List.mem_append.1 hp with hp | hp
    · exact Or.inr hp
    · exact Or.inl (by rw [List.mem_singleton.1 hp]; exact List.mem_cons_self)

theorem mem_of_mem_insertSettingsLayers {p : LayerProperties} {layers outputLayers : List LayerProperties}
    (h : p ∈ (insertSettingsLayers layers outputLayers).2) : p ∈ layers ∨ p ∈ outputLayers := by
  induction layers generalizing outputLayers with
  | nil => exact Or.inr h
  | cons layer layers ih =>
    unfold insertSettingsLayers at h
    split_ifs at h
    · exact mem_cons_or_of_mem_concat (ih h)
    · exact (ih h).imp_left (List.mem_cons_of_mem _)

theorem mem_of_mem_insertRegularLayers {p : LayerProperties} {settingsLayers layers outputLayers : List LayerProperties}
    (h : p ∈ insertRegularLayers settingsLayers layers outputLayers) : p ∈ layers ∨ p ∈ outputLayers := by
  induction layers generalizing outputLayers with
  | nil => exact Or.inr h
  | cons layer layers ih =>
    unfold insertRegularLayers at h
    split_ifs at h
    · exact (ih h).imp_left (List.mem_cons_of_mem _)
    · exact mem_cons_or_of_mem_concat (ih h)

/-- A layer of the output is one of the settings file or a regular one. -/
theorem mem_of_mem_combine {memory : Bool} {settingsLayers regularLayers : List LayerProperties} {p : LayerProperties}
    (h : p ∈ (combineSettingsLayersWithRegularLayers memory settingsLayers regularLayers).2) :
    p ∈ settingsLayers ∨ p ∈ regularLayers := by
  unfold combineSettingsLayersWithRegularLayers at h
  split at h
  · exact Or.inr h
  · exact Or.inl h
  · rename_i before marker after hspan
    have hsettings : settingsLayers = before ++ marker :: after := by
      rw [List.span_eq_takeWhile_dropWhile, Prod.mk.injEq] at hspan
      rw [← hspan.1, ← hspan.2, List.takeWhile_append_dropWhile]
    split_ifs at h
    · exact Or.inl h
    · cases h
    · rw [hsettings]
      rcases mem_of_mem_insertSettingsLayers h with hp | hp
      · exact Or.inl (List.mem_append_right _ (List.mem_cons_of_mem _ hp))
      · rcases mem_of_mem_insertRegularLayers hp with hp | hp
        · exact Or.inr hp
        · rcases mem_of_mem_insertSettingsLayers hp with hp | hp
          · exact Or.inl (List.mem_append_left _ hp)
          · cases hp

end VulkanLoader
