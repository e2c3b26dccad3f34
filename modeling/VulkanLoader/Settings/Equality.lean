import VulkanLoader.Settings.ParseSettings
import VulkanLoader.Lib.Lists

/-!
# Whether the settings have changed (`check_if_settings_are_equal`)

The settings are compared field by field; a string that is not there equals none.  A configuration for the place of the
other layers has no strings.
-/

namespace VulkanLoader

open Lib

/-- Two strings that are there and equal. -/
def sameString (a b : Option String) : Bool :=
  match a, b with
  | some a, some b => a == b
  | _, _ => false

/-- `check_if_layer_configurations_are_equal`. -/
def checkIfLayerConfigurationsAreEqual (a b : SettingsLayerConfiguration) : Bool :=
  sameString a.name b.name && sameString a.path b.path && a.control == b.control &&
    a.treatAsImplicitManifest == b.treatAsImplicitManifest

/-- `check_if_driver_configurations_are_equal`. -/
def checkIfDriverConfigurationsAreEqual (a b : SettingsDriverConfiguration) : Bool := sameString a.path b.path

/-- `check_if_device_configurations_are_equal`. -/
def checkIfDeviceConfigurationsAreEqual (a b : DeviceConfiguration) : Bool :=
  a.deviceUUID == b.deviceUUID && a.driverUUID == b.driverUUID && a.driverVersion == b.driverVersion &&
    a.deviceName == b.deviceName && a.driverName == b.driverName

/-- A loop of `check_if_settings_are_equal` over two arrays. -/
def allEqual {α : Type*} (areEqual : α → α → Bool) (as bs : List α) : Bool :=
  (as.zip bs).all fun ab => areEqual ab.1 ab.2

/-- `check_if_settings_are_equal`. -/
def checkIfSettingsAreEqual (a b : LoaderSettings) : Bool :=
  if !(a.settingsActive == b.settingsActive && a.hasUnorderedLayerLocation == b.hasUnorderedLayerLocation &&
      a.debugLevel == b.debugLevel && a.layerConfigurationsActive == b.layerConfigurationsActive &&
      a.layerConfigurations.length == b.layerConfigurations.length &&
      a.additionalDriversUseExclusively == b.additionalDriversUseExclusively &&
      a.additionalDrivers.length == b.additionalDrivers.length &&
      a.deviceConfigurationsActive == b.deviceConfigurationsActive &&
      a.deviceConfigurations.length == b.deviceConfigurations.length) then false
  else
    allEqual checkIfLayerConfigurationsAreEqual a.layerConfigurations b.layerConfigurations &&
      allEqual checkIfDriverConfigurationsAreEqual a.additionalDrivers b.additionalDrivers &&
      allEqual checkIfDeviceConfigurationsAreEqual a.deviceConfigurations b.deviceConfigurations

/-- What `update_global_loader_settings` leaves: its result, the global settings, whether it has logged them, and the
debug level, if it sets one. -/
structure GlobalUpdate where
  result : VkResult
  settings : LoaderSettings
  logged : Bool
  debugLevel : Option ℕ

/-- `update_global_loader_settings`. -/
def updateGlobalLoaderSettings (req : SettingsRequests) (source : SettingsSource) (globalSettings : LoaderSettings) :
    GlobalUpdate :=
  match getLoaderSettings req source with
  | (.success, settings) =>
    { result := .success
      settings
      logged := !checkIfSettingsAreEqual settings globalSettings
      debugLevel := if settings.settingsActive ∧ settings.debugLevel > 0 then some settings.debugLevel else none }
  | (res, _) => ⟨res, globalSettings, false, none⟩

/-! ### What the parser produces -/

/-- The configuration for the place of the other layers. -/
def unorderedConfiguration : SettingsLayerConfiguration := ⟨none, none, .unorderedLayerLocation, false⟩

/-- The strings that parsed settings have. -/
structure HasStrings (s : LoaderSettings) : Prop where
  layers : ∀ layer ∈ s.layerConfigurations, (layer.name.isSome ∧ layer.path.isSome) ∨ layer = unorderedConfiguration
  drivers : ∀ driver ∈ s.additionalDrivers, driver.path.isSome

/-- Settings that the parser produces. -/
structure ProducedSettings where
  settings : LoaderSettings
  produced : ∃ req source, getLoaderSettings req source = (.success, settings)

/-- The same settings, from one file or another. -/
def SameContent (a b : LoaderSettings) : Prop :=
  { a with settingsFilePath := none } = { b with settingsFilePath := none }

/-- The comparison tells whether the content is the same, so the settings are logged exactly when it has changed. -/
structure DetectsChanges (a b c : ProducedSettings) : Prop where
  refl : checkIfSettingsAreEqual a.settings a.settings
  symm : checkIfSettingsAreEqual a.settings b.settings → checkIfSettingsAreEqual b.settings a.settings
  trans : checkIfSettingsAreEqual a.settings b.settings → checkIfSettingsAreEqual b.settings c.settings →
    checkIfSettingsAreEqual a.settings c.settings
  content : checkIfSettingsAreEqual a.settings b.settings → SameContent a.settings b.settings
  detected : ∀ req source, getLoaderSettings req source = (.success, a.settings) →
    ((updateGlobalLoaderSettings req source b.settings).logged ↔ ¬ SameContent a.settings b.settings)

/-- The settings have no configuration for the place of the other layers. -/
def HasNoPlace (s : LoaderSettings) : Prop := unorderedConfiguration ∉ s.layerConfigurations

section Parsing

variable {α : Type} {parse : ℕ → CJson → VkResult × α} {elements : List CJson} {i : ℕ} {as : List α}

/-- What the elements are parsed into. -/
theorem mem_parseElements (h : parseElements parse i elements = (.success, as)) {a : α} (ha : a ∈ as) :
    ∃ i element, parse i element = (.success, a) := by
  induction elements generalizing i as with
  | nil =>
    obtain rfl := (Prod.mk.inj h).2
    simp at ha
  | cons element elements ih =>
    unfold parseElements at h
    split at h
    · cases h
    rcases hparse : parse i element with ⟨res, a'⟩
    rw [hparse] at h
    by_cases hres : res = .success
    · subst hres
      obtain ⟨hrest, rfl⟩ := Prod.mk.inj h
      rcases List.mem_cons.1 ha with rfl | ha
      · exact ⟨i, element, hparse⟩
      · exact ih (Prod.ext hrest rfl) ha
    · rcases res with _ | _ | _ | _ | _ | _ | _ | _ <;> first | exact absurd rfl hres | cases h

theorem ne_success_of_no_string {granted : Bool} {object : CJson} {key : String} {res : VkResult}
    (h : loaderParseJsonString granted object key = (res, none)) : res ≠ .success := by
  rintro rfl
  unfold loaderParseJsonString at h
  split at h
  · split at h <;> cases h
  · cases h

theorem strings_parseLayerConfiguration {req : LayerConfigurationRequests} {json : CJson}
    {layer : SettingsLayerConfiguration} (h : parseLayerConfiguration req json = (.success, layer)) :
    (layer.name.isSome ∧ layer.path.isSome) ∨ layer = unorderedConfiguration := by
  unfold parseLayerConfiguration at h
  rcases hcontrol : loaderParseJsonString req.control json "control" with ⟨res, _ | controlString⟩
  · rw [hcontrol] at h
    exact absurd (Prod.mk.inj h).1 (ne_success_of_no_string hcontrol)
  rw [hcontrol] at h
  dsimp only at h
  split_ifs at h with hplace
  · right
    rw [← (Prod.mk.inj h).2, hplace]
    rfl
  rcases hname : loaderParseJsonString req.name json "name" with ⟨res, _ | name⟩
  · rw [hname] at h
    exact absurd (Prod.mk.inj h).1 (ne_success_of_no_string hname)
  rw [hname] at h
  rcases hpath : loaderParseJsonString req.path json "path" with ⟨res, _ | path⟩
  · rw [hpath] at h
    exact absurd (Prod.mk.inj h).1 (ne_success_of_no_string hpath)
  rw [hpath] at h
  left
  rw [← (Prod.mk.inj h).2]
  exact ⟨rfl, rfl⟩

theorem string_parseAdditionalDriver {granted : Bool} {json : CJson} {driver : SettingsDriverConfiguration}
    (h : parseAdditionalDriver granted json = (.success, driver)) : driver.path.isSome := by
  unfold parseAdditionalDriver at h
  rcases hpath : loaderParseJsonString granted json "path" with ⟨res, _ | path⟩
  · rw [hpath] at h
    exact absurd (Prod.mk.inj h).1 (ne_success_of_no_string hpath)
  · rw [hpath] at h
    rw [← (Prod.mk.inj h).2]
    rfl

end Parsing

section Produced

variable {settingsObject : CJson} {settings : LoaderSettings}

theorem HasStrings.parseLayerConfigurations {req : ElementsRequests LayerConfigurationRequests}
    (h : HasStrings settings) : HasStrings (parseLayerConfigurations req settingsObject settings).2 := by
  unfold VulkanLoader.parseLayerConfigurations
  rcases settingsObject.getObjectItem "layers" with _ | layerConfigurations
  · exact h
  dsimp only
  split_ifs
  · exact ⟨h.layers, h.drivers⟩
  · exact ⟨by simp, h.drivers⟩
  split
  case h_1 hparse =>
    refine ⟨fun layer hlayer => ?_, h.drivers⟩
    obtain ⟨i, element, hlayer⟩ := mem_parseElements hparse hlayer
    exact strings_parseLayerConfiguration hlayer
  case h_2 => exact ⟨by simp, h.drivers⟩

theorem HasStrings.parseAdditionalDrivers {req : ElementsRequests Bool} (h : HasStrings settings) :
    HasStrings (parseAdditionalDrivers req settingsObject settings).2 := by
  have hexclusively : HasStrings (if isTrueItem settingsObject "additional_drivers_use_exclusively" then
      { settings with additionalDriversUseExclusively := true } else settings) := by
    split_ifs
    · exact ⟨h.layers, h.drivers⟩
    · exact h
  unfold VulkanLoader.parseAdditionalDrivers
  rcases settingsObject.getObjectItem "additional_drivers" with _ | additionalDrivers
  · exact hexclusively
  dsimp only
  split
  · exact hexclusively
  split
  · exact ⟨hexclusively.layers, by simp⟩
  split
  case h_1 hparse =>
    refine ⟨hexclusively.layers, fun driver hdriver => ?_⟩
    obtain ⟨i, element, hdriver⟩ := mem_parseElements hparse hdriver
    exact string_parseAdditionalDriver hdriver
  case h_2 => exact ⟨hexclusively.layers, by simp⟩

theorem HasStrings.parseDeviceConfigurations {granted : Bool} (h : HasStrings settings) :
    HasStrings (parseDeviceConfigurations granted settingsObject settings).2 := by
  unfold VulkanLoader.parseDeviceConfigurations
  split
  · exact h
  split
  · exact ⟨h.layers, h.drivers⟩
  split
  · exact ⟨h.layers, h.drivers⟩
  dsimp only
  split_ifs <;> exact ⟨h.layers, h.drivers⟩

theorem hasStrings_zero : HasStrings .zero := ⟨by simp [LoaderSettings.zero], by simp [LoaderSettings.zero]⟩

theorem hasStrings_parseSettings {req : SettingsRequests} {path : String} :
    HasStrings (parseSettings req path settingsObject).2 := by
  unfold parseSettings
  dsimp only
  split
  · exact hasStrings_zero
  generalize hlayersParsed : parseLayerConfigurations req.layers settingsObject _ = layersParsed
  have hlayers : HasStrings layersParsed.2 :=
    hlayersParsed ▸ HasStrings.parseLayerConfigurations ⟨hasStrings_zero.layers, hasStrings_zero.drivers⟩
  split
  · exact hlayers
  generalize hdriversParsed : parseAdditionalDrivers req.drivers settingsObject _ = driversParsed
  have hdrivers : HasStrings driversParsed.2 :=
    hdriversParsed ▸ HasStrings.parseAdditionalDrivers ⟨hlayers.layers, hlayers.drivers⟩
  split
  · exact hdrivers
  generalize hdevicesParsed : parseDeviceConfigurations req.devices settingsObject _ = devicesParsed
  have hdevices : HasStrings devicesParsed.2 :=
    hdevicesParsed ▸ HasStrings.parseDeviceConfigurations hdrivers
  split
  · exact hdevices
  split
  · exact ⟨hdevices.layers, hdevices.drivers⟩
  · exact hdevices

theorem hasStrings_getLoaderSettings {req : SettingsRequests} {source : SettingsSource} :
    HasStrings (getLoaderSettings req source).2 := by
  unfold getLoaderSettings
  split
  · exact hasStrings_zero
  split
  case h_2 => exact hasStrings_zero
  case h_1 =>
    dsimp only
    split
    · exact hasStrings_zero
    · split
      · exact hasStrings_zero
      · split
        · exact hasStrings_zero
        · exact hasStrings_parseSettings

end Produced

/-! ### The comparison -/

theorem sameString_eq_true {a b : Option String} : sameString a b ↔ a = b ∧ a.isSome := by
  rcases a with _ | a <;> rcases b with _ | b <;> simp [sameString]

theorem checkIfLayerConfigurationsAreEqual_iff {a b : SettingsLayerConfiguration} :
    checkIfLayerConfigurationsAreEqual a b ↔ a = b ∧ a.name.isSome ∧ a.path.isSome := by
  rcases a with ⟨name, path, control, treatAsImplicitManifest⟩
  simp only [checkIfLayerConfigurationsAreEqual, Bool.and_eq_true, sameString_eq_true, beq_iff_eq,
    SettingsLayerConfiguration.ext_iff]
  tauto

theorem checkIfDriverConfigurationsAreEqual_iff {a b : SettingsDriverConfiguration} :
    checkIfDriverConfigurationsAreEqual a b ↔ a = b ∧ a.path.isSome := by
  rw [checkIfDriverConfigurationsAreEqual, sameString_eq_true, SettingsDriverConfiguration.ext_iff]

theorem checkIfDeviceConfigurationsAreEqual_iff {a b : DeviceConfiguration} :
    checkIfDeviceConfigurationsAreEqual a b ↔ a = b := by
  simp only [checkIfDeviceConfigurationsAreEqual, Bool.and_eq_true, beq_iff_eq, DeviceConfiguration.ext_iff, and_assoc]

/-- Two arrays of one length are equal in every entry if they are the same, and each entry equals itself. -/
theorem allEqual_iff {α : Type*} {areEqual : α → α → Bool} {P : α → Prop}
    (hequal : ∀ a b, areEqual a b ↔ a = b ∧ P a) {as bs : List α} (hlength : as.length = bs.length) :
    allEqual areEqual as bs ↔ as = bs ∧ ∀ a ∈ as, P a := by
  rw [allEqual, List.all_eq_true]
  induction as generalizing bs with
  | nil =>
    obtain rfl := List.eq_nil_of_length_eq_zero hlength.symm
    simp
  | cons a as ih =>
    obtain ⟨b, bs, rfl⟩ := List.exists_cons_of_length_eq_add_one hlength.symm
    rw [List.zip_cons_cons, List.forall_mem_cons, List.forall_mem_cons, List.cons_eq_cons, hequal,
      ih (Nat.succ_injective hlength)]
    tauto

theorem checkIfSettingsAreEqual_iff {a b : LoaderSettings} (ha : HasStrings a) :
    checkIfSettingsAreEqual a b ↔ SameContent a b ∧ HasNoPlace a := by
  have hplace : HasNoPlace a ↔ ∀ layer ∈ a.layerConfigurations, layer.name.isSome ∧ layer.path.isSome := by
    constructor
    · intro hnoPlace layer hlayer
      exact (ha.layers layer hlayer).resolve_right fun heq => hnoPlace (heq ▸ hlayer)
    · intro hstrings hmem
      exact absurd (hstrings _ hmem).1 (by simp [unorderedConfiguration])
  have hdevices (hlength : a.deviceConfigurations.length = b.deviceConfigurations.length) :
      allEqual checkIfDeviceConfigurationsAreEqual a.deviceConfigurations b.deviceConfigurations ↔
        a.deviceConfigurations = b.deviceConfigurations ∧ ∀ device ∈ a.deviceConfigurations, True :=
    allEqual_iff (fun _ _ => by rw [checkIfDeviceConfigurationsAreEqual_iff, and_true]) hlength
  simp only [checkIfSettingsAreEqual, Bool.if_false_left, Bool.decide_eq_true, Bool.and_eq_true, Bool.not_not,
    beq_iff_eq, SameContent, LoaderSettings.ext_iff, and_true, and_assoc, hplace]
  constructor
  · rintro ⟨hactive, hunordered, hlevel, hlayersActive, hlayersLength, hexclusively, hdriversLength, hdevicesActive,
      hdevicesLength, hlayersEqual, hdriversEqual, hdevicesEqual⟩
    obtain ⟨hlayers, hstrings⟩ :=
      (allEqual_iff (fun _ _ => checkIfLayerConfigurationsAreEqual_iff) hlayersLength).1 hlayersEqual
    obtain ⟨hdrivers, -⟩ :=
      (allEqual_iff (fun _ _ => checkIfDriverConfigurationsAreEqual_iff) hdriversLength).1 hdriversEqual
    exact ⟨hactive, hunordered, hlevel, hlayersActive, hlayers, hexclusively, hdrivers, hdevicesActive,
      ((hdevices hdevicesLength).1 hdevicesEqual).1, hstrings⟩
  · rintro ⟨hactive, hunordered, hlevel, hlayersActive, hlayers, hexclusively, hdrivers, hdevicesActive,
      hdevicesEqual, hstrings⟩
    have hlayersLength := congrArg List.length hlayers
    have hdriversLength := congrArg List.length hdrivers
    have hdevicesLength := congrArg List.length hdevicesEqual
    refine ⟨hactive, hunordered, hlevel, hlayersActive, hlayersLength, hexclusively, hdriversLength,
      hdevicesActive, hdevicesLength, ?_, ?_, ?_⟩
    · exact (allEqual_iff (fun _ _ => checkIfLayerConfigurationsAreEqual_iff) hlayersLength).2 ⟨hlayers, hstrings⟩
    · exact (allEqual_iff (fun _ _ => checkIfDriverConfigurationsAreEqual_iff) hdriversLength).2
        ⟨hdrivers, ha.drivers⟩
    · exact (hdevices hdevicesLength).2 ⟨hdevicesEqual, fun _ _ => trivial⟩

/-! ### The change detection -/

/-- Settings are told apart by their content exactly when they have no configuration for the place of the other layers:
with one they do not even equal themselves. -/
theorem detectsChanges_iff (a b c : ProducedSettings) : DetectsChanges a b c ↔ HasNoPlace a.settings := by
  have hstrings (s : ProducedSettings) : HasStrings s.settings := by
    obtain ⟨req, source, hproduced⟩ := s.produced
    have hsettings : HasStrings (getLoaderSettings req source).2 := hasStrings_getLoaderSettings
    rwa [hproduced] at hsettings
  constructor
  · intro h
    exact ((checkIfSettingsAreEqual_iff (hstrings a)).1 h.refl).2
  · intro h
    have hequal (s : ProducedSettings) :
        checkIfSettingsAreEqual a.settings s.settings ↔ SameContent a.settings s.settings := by
      rw [checkIfSettingsAreEqual_iff (hstrings a), and_iff_left h]
    refine ⟨(hequal a).2 rfl, fun hab => ?_, fun hab hbc => ?_, (hequal b).1, fun req source hread => ?_⟩
    · have hcontent := (hequal b).1 hab
      have hlayers : a.settings.layerConfigurations = b.settings.layerConfigurations :=
        (LoaderSettings.mk.inj hcontent).2.2.2.2.1
      refine (checkIfSettingsAreEqual_iff (hstrings b)).2 ⟨hcontent.symm, ?_⟩
      rwa [HasNoPlace, ← hlayers]
    · exact (hequal c).2 (((hequal b).1 hab).trans ((checkIfSettingsAreEqual_iff (hstrings b)).1 hbc).1)
    · rw [← hequal b, updateGlobalLoaderSettings, hread, Bool.not_eq_true']
      exact Bool.not_eq_true _ ▸ Iff.rfl

/-- A settings file whose only configuration is for the place of the other layers. -/
def unorderedFile : SettingsSource where
  settingsFilePath := (.success, "/etc/vulkan/loader_settings.d/vk_loader_settings.json")
  json := (.success, some (.object
    [("file_format_version", .string "1.0.0"),
      ("settings", .object [("layers", .array [.object [("control", .string "unordered_layer_location")]])])]))
  executablePath := none

/-- All requests for the settings are granted. -/
def SettingsRequests.granted : SettingsRequests :=
  ⟨true, .granted, ⟨true, fun _ => ⟨true, true, true⟩⟩, ⟨true, fun _ => true⟩, true⟩

/-- What is read from it. -/
def unorderedSettings : LoaderSettings :=
  { LoaderSettings.zero with
    settingsActive := true
    hasUnorderedLayerLocation := true
    layerConfigurationsActive := true
    layerConfigurations := [unorderedConfiguration]
    settingsFilePath := some "/etc/vulkan/loader_settings.d/vk_loader_settings.json" }

/-- The settings are logged anew each time that the file is read. -/
theorem not_detectsChanges : ¬ ∀ a b c : ProducedSettings, DetectsChanges a b c := by
  intro h
  have hproduced : getLoaderSettings .granted unorderedFile = (.success, unorderedSettings) := by decide
  let settings : ProducedSettings := ⟨unorderedSettings, _, _, hproduced⟩
  have hnot : ¬ checkIfSettingsAreEqual unorderedSettings unorderedSettings := by decide
  exact hnot (h settings settings settings).refl

end VulkanLoader
