import VulkanLoader.Layers.Settings
import VulkanLoader.Manifests.AddLayers
import Mathlib.Tactic.Common

/-!
# What the configurations of the settings file bring (`get_settings_layers`)

A configuration that is neither off nor the place of the other layers brings the layers of its name from the manifest at
its path, with its control value.  The code sees to both after the manifest is read; when reading ends with an error it
does not come to it.
-/

namespace VulkanLoader

/-- Without memory the loop ends at this configuration. -/
def EndsLoop (entry : SettingsEntry) : Prop :=
  match entry.config.control with
  | .off | .unorderedLayerLocation => entry.memory = false
  | _ => entry.config.path.isSome ∧ (entry.manifest.json = .errorOutOfHostMemory ∨ (entry.manifest.json = .success ∧
      entry.manifest.result entry.config.treatAsImplicitManifest = .errorOutOfHostMemory))

/-- A manifest is read for the configuration, and reading it ends with an error. -/
def FailsReading (entry : SettingsEntry) : Prop :=
  entry.config.control ≠ .off ∧ entry.config.control ≠ .unorderedLayerLocation ∧ entry.config.path.isSome ∧
    entry.manifest.json = .success ∧ entry.manifest.result entry.config.treatAsImplicitManifest ≠ .success

/-- The layers of the manifest of a configuration. -/
def SettingsEntry.layers (entry : SettingsEntry) : List LayerProperties :=
  entry.manifest.layers entry.config.treatAsImplicitManifest

/-- The layer stands for the configuration: it is the entry of one that is off, or the place of the other layers, or a
layer of that name from the manifest, with the control value of the configuration. -/
def StandsFor (entry : SettingsEntry) (p : LayerProperties) : Prop :=
  match entry.config.control with
  | .off => p = offPlaceholder entry.config
  | .unorderedLayerLocation => p = unorderedMarker
  | control => entry.config.path.isSome ∧ p.layerName = entry.config.name ∧ p.settingsControlValue = control ∧
      ∃ q ∈ entry.layers, p = { q with settingsControlValue := control }

/-- The settings layers after the configurations. -/
def settingsLayersOf (entries : List SettingsEntry) : List LayerProperties :=
  (getSettingsLayers (some entries)).2.1

/-- **The settings are respected**: each configuration adds, behind what those before it have added, layers that stand
for it. -/
def RespectsConfigurations (entries : List SettingsEntry) : Prop :=
  ∀ before entry after, entries = before ++ entry :: after →
    ∃ added, settingsLayersOf (before ++ [entry]) = settingsLayersOf before ++ added ∧
      ∀ p ∈ added, StandsFor entry p

/-- Where a configuration is come to and reading its manifest fails, the layers that the manifest has added by then are
of the name and the control value of the configuration. -/
def FailuresAsConfigured (entries : List SettingsEntry) : Prop :=
  ∀ before entry after, entries = before ++ entry :: after → (∀ e ∈ before, ¬ EndsLoop e) → FailsReading entry →
    ∀ q ∈ entry.layers, q.layerName = entry.config.name ∧ q.settingsControlValue = entry.config.control

/-! ### The turns of the loop -/

section Turns

variable {config : LayerConfiguration} {entry : SettingsEntry} {entries before after : List SettingsEntry}
  {settingsLayers added : List LayerProperties} {shouldSearch : Bool}

/-- What a manifest that was read adds. -/
theorem keepNewSettingsLayers_append (config : LayerConfiguration) (settingsLayers added : List LayerProperties) :
    ∃ kept, keepNewSettingsLayers config settingsLayers added = settingsLayers ++ kept ∧
      ∀ p ∈ kept, p.layerName = config.name ∧ ∃ q ∈ added, p = { q with settingsControlValue := config.control } := by
  induction added generalizing settingsLayers with
  | nil => exact ⟨[], by simp [keepNewSettingsLayers]⟩
  | cons layer added ih =>
    unfold keepNewSettingsLayers
    dsimp only
    split_ifs with hname hduplicate
    · obtain ⟨kept, heq, hkept⟩ := ih settingsLayers
      refine ⟨kept, heq, fun p hp => ⟨(hkept p hp).1, ?_⟩⟩
      obtain ⟨q, hq, rfl⟩ := (hkept p hp).2
      exact ⟨q, List.mem_cons_of_mem _ hq, rfl⟩
    · obtain ⟨kept, heq, hkept⟩ := ih settingsLayers
      refine ⟨kept, heq, fun p hp => ⟨(hkept p hp).1, ?_⟩⟩
      obtain ⟨q, hq, rfl⟩ := (hkept p hp).2
      exact ⟨q, List.mem_cons_of_mem _ hq, rfl⟩
    · obtain ⟨kept, heq, hkept⟩ :=
        ih (settingsLayers ++ [{ layer with settingsControlValue := config.control }])
      refine ⟨{ layer with settingsControlValue := config.control } :: kept, by rw [heq, List.append_assoc]; rfl, ?_⟩
      rintro p (_ | ⟨_, hp⟩)
      · exact ⟨by simpa using hname, layer, List.mem_cons_self, rfl⟩
      · obtain ⟨q, hq, rfl⟩ := (hkept p hp).2
        exact ⟨(hkept _ hp).1, q, List.mem_cons_of_mem _ hq, rfl⟩

/-- The turn of a configuration that has a manifest read. -/
theorem getSettingsLayersFrom_of_read (hoff : entry.config.control ≠ .off)
    (hplace : entry.config.control ≠ .unorderedLayerLocation) :
    getSettingsLayersFrom (entry :: entries) settingsLayers shouldSearch =
      if entry.config.path.isNone then getSettingsLayersFrom entries settingsLayers shouldSearch
      else if entry.manifest.json = .errorOutOfHostMemory then (.errorOutOfHostMemory, settingsLayers, shouldSearch)
      else if entry.manifest.json ≠ .success then getSettingsLayersFrom entries settingsLayers shouldSearch
      else if entry.manifest.result entry.config.treatAsImplicitManifest = .errorOutOfHostMemory then
        (.errorOutOfHostMemory, settingsLayers ++ entry.layers, shouldSearch)
      else if entry.manifest.result entry.config.treatAsImplicitManifest ≠ .success then
        getSettingsLayersFrom entries (settingsLayers ++ entry.layers) shouldSearch
      else
        getSettingsLayersFrom entries (keepNewSettingsLayers entry.config settingsLayers entry.layers)
          shouldSearch := by
  obtain ⟨config, manifest, memory⟩ := entry
  rw [getSettingsLayersFrom.eq_2]
  rcases hcontrol : config.control with _ | _ | _ | _
  · rfl
  · rfl
  · exact absurd hcontrol hoff
  · exact absurd hcontrol hplace

theorem endsLoop_of_read (hoff : entry.config.control ≠ .off)
    (hplace : entry.config.control ≠ .unorderedLayerLocation) :
    EndsLoop entry ↔ entry.config.path.isSome ∧ (entry.manifest.json = .errorOutOfHostMemory ∨
      (entry.manifest.json = .success ∧
        entry.manifest.result entry.config.treatAsImplicitManifest = .errorOutOfHostMemory)) := by
  unfold EndsLoop
  split <;> first | exact Iff.rfl | contradiction

theorem standsFor_of_read (hoff : entry.config.control ≠ .off)
    (hplace : entry.config.control ≠ .unorderedLayerLocation) {p : LayerProperties} :
    StandsFor entry p ↔ entry.config.path.isSome ∧ p.layerName = entry.config.name ∧
      p.settingsControlValue = entry.config.control ∧
      ∃ q ∈ entry.layers, p = { q with settingsControlValue := entry.config.control } := by
  unfold StandsFor
  split <;> first | exact Iff.rfl | contradiction

/-- What one turn does: it adds layers, which stand for the configuration unless reading its manifest failed, and the
loop ends or goes on. -/
theorem getSettingsLayersFrom_cons (entry : SettingsEntry) (settingsLayers : List LayerProperties)
    (shouldSearch : Bool) :
    ∃ added shouldSearch', (FailsReading entry → added = entry.layers) ∧
      (¬ FailsReading entry → ∀ p ∈ added, StandsFor entry p) ∧
      (EndsLoop entry → ∀ entries, getSettingsLayersFrom (entry :: entries) settingsLayers shouldSearch =
        (.errorOutOfHostMemory, settingsLayers ++ added, shouldSearch)) ∧
      (¬ EndsLoop entry → ∀ entries, getSettingsLayersFrom (entry :: entries) settingsLayers shouldSearch =
        getSettingsLayersFrom entries (settingsLayers ++ added) shouldSearch') := by
  by_cases hoff : entry.config.control = .off
  · rcases hmemory : entry.memory with _ | _
    · exact ⟨[], shouldSearch, by simp [FailsReading, hoff], by simp,
        by simp [getSettingsLayersFrom, hoff, hmemory], by simp [EndsLoop, hoff, hmemory]⟩
    · exact ⟨[offPlaceholder entry.config], shouldSearch, by simp [FailsReading, hoff], by simp [StandsFor, hoff],
        by simp [EndsLoop, hoff, hmemory], by simp [getSettingsLayersFrom, hoff, hmemory]⟩
  by_cases hplace : entry.config.control = .unorderedLayerLocation
  · rcases hmemory : entry.memory with _ | _
    · exact ⟨[], shouldSearch, by simp [FailsReading, hplace], by simp,
        by simp [getSettingsLayersFrom, hplace, hmemory], by simp [EndsLoop, hplace, hmemory]⟩
    · exact ⟨[unorderedMarker], true, by simp [FailsReading, hplace], by simp [StandsFor, hplace],
        by simp [EndsLoop, hplace, hmemory], by simp [getSettingsLayersFrom, hplace, hmemory]⟩
  simp only [getSettingsLayersFrom_of_read hoff hplace, endsLoop_of_read hoff hplace,
    standsFor_of_read hoff hplace]
  rcases hpath : entry.config.path with _ | path
  · exact ⟨[], shouldSearch, by simp [FailsReading, hpath], by simp, by simp, by simp⟩
  by_cases hjson : entry.manifest.json = .success
  · by_cases hmemory : entry.manifest.result entry.config.treatAsImplicitManifest = .errorOutOfHostMemory
    · have hfails : FailsReading entry := ⟨hoff, hplace, by simp [hpath], hjson, by simp [hmemory]⟩
      exact ⟨entry.layers, shouldSearch, fun _ => rfl, fun h => absurd hfails h, by simp [hjson, hmemory],
        by simp [hjson, hmemory]⟩
    · by_cases hresult : entry.manifest.result entry.config.treatAsImplicitManifest = .success
      · obtain ⟨kept, hkept, hnames⟩ := keepNewSettingsLayers_append entry.config settingsLayers entry.layers
        refine ⟨kept, shouldSearch, fun h => absurd hresult h.2.2.2.2, fun _ p hp => ?_, by simp [hjson, hmemory],
          by simp [hjson, hresult, hkept]⟩
        obtain ⟨hname, q, hq, rfl⟩ := hnames p hp
        exact ⟨rfl, hname, rfl, q, hq, rfl⟩
      · have hfails : FailsReading entry := ⟨hoff, hplace, by simp [hpath], hjson, hresult⟩
        exact ⟨entry.layers, shouldSearch, fun _ => rfl, fun h => absurd hfails h, by simp [hjson, hmemory],
          by simp [hjson, hmemory, hresult]⟩
  · have hfails : ¬ FailsReading entry := fun h => hjson h.2.2.2.1
    by_cases hmemory : entry.manifest.json = .errorOutOfHostMemory
    · exact ⟨[], shouldSearch, fun h => absurd h hfails, by simp, by simp [hmemory], by simp [hmemory]⟩
    · exact ⟨[], shouldSearch, fun h => absurd h hfails, by simp, by simp [hjson, hmemory], by simp [hjson, hmemory]⟩

/-- The loop over more configurations goes on where it ended, unless it was left. -/
theorem getSettingsLayersFrom_append :
    getSettingsLayersFrom (before ++ after) settingsLayers shouldSearch =
      if (getSettingsLayersFrom before settingsLayers shouldSearch).1 = .success then
        getSettingsLayersFrom after (getSettingsLayersFrom before settingsLayers shouldSearch).2.1
          (getSettingsLayersFrom before settingsLayers shouldSearch).2.2
      else getSettingsLayersFrom before settingsLayers shouldSearch := by
  induction before generalizing settingsLayers shouldSearch with
  | nil => simp [getSettingsLayersFrom]
  | cons entry before ih =>
    obtain ⟨added, shouldSearch', -, -, hends, hgoes⟩ := getSettingsLayersFrom_cons entry settingsLayers shouldSearch
    rw [List.cons_append]
    by_cases h : EndsLoop entry
    · rw [hends h, hends h, if_neg (by simp)]
    · rw [hgoes h, hgoes h, ih]

/-- The loop comes to the end of the configurations unless one of them ends it. -/
theorem getSettingsLayersFrom_success :
    (getSettingsLayersFrom entries settingsLayers shouldSearch).1 = .success ↔ ∀ e ∈ entries, ¬ EndsLoop e := by
  induction entries generalizing settingsLayers shouldSearch with
  | nil => simp [getSettingsLayersFrom]
  | cons entry entries ih =>
    obtain ⟨added, shouldSearch', -, -, hends, hgoes⟩ := getSettingsLayersFrom_cons entry settingsLayers shouldSearch
    rw [List.forall_mem_cons]
    by_cases h : EndsLoop entry
    · rw [hends h]
      simp [h]
    · rw [hgoes h, ih]
      simp [h]

/-- What a configuration adds behind those before it. -/
theorem settingsLayersOf_concat (before : List SettingsEntry) (entry : SettingsEntry) :
    ∃ added, settingsLayersOf (before ++ [entry]) = settingsLayersOf before ++ added ∧
      ((∃ e ∈ before, EndsLoop e) → added = []) ∧
      ((∀ e ∈ before, ¬ EndsLoop e) → FailsReading entry → added = entry.layers) ∧
      (¬ FailsReading entry → ∀ p ∈ added, StandsFor entry p) := by
  simp only [settingsLayersOf, getSettingsLayers]
  rw [getSettingsLayersFrom_append]
  by_cases hsuccess : (getSettingsLayersFrom before [] false).1 = .success
  · obtain ⟨added, shouldSearch, hfails, hstands, hends, hgoes⟩ := getSettingsLayersFrom_cons entry
      (getSettingsLayersFrom before [] false).2.1 (getSettingsLayersFrom before [] false).2.2
    rw [if_pos hsuccess]
    rw [getSettingsLayersFrom_success] at hsuccess
    refine ⟨added, ?_, fun ⟨e, he, h⟩ => absurd h (hsuccess e he), fun _ => hfails, hstands⟩
    by_cases h : EndsLoop entry
    · rw [hends h]
    · rw [hgoes h, getSettingsLayersFrom]
  · rw [if_neg hsuccess]
    refine ⟨[], by simp, fun _ => rfl, fun h => ?_, by simp⟩
    exact absurd (getSettingsLayersFrom_success.2 h) hsuccess

theorem standsFor_of_asConfigured {q : LayerProperties} (h : FailsReading entry) (hq : q ∈ entry.layers)
    (hname : q.layerName = entry.config.name) (hcontrol : q.settingsControlValue = entry.config.control) :
    StandsFor entry q := by
  rw [standsFor_of_read h.1 h.2.1]
  exact ⟨h.2.2.1, hname, hcontrol, q, hq, by rw [← hcontrol]⟩

/-- **When the settings are respected**: exactly when what a manifest adds before it fails is as configured. -/
theorem respectsConfigurations_iff (entries : List SettingsEntry) :
    RespectsConfigurations entries ↔ FailuresAsConfigured entries := by
  constructor
  · intro h before entry after hentries hbefore hfails q hq
    obtain ⟨added, hadded, hstands⟩ := h before entry after hentries
    obtain ⟨added', hadded', -, hlayers, -⟩ := settingsLayersOf_concat before entry
    obtain rfl : added = added' := List.append_cancel_left (hadded.symm.trans hadded')
    rw [hlayers hbefore hfails] at hstands
    obtain ⟨-, hname, hcontrol, -⟩ := (standsFor_of_read hfails.1 hfails.2.1).1 (hstands q hq)
    exact ⟨hname, hcontrol⟩
  · intro h before entry after hentries
    obtain ⟨added, hadded, hnone, hlayers, hstands⟩ := settingsLayersOf_concat before entry
    refine ⟨added, hadded, fun p hp => ?_⟩
    by_cases hfails : FailsReading entry
    · by_cases hends : ∃ e ∈ before, EndsLoop e
      · rw [hnone hends] at hp
        simp at hp
      · have hbefore : ∀ e ∈ before, ¬ EndsLoop e := fun e he hend => hends ⟨e, he, hend⟩
        rw [hlayers hbefore hfails] at hp
        obtain ⟨hname, hcontrol⟩ := h before entry after hentries hbefore hfails p hp
        exact standsFor_of_asConfigured hfails hp hname hcontrol
    · exact hstands hfails p hp

end Turns

/-- A manifest file that can be read, with all requests granted. -/
def ManifestFile.ofMembers (fileName : String) (pointerSize : ℕ) (members : List (String × CJson)) : ManifestFile where
  json := .success
  layers isImplicit :=
    (addManifest ⟨fileName, isImplicit, pointerSize⟩ members .zero).2.list.map ManifestLayer.toProperties
  result isImplicit := (addManifest ⟨fileName, isImplicit, pointerSize⟩ members .zero).1

/-- A layer that is turned on, with a manifest of another layer and one that says nothing. -/
def failingEntry : SettingsEntry where
  config := ⟨"VK_LAYER_b", some "/layers/a.json", .on, false⟩
  manifest := .ofMembers "/layers/a.json" 8
    [("file_format_version", .string "1.2.0"), ("layers", .array [completeLayer, .object []])]
  memory := true

/-- The other layer is among the settings layers then. -/
theorem not_respectsConfigurations : ¬ RespectsConfigurations [failingEntry] := by
  intro h
  obtain ⟨added, hadded, hstands⟩ := h [] failingEntry [] rfl
  have hnames : (settingsLayersOf [failingEntry]).map LayerProperties.layerName = ["VK_LAYER_a"] := by decide
  have hother : "VK_LAYER_a" ∈ added.map LayerProperties.layerName := by
    rw [List.nil_append, show settingsLayersOf [] = [] from rfl, List.nil_append] at hadded
    rw [← hadded, hnames]
    exact List.mem_cons_self
  obtain ⟨p, hp, hname⟩ := List.mem_map.1 hother
  obtain ⟨-, hconfigured, -⟩ := hstands p hp
  exact absurd (hname.symm.trans hconfigured) (by decide)

end VulkanLoader
