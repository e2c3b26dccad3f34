import VulkanLoader.Layers.Meta
import VulkanLoader.Lib.EarlyExit

/-!
# Activating layers

`loader_enable_instance_layers` fills the two lists of activated layers: `app_activated_layer_list`, with the meta-layers
themselves, and `expanded_activated_layer_list`, without them.  Without a settings file the implicit layers come first,
then those of the environment, then those that the application asks for; with one, a single pass over the instance
layers decides for each of them.
-/

namespace VulkanLoader

/-! ### The value of `VK_INSTANCE_LAYERS` -/

/-- `strstr` finds the second string in the first. -/
def strstr (haystack needle : String) : Bool := haystack.toList.tails.any fun rest => needle.toList.isPrefixOf rest

/-- The strings that repeated calls of `loader_get_next_path` cut off, as long as something is left; `token` is the
start of the string at hand, in reverse. -/
def cutPaths : List Char → List Char → List String
  | [], token => [String.ofList token.reverse]
  | c :: rest, token =>
    if c = ':' then String.ofList token.reverse :: (if rest.isEmpty then [] else cutPaths rest [])
    else cutPaths rest (c :: token)

/-- The names in a value of `VK_INSTANCE_LAYERS`. -/
def envTokens (value : String) : List String := if value.isEmpty then [] else cutPaths value.toList []

namespace Activation

/-- `VK_INSTANCE_LAYERS`. -/
def enabledLayersEnv (a : Activation) : Option String := a.ctx.getenv "VK_INSTANCE_LAYERS"

/-- A layer is added to both lists, a meta-layer with its components. -/
def addLayer (a : Activation) (fuel : ℕ) (prop : LayerProperties) (t : LayerTargets) :
    Option (VkResult × LayerTargets) :=
  if !prop.isMeta then some (a.addToBoth prop t) else (loaderAddMetaLayer a fuel prop t).map fun r => (r.1, r.2.2)

end Activation

/-! ### Without a settings file -/

/-- `loader_add_implicit_layers` leaves the layer to `loader_add_environment_layers`. -/
def inEnabledLayersEnv (enabledLayersEnv : Option String) (prop : LayerProperties) : Bool :=
  enabledLayersEnv.any fun value => strstr value prop.layerName

/-- The loop of `loader_add_implicit_layers` over the instance layers. -/
def loaderAddImplicitLayers (a : Activation) (fuel : ℕ) :
    List LayerProperties → LayerTargets → Option (VkResult × LayerTargets)
  | [], t => some (.success, t)
  | prop :: props, t =>
    if !prop.isExplicit && !inEnabledLayersEnv a.enabledLayersEnv prop then
      (loaderAddImplicitLayer a (loaderAddMetaLayer a fuel) prop t).bind fun r =>
        if r.1 = .errorOutOfHostMemory then some r else loaderAddImplicitLayers a fuel props r.2
    else loaderAddImplicitLayers a fuel props t

/-- The search of `loader_add_environment_layers` for the layer of a name in `VK_INSTANCE_LAYERS`. -/
def addNamedLayer (a : Activation) (fuel : ℕ) (name : String) :
    List LayerProperties → VkResult → LayerTargets → Option (VkResult × LayerTargets)
  | [], res, t => some (res, t)
  | sourceProp :: props, res, t =>
    if name == sourceProp.layerName && !loaderFindLayerNameInList sourceProp.layerName t.target then
      a.addLayer fuel sourceProp t
    else addNamedLayer a fuel name props res t

/-- The loop of `loader_add_environment_layers` over the names in `VK_INSTANCE_LAYERS`. -/
def addEnvTokens (a : Activation) (fuel : ℕ) :
    List String → VkResult → LayerTargets → Option (VkResult × LayerTargets)
  | [], res, t => some (res, t)
  | name :: names, res, t =>
    if name.isEmpty then addEnvTokens a fuel names res t
    else
      (addNamedLayer a fuel name a.sourceList res t).bind fun r =>
        if r.1 = .errorOutOfHostMemory then some r else addEnvTokens a fuel names r.1 r.2

/-- What the scan of `loader_add_environment_layers` decides for an explicit layer.  It asks for the disable filters
first, but the answer is overwritten whether the enable filter takes the layer or not, so it counts for the log only. -/
def envScanAdds (filters : EnvvarAllFilters) (target : List LayerProperties) (sourceProp : LayerProperties) : Bool :=
  checkNameMatchesFilterEnvironmentVar sourceProp.layerName filters.enableFilter &&
    !loaderFindLayerNameInList sourceProp.layerName target

/-- The scan of `loader_add_environment_layers` with the filters. -/
def addEnvScan (a : Activation) (fuel : ℕ) :
    List LayerProperties → VkResult → LayerTargets → Option (VkResult × LayerTargets)
  | [], res, t => some (res, t)
  | sourceProp :: props, res, t =>
    if sourceProp.isExplicit && envScanAdds a.ctx.filters t.target sourceProp then
      (a.addLayer fuel sourceProp t).bind fun r =>
        if r.1 = .errorOutOfHostMemory then some r else addEnvScan a fuel props r.1 r.2
    else addEnvScan a fuel props res t

/-- `loader_add_environment_layers`. -/
def loaderAddEnvironmentLayers (a : Activation) (fuel : ℕ) (t : LayerTargets) : Option (VkResult × LayerTargets) :=
  (addEnvTokens a fuel (a.enabledLayersEnv.elim [] envTokens) .success t).bind fun r =>
    if r.1 = .errorOutOfHostMemory then some r else addEnvScan a fuel a.sourceList r.1 r.2

/-- A named layer that the list does not have and the filters let through is added as on the other routes. -/
theorem loaderAddLayerNamesToList_cons {a : Activation} {fuel : ℕ} {name : String} {names : List String}
    {err : VkResult} {t : LayerTargets} {prop : LayerProperties}
    (hfind : loaderFindLayerProperty name a.sourceList = some prop)
    (hnot : loaderFindLayerNameInList name t.target = false)
    (havail : loaderLayerIsAvailable a.ctx.filters prop = true) :
    loaderAddLayerNamesToList a fuel (name :: names) err t = (a.addLayer fuel prop t).bind fun r =>
      if r.1 = .errorOutOfHostMemory then some r else loaderAddLayerNamesToList a fuel names r.1 r.2 := by
  rw [loaderAddLayerNamesToList, hfind]
  dsimp only
  rw [if_neg (by simpa using hnot), if_neg (by simpa using havail)]
  unfold Activation.addLayer
  by_cases hmeta : prop.isMeta = true
  · rw [if_neg (by simp [hmeta]), if_neg (by simp [hmeta]), Option.bind_map]
    rfl
  · have hturn : (!prop.isMeta) = true := by simpa using hmeta
    rw [if_pos hturn, if_pos hturn, Option.bind_some]

/-! ### With a settings file -/

/-- What `enable_correct_layers_from_settings` decides for a layer. -/
def settingsEnableLayer (ctx : LayerContext) (enabledLayersEnv : Option String) (appEnabledNames : List String)
    (props : LayerProperties) : Bool :=
  match props.settingsControlValue with
  | .unorderedLayerLocation => false
  | .off => false
  | .on => true
  | .default =>
    if (ctx.filters.disableFilter.disableAll || ctx.filters.disableFilter.disableAllImplicit ||
        checkNameMatchesFilterEnvironmentVar props.layerName ctx.filters.disableFilter.additionalFilters) &&
      !checkNameMatchesFilterEnvironmentVar props.layerName ctx.filters.allowFilter then false
    else
      checkNameMatchesFilterEnvironmentVar props.layerName ctx.filters.enableFilter ||
        (enabledLayersEnv.elim [] envTokens).contains props.layerName ||
        appEnabledNames.contains props.layerName ||
        (!props.isExplicit && loaderImplicitLayerIsEnabled ctx props)

/-- The loop of `enable_correct_layers_from_settings` over the instance layers. -/
def enableCorrectLayersFromSettings (a : Activation) (fuel : ℕ) (appEnabledNames : List String) :
    List LayerProperties → VkResult → LayerTargets → Option (VkResult × LayerTargets)
  | [], res, t => some (res, t)
  | props :: rest, res, t =>
    if settingsEnableLayer a.ctx a.enabledLayersEnv appEnabledNames props then
      (a.addLayer fuel props t).bind fun r =>
        if r.1 = .errorOutOfHostMemory ∨ (!props.isMeta ∧ r.1 ≠ .success) then some r
        else enableCorrectLayersFromSettings a fuel appEnabledNames rest r.1 r.2
    else enableCorrectLayersFromSettings a fuel appEnabledNames rest res t

/-! ### The whole activation -/

/-- The lists as `loader_init_pointer_layer_list` leaves them. -/
def LayerTargets.empty : LayerTargets := ⟨[], some []⟩

/-- `loader_enable_instance_layers`; `listsInit` tells that there was memory for the two lists, and `settingsActive`
that the settings file configures layers. -/
def loaderEnableInstanceLayers (a : Activation) (fuel : ℕ) (listsInit settingsActive : Bool)
    (enabledLayerNames : List String) : Option (VkResult × LayerTargets) :=
  if !listsInit then some (.errorOutOfHostMemory, .empty)
  else if settingsActive then
    enableCorrectLayersFromSettings a fuel enabledLayerNames a.sourceList .success .empty
  else
    (loaderAddImplicitLayers a fuel a.sourceList .empty).bind fun r =>
      if r.1 ≠ .success then some r
      else
        (loaderAddEnvironmentLayers a fuel r.2).bind fun r =>
          if r.1 ≠ .success then some r
          else loaderAddLayerNamesToList a fuel enabledLayerNames .success r.2

/-! ### The activation ends where the expansion does -/

section Ends

variable {a : Activation} {fuel : ℕ}

/-- One amount of fuel is enough for all layers. -/
theorem exists_fuel_of_terminates (a : Activation) (hends : ExpansionTerminates a.ctx a.sourceList) :
    ∃ fuel, ∀ p ∈ a.sourceList, ∀ t, (loaderAddMetaLayer a fuel p t).isSome := by
  have hacc : ∀ p, Acc (fun q p => Follows a.ctx a.sourceList p q) p := by
    apply Lib.acc_of_no_cycle a.sourceList _ ((expansionTerminates_iff_no_cycle _ _).1 hends)
    rintro p q ⟨name, -, hfind, -⟩
    exact (mem_of_loaderFindLayerProperty hfind).1
  apply exists_fuel (P := fun fuel p => ∀ t, (loaderAddMetaLayer a fuel p t).isSome)
  · intro p n m hnm hn t
    obtain ⟨r, hr⟩ := Option.isSome_iff_exists.1 (hn t)
    rw [loaderAddMetaLayer_mono hnm hr]
    rfl
  · exact fun p _ => exists_fuel_of_acc (hacc p)

variable (hfuel : ∀ p ∈ a.sourceList, ∀ t, (loaderAddMetaLayer a fuel p t).isSome)
include hfuel

theorem addLayer_isSome {p : LayerProperties} (hp : p ∈ a.sourceList) (t : LayerTargets) :
    (a.addLayer fuel p t).isSome := by
  unfold Activation.addLayer
  split_ifs
  · rfl
  · rw [Option.isSome_map]
    exact hfuel p hp t

theorem loaderAddImplicitLayers_isSome {props : List LayerProperties} (hprops : ∀ p ∈ props, p ∈ a.sourceList)
    (t : LayerTargets) : (loaderAddImplicitLayers a fuel props t).isSome := by
  induction props generalizing t with
  | nil => rfl
  | cons p props ih =>
    have htail := ih fun p hp => hprops p (List.mem_cons_of_mem _ hp)
    unfold loaderAddImplicitLayers
    split_ifs
    · have hlayer : (loaderAddImplicitLayer a (loaderAddMetaLayer a fuel) p t).isSome :=
        loaderAddImplicitLayer_isSome (fun _ _ => hfuel p (hprops p List.mem_cons_self)) t
      exact Lib.isSome_bind_unless hlayer fun r => htail r.2
    · exact htail _

theorem addNamedLayer_isSome {props : List LayerProperties} (hprops : ∀ p ∈ props, p ∈ a.sourceList) (name : String)
    (res : VkResult) (t : LayerTargets) : (addNamedLayer a fuel name props res t).isSome := by
  induction props with
  | nil => rfl
  | cons p props ih =>
    unfold addNamedLayer
    split_ifs
    · exact addLayer_isSome hfuel (hprops p List.mem_cons_self) t
    · exact ih fun p hp => hprops p (List.mem_cons_of_mem _ hp)

theorem addEnvTokens_isSome (names : List String) (res : VkResult) (t : LayerTargets) :
    (addEnvTokens a fuel names res t).isSome := by
  induction names generalizing res t with
  | nil => rfl
  | cons name names ih =>
    unfold addEnvTokens
    split_ifs
    · exact ih _ _
    · have hlayer := addNamedLayer_isSome hfuel (fun _ hp => hp) name res t
      exact Lib.isSome_bind_unless hlayer fun r => ih r.1 r.2

theorem addEnvScan_isSome {props : List LayerProperties} (hprops : ∀ p ∈ props, p ∈ a.sourceList) (res : VkResult)
    (t : LayerTargets) : (addEnvScan a fuel props res t).isSome := by
  induction props generalizing res t with
  | nil => rfl
  | cons p props ih =>
    have htail := ih fun p hp => hprops p (List.mem_cons_of_mem _ hp)
    unfold addEnvScan
    split_ifs
    · have hlayer := addLayer_isSome hfuel (hprops p List.mem_cons_self) t
      exact Lib.isSome_bind_unless hlayer fun r => htail r.1 r.2
    · exact htail _ _

theorem enableCorrectLayersFromSettings_isSome {props : List LayerProperties} (hprops : ∀ p ∈ props, p ∈ a.sourceList)
    (names : List String) (res : VkResult) (t : LayerTargets) :
    (enableCorrectLayersFromSettings a fuel names props res t).isSome := by
  induction props generalizing res t with
  | nil => rfl
  | cons p props ih =>
    have htail := ih fun p hp => hprops p (List.mem_cons_of_mem _ hp)
    unfold enableCorrectLayersFromSettings
    split_ifs
    · have hlayer := addLayer_isSome hfuel (hprops p List.mem_cons_self) t
      exact Lib.isSome_bind_unless hlayer fun r => htail r.1 r.2
    · exact htail _ _

theorem loaderAddEnvironmentLayers_isSome (t : LayerTargets) : (loaderAddEnvironmentLayers a fuel t).isSome := by
  have htokens := addEnvTokens_isSome hfuel (a.enabledLayersEnv.elim [] envTokens) .success t
  exact Lib.isSome_bind_unless htokens fun r => addEnvScan_isSome hfuel (fun _ hp => hp) r.1 r.2

/-- **The activation ends**, with a settings file and without. -/
theorem loaderEnableInstanceLayers_isSome (listsInit settingsActive : Bool) (names : List String) :
    (loaderEnableInstanceLayers a fuel listsInit settingsActive names).isSome := by
  unfold loaderEnableInstanceLayers
  split_ifs
  · rfl
  · exact enableCorrectLayersFromSettings_isSome hfuel (fun _ hp => hp) _ _ _
  · refine Lib.isSome_bind_unless (loaderAddImplicitLayers_isSome hfuel (fun _ hp => hp) .empty) fun r => ?_
    refine Lib.isSome_bind_unless (loaderAddEnvironmentLayers_isSome hfuel r.2) fun r' => ?_
    exact loaderAddLayerNamesToList_isSome hfuel names .success r'.2

end Ends

end VulkanLoader
