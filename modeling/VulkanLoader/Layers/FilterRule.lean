import VulkanLoader.Layers.Activate

/-!
# The filter rule

The documentation says once which layers `VK_LOADER_LAYERS_DISABLE` holds back: those that one of its globs or special
values matches, unless a glob of `VK_LOADER_LAYERS_ALLOW` or `VK_LOADER_LAYERS_ENABLE` matches them too.  The code asks
in four places.  A place follows the rule if it answers as it would with nothing disabled, except that it answers no
where the rule disables the layer.
-/

namespace VulkanLoader

/-- The documented rule: the filters disable the layer. -/
def ruleDisables (filters : EnvvarAllFilters) (p : LayerProperties) : Bool :=
  (checkNameMatchesFilterEnvironmentVar p.layerName filters.disableFilter.additionalFilters ||
      filters.disableFilter.disableAll || (filters.disableFilter.disableAllImplicit && !p.isExplicit) ||
      (filters.disableFilter.disableAllExplicit && p.isExplicit)) &&
    !checkNameMatchesFilterEnvironmentVar p.layerName filters.allowFilter &&
    !checkNameMatchesFilterEnvironmentVar p.layerName filters.enableFilter

/-- The filters without those that disable. -/
def EnvvarAllFilters.nothingDisabled (filters : EnvvarAllFilters) : EnvvarAllFilters :=
  { filters with disableFilter := ⟨[], false, false, false⟩ }

/-- The answer about a layer follows the rule. -/
def FollowsRule (filters : EnvvarAllFilters) (p : LayerProperties) (answer : EnvvarAllFilters → Bool) : Prop :=
  answer filters = (answer filters.nothingDisabled && !ruleDisables filters p)

section Routes

variable (ctx : LayerContext) (target : List LayerProperties) (enabledLayersEnv : Option String)
  (appEnabledNames : List String) (p : LayerProperties)

/-- **All routes follow the rule**: the question about an implicit layer, the one about a layer that the application
asks for or that is a component, the scan with the enable filter, which is for explicit layers, and the pass with a
settings file over the layers that it leaves to the environment. -/
structure SameRule : Prop where
  implicit : p.isExplicit = false →
    FollowsRule ctx.filters p fun filters => loaderImplicitLayerIsEnabled { ctx with filters } p
  available : FollowsRule ctx.filters p fun filters => loaderLayerIsAvailable filters p
  envScan : p.isExplicit = true → FollowsRule ctx.filters p fun filters => envScanAdds filters target p
  settings : p.settingsControlValue ≠ .on → p.settingsControlValue ≠ .off →
    FollowsRule ctx.filters p fun filters =>
      settingsEnableLayer { ctx with filters } enabledLayersEnv appEnabledNames p

/-- The variable that enables an implicit layer has the value that it asks for, or there is none. -/
def enableVariableHolds : Bool :=
  match p.enableEnvVar with
  | none => true
  | some (name, value) => ctx.getenv name == some value

/-- The test of the pass with a settings file. -/
def settingsDisables (filters : EnvvarAllFilters) : Bool :=
  (filters.disableFilter.disableAll || filters.disableFilter.disableAllImplicit ||
      checkNameMatchesFilterEnvironmentVar p.layerName filters.disableFilter.additionalFilters) &&
    !checkNameMatchesFilterEnvironmentVar p.layerName filters.allowFilter

/-- The routes agree on the layer: the override layer does not turn on an implicit layer that is disabled and that its
variable leaves off; no glob enables a layer that the pass with a settings file disables; and where only the special
values for one kind of layer speak, the application does not ask for an explicit layer, or they say the same of both
kinds. -/
structure RoutesAgree : Prop where
  implicit : p.isExplicit = false → ruleDisables ctx.filters p = true → ctx.overrides p.layerName = true →
    enableVariableHolds ctx p = true
  enabled : p.settingsControlValue = .default →
    checkNameMatchesFilterEnvironmentVar p.layerName ctx.filters.enableFilter = true →
      settingsDisables p ctx.filters = false
  special : p.settingsControlValue = .default → p.isExplicit = true → p.layerName ∈ appEnabledNames →
    checkNameMatchesFilterEnvironmentVar p.layerName ctx.filters.enableFilter = false →
      checkNameMatchesFilterEnvironmentVar p.layerName ctx.filters.allowFilter = false →
        checkNameMatchesFilterEnvironmentVar p.layerName ctx.filters.disableFilter.additionalFilters = false →
          ctx.filters.disableFilter.disableAll = false →
            ctx.filters.disableFilter.disableAllImplicit = ctx.filters.disableFilter.disableAllExplicit

end Routes

/-! ### Each route -/

section Answers

variable {filters : EnvvarAllFilters} {ctx : LayerContext} {p : LayerProperties}

@[simp] theorem checkNameMatchesFilterEnvironmentVar_nil (name : String) :
    checkNameMatchesFilterEnvironmentVar name [] = false := rfl

@[simp] theorem settingsDisables_nothingDisabled : settingsDisables p filters.nothingDisabled = false := by
  simp [settingsDisables, EnvvarAllFilters.nothingDisabled]

@[simp] theorem ruleDisables_nothingDisabled : ruleDisables filters.nothingDisabled p = false := by
  simp [ruleDisables, EnvvarAllFilters.nothingDisabled]

/-- For an implicit layer the rule is the test of the pass, where no glob enables the layer. -/
theorem ruleDisables_implicit (hp : p.isExplicit = false) : ruleDisables filters p =
    (settingsDisables p filters && !checkNameMatchesFilterEnvironmentVar p.layerName filters.enableFilter) := by
  unfold ruleDisables settingsDisables
  grind

theorem loaderLayerIsAvailable_eq : loaderLayerIsAvailable filters p = !ruleDisables filters p := by
  unfold loaderLayerIsAvailable ruleDisables
  grind

theorem available_followsRule : FollowsRule filters p fun filters => loaderLayerIsAvailable filters p := by
  simp [FollowsRule, loaderLayerIsAvailable_eq]

theorem envScanAdds_followsRule (target : List LayerProperties) :
    FollowsRule filters p fun filters => envScanAdds filters target p := by
  have hsame : envScanAdds filters.nothingDisabled target p = envScanAdds filters target p := rfl
  simp only [FollowsRule, hsame]
  -- what the scan adds is enabled by a glob
  unfold envScanAdds ruleDisables
  grind

/-- What an implicit layer has where the filters do not disable it. -/
def implicitAnswer (ctx : LayerContext) (p : LayerProperties) : Bool :=
  ctx.overrides p.layerName ||
    (!(p.disableEnvVar.any fun name => (ctx.getenv name).isSome) &&
      (checkNameMatchesFilterEnvironmentVar p.layerName ctx.filters.enableFilter || enableVariableHolds ctx p))

theorem loaderImplicitLayerIsEnabled_eq : loaderImplicitLayerIsEnabled ctx p =
    if !checkNameMatchesFilterEnvironmentVar p.layerName ctx.filters.enableFilter && enableVariableHolds ctx p &&
      settingsDisables p ctx.filters then false else implicitAnswer ctx p := by
  have hshape : loaderImplicitLayerIsEnabled ctx p =
      if !checkNameMatchesFilterEnvironmentVar p.layerName ctx.filters.enableFilter && enableVariableHolds ctx p &&
        settingsDisables p ctx.filters then false
      else if ctx.overrides p.layerName then true
      else
        p.disableEnvVar.elim
          (checkNameMatchesFilterEnvironmentVar p.layerName ctx.filters.enableFilter || enableVariableHolds ctx p)
          fun name =>
            if (ctx.getenv name).isSome then false
            else
              checkNameMatchesFilterEnvironmentVar p.layerName ctx.filters.enableFilter || enableVariableHolds ctx p := by
    unfold loaderImplicitLayerIsEnabled
    cases p.disableEnvVar with
    | none => rfl
    | some name => rfl
  rw [hshape]
  unfold implicitAnswer
  rcases p.disableEnvVar with _ | name
  · simp
  · rcases ctx.getenv name with _ | _
    · simp
    · simp

theorem loaderImplicitLayerIsEnabled_nothingDisabled :
    loaderImplicitLayerIsEnabled { ctx with filters := ctx.filters.nothingDisabled } p = implicitAnswer ctx p := by
  rw [loaderImplicitLayerIsEnabled_eq, settingsDisables_nothingDisabled, Bool.and_false, if_neg (by decide)]
  rfl

/-- The question about an implicit layer follows the rule, unless the override layer turns it on. -/
theorem implicit_followsRule_iff (hp : p.isExplicit = false) :
    (FollowsRule ctx.filters p fun filters => loaderImplicitLayerIsEnabled { ctx with filters } p) ↔
      (ruleDisables ctx.filters p = true → ctx.overrides p.layerName = true → enableVariableHolds ctx p = true) := by
  have hanswer : (FollowsRule ctx.filters p fun filters => loaderImplicitLayerIsEnabled { ctx with filters } p) ↔
      loaderImplicitLayerIsEnabled ctx p = (implicitAnswer ctx p && !ruleDisables ctx.filters p) := by
    rw [← loaderImplicitLayerIsEnabled_nothingDisabled]
    rfl
  rw [hanswer, loaderImplicitLayerIsEnabled_eq, ruleDisables_implicit hp]
  unfold implicitAnswer
  rcases enableVariableHolds ctx p with _ | _
  · rcases checkNameMatchesFilterEnvironmentVar p.layerName ctx.filters.enableFilter with _ | _
    · simp
    · simp
  · rcases checkNameMatchesFilterEnvironmentVar p.layerName ctx.filters.enableFilter with _ | _
    · rcases settingsDisables p ctx.filters with _ | _
      · simp
      · simp
    · simp

variable {enabledLayersEnv : Option String}

/-- What the pass with a settings file answers for a layer that the settings leave to the environment. -/
theorem settingsEnableLayer_eq (ctx : LayerContext) (appEnabledNames : List String)
    (hcontrol : p.settingsControlValue = .default) (hnot : p.layerName ∉ enabledLayersEnv.elim [] envTokens) :
    settingsEnableLayer ctx enabledLayersEnv appEnabledNames p =
      (!settingsDisables p ctx.filters &&
        (checkNameMatchesFilterEnvironmentVar p.layerName ctx.filters.enableFilter ||
          appEnabledNames.contains p.layerName || (!p.isExplicit && implicitAnswer ctx p))) := by
  have htokens : (enabledLayersEnv.elim [] envTokens).contains p.layerName = false := by
    simpa using hnot
  have hshape : settingsEnableLayer ctx enabledLayersEnv appEnabledNames p =
      if settingsDisables p ctx.filters then false
      else
        checkNameMatchesFilterEnvironmentVar p.layerName ctx.filters.enableFilter ||
          (enabledLayersEnv.elim [] envTokens).contains p.layerName || appEnabledNames.contains p.layerName ||
          (!p.isExplicit && loaderImplicitLayerIsEnabled ctx p) := by
    unfold settingsEnableLayer
    rw [hcontrol]
    rfl
  rw [hshape, htokens, loaderImplicitLayerIsEnabled_eq]
  rcases settingsDisables p ctx.filters with _ | _
  · simp
  · simp

/-- The pass with a settings file follows the rule exactly if its own test gets in the way of no glob that enables, and
reads the special value for the kind of an explicit layer where that decides. -/
theorem settings_followsRule_iff (appEnabledNames : List String) (hcontrol : p.settingsControlValue = .default)
    (hnot : p.layerName ∉ enabledLayersEnv.elim [] envTokens) :
    (FollowsRule ctx.filters p fun filters =>
        settingsEnableLayer { ctx with filters } enabledLayersEnv appEnabledNames p) ↔
      (checkNameMatchesFilterEnvironmentVar p.layerName ctx.filters.enableFilter = true →
        settingsDisables p ctx.filters = false) ∧
      (p.isExplicit = true → p.layerName ∈ appEnabledNames →
        checkNameMatchesFilterEnvironmentVar p.layerName ctx.filters.enableFilter = false →
          checkNameMatchesFilterEnvironmentVar p.layerName ctx.filters.allowFilter = false →
            checkNameMatchesFilterEnvironmentVar p.layerName ctx.filters.disableFilter.additionalFilters = false →
              ctx.filters.disableFilter.disableAll = false →
                ctx.filters.disableFilter.disableAllImplicit = ctx.filters.disableFilter.disableAllExplicit) := by
  have hanswer : (FollowsRule ctx.filters p fun filters =>
        settingsEnableLayer { ctx with filters } enabledLayersEnv appEnabledNames p) ↔
      (!settingsDisables p ctx.filters &&
        (checkNameMatchesFilterEnvironmentVar p.layerName ctx.filters.enableFilter ||
          appEnabledNames.contains p.layerName || (!p.isExplicit && implicitAnswer ctx p))) =
      ((checkNameMatchesFilterEnvironmentVar p.layerName ctx.filters.enableFilter ||
          appEnabledNames.contains p.layerName || (!p.isExplicit && implicitAnswer ctx p)) &&
        !ruleDisables ctx.filters p) := by
    have hnothing := settingsEnableLayer_eq { ctx with filters := ctx.filters.nothingDisabled } appEnabledNames hcontrol
      hnot
    rw [settingsDisables_nothingDisabled, Bool.not_false, Bool.true_and] at hnothing
    rw [← settingsEnableLayer_eq ctx appEnabledNames hcontrol hnot]
    show _ = (settingsEnableLayer _ _ _ _ && _) ↔ _
    rw [hnothing]
    rfl
  rw [hanswer]
  by_cases hexplicit : p.isExplicit = true
  · -- of an explicit layer the rule reads another special value than the pass
    unfold settingsDisables ruleDisables
    rw [hexplicit]
    grind
  · have hp : p.isExplicit = false := by simpa using hexplicit
    rw [ruleDisables_implicit hp]
    rcases checkNameMatchesFilterEnvironmentVar p.layerName ctx.filters.enableFilter with _ | _
    · simp [hp, Bool.and_comm]
    · simp [hp]

end Answers

/-- **All routes follow the rule for a layer exactly if** the override layer does not turn on what the filters disable,
and the test of the pass with a settings file answers like the rule where its answer counts. -/
theorem sameRule_iff (ctx : LayerContext) (target : List LayerProperties) (enabledLayersEnv : Option String)
    (appEnabledNames : List String) (p : LayerProperties) (hnot : p.layerName ∉ enabledLayersEnv.elim [] envTokens) :
    SameRule ctx target enabledLayersEnv appEnabledNames p ↔ RoutesAgree ctx appEnabledNames p := by
  constructor
  · intro h
    have hsettings : p.settingsControlValue = .default → _ := fun hcontrol =>
      (settings_followsRule_iff appEnabledNames hcontrol hnot).1
        (h.settings (by simp [hcontrol]) (by simp [hcontrol]))
    exact ⟨fun hp => (implicit_followsRule_iff hp).1 (h.implicit hp), fun hcontrol => (hsettings hcontrol).1,
      fun hcontrol => (hsettings hcontrol).2⟩
  · intro h
    refine ⟨fun hp => (implicit_followsRule_iff hp).2 (h.implicit hp), available_followsRule,
      fun _ => envScanAdds_followsRule target, fun hon hoff => ?_⟩
    rcases hcontrol : p.settingsControlValue with _ | _ | _ | _
    · exact (settings_followsRule_iff appEnabledNames hcontrol hnot).2 ⟨h.enabled hcontrol, h.special hcontrol⟩
    · exact absurd hcontrol hon
    · exact absurd hcontrol hoff
    · -- the marker is never taken
      simp [FollowsRule, settingsEnableLayer, hcontrol]

/-! ### Globs, and the special value for explicit layers -/

/-- A context in which a glob disables the layers of Vulkan, and another one allows those that end in `_B`. -/
def globbedContext : LayerContext :=
  ⟨fun _ => none, ⟨[], ⟨[⟨"vk_layer_".toList, .nameStart⟩], false, false, false⟩, [⟨"_b".toList, .nameEnd⟩]⟩, none⟩

/-- One layer that is disabled, one that is allowed, and an implicit one that is disabled; `VK_INSTANCE_LAYERS` names
another layer.  All routes follow the rule for the three. -/
theorem sameRule_iff_globs :
    let layers := [LayerProperties.explicitNamed "VK_LAYER_A", .explicitNamed "VK_LAYER_B",
      { LayerProperties.zero with layerName := "VK_LAYER_C" }]
    layers.map (ruleDisables globbedContext.filters) = [true, false, true] ∧
      ∀ p ∈ layers, SameRule globbedContext [] (some "VK_LAYER_D") ["VK_LAYER_A", "VK_LAYER_B"] p := by
  refine ⟨by decide, fun p hp => ?_⟩
  have hnot : p.layerName ∉ (some "VK_LAYER_D").elim [] envTokens := by
    revert p
    decide
  exact (sameRule_iff globbedContext [] (some "VK_LAYER_D") ["VK_LAYER_A", "VK_LAYER_B"] p hnot).2
    ⟨fun _ _ hoverrides => absurd hoverrides Bool.false_ne_true, fun _ henabled => absurd henabled Bool.false_ne_true,
      fun _ _ _ _ _ _ _ => rfl⟩

/-- A context whose filters disable explicit layers. -/
def explicitDisabledContext : LayerContext :=
  ⟨fun _ => none, { EnvvarAllFilters.unset with disableFilter := ⟨[], false, false, true⟩ }, none⟩

/-- Where explicit layers are disabled, the pass with a settings file takes the one that the application asks for. -/
theorem not_sameRule : ¬ ∀ (ctx : LayerContext) (target : List LayerProperties) (enabledLayersEnv : Option String)
    (appEnabledNames : List String) (p : LayerProperties), p.layerName ∉ enabledLayersEnv.elim [] envTokens →
      SameRule ctx target enabledLayersEnv appEnabledNames p := by
  intro hall
  have h := (hall explicitDisabledContext [] none ["VK_LAYER_A"] (.explicitNamed "VK_LAYER_A") (by decide)).settings
    (by decide) (by decide)
  revert h
  unfold FollowsRule
  decide

end VulkanLoader
