import VulkanLoader.Instance.StringValidation
import VulkanLoader.Layers.ActivationTurns
import VulkanLoader.Layers.Termination
import VulkanLoader.Lib.Outstanding
import VulkanLoader.Manifests.Fields

/-!
# The validation of instance extensions

`loader_validate_instance_extensions` is asked before the layers are activated.  It activates the layers of the request
on two lists of its own, and looks for each extension among those of the drivers and of the layers on the second list.
Later `loader_enable_instance_layers` activates the layers of the same request on the lists of the instance.
-/

namespace VulkanLoader

open Lib Relation

/-! ### The request -/

/-- What the validation is asked about.  `settingsActive` tells that the settings file configures layers.  The array of
the extension names may be `NULL`, and each name may. -/
structure InstanceRequest where
  ctx : LayerContext
  instanceLayers : List LayerProperties
  settingsActive : Bool
  icdExts : ExtensionList
  ppEnabledLayerNames : List String
  enabledExtensionCount : ℕ
  ppEnabledExtensionNames : Option (Fin enabledExtensionCount → Option (ℕ → UInt8))

/-- Whether the requests for memory succeed: those for the two lists, and those for another entry. -/
structure ValidationMemory where
  activeInit : Bool
  expandedInit : Bool
  activeGrows : ℕ → Bool
  expandedGrows : ℕ → Bool

/-- No request fails. -/
def ValidationMemory.granting : ValidationMemory := ⟨true, true, fun _ => true, fun _ => true⟩

namespace InstanceRequest

/-- The names of the extensions. -/
def extensionNames (q : InstanceRequest) : List (Option (ℕ → UInt8)) := q.ppEnabledExtensionNames.elim [] List.ofFn

/-- The activation on the lists of the validation. -/
def activation (q : InstanceRequest) (m : ValidationMemory) : Activation :=
  ⟨q.ctx, q.instanceLayers, m.activeGrows, m.expandedGrows⟩

end InstanceRequest

/-! ### The temporary lists -/

/-- `active_layers` and `expanded_layers`, `none` where the pointer is `NULL`, and what was allocated and freed for
them. -/
structure TemporaryLists where
  list : ActivationList → Option (List LayerProperties)
  log : List (HandleEvent ActivationList)

namespace TemporaryLists

/-- The lists as they are declared. -/
def zero : TemporaryLists := ⟨fun _ => none, []⟩

/-- `loader_init_pointer_layer_list`. -/
def loaderInitPointerLayerList (l : TemporaryLists) (which : ActivationList) (granted : Bool) : Bool × TemporaryLists :=
  if granted then (true, ⟨Function.update l.list which (some []), l.log ++ [.made which]⟩)
  else (false, { l with list := Function.update l.list which none })

/-- `loader_destroy_pointer_layer_list`; `free` does nothing with `NULL`. -/
def loaderDestroyPointerLayerList (l : TemporaryLists) (which : ActivationList) : TemporaryLists :=
  ⟨Function.update l.list which none, if (l.list which).isSome then l.log ++ [.givenBack which] else l.log⟩

/-- The lists, as the functions that activate layers see them. -/
def targets (l : TemporaryLists) : LayerTargets := ⟨(l.list .target).getD [], l.list .expanded⟩

/-- What an activation leaves in the lists; a list that grows stays one allocation, wherever it is moved. -/
def store (l : TemporaryLists) (t : LayerTargets) : TemporaryLists where
  list
    | .target => some t.target
    | .expanded => t.expanded
  log := l.log

end TemporaryLists

/-! ### The validation -/

/-- `LOADER_INSTANCE_EXTENSIONS`. -/
def loaderInstanceExtensions : List String :=
  ["VK_KHR_surface", "VK_KHR_display", "VK_KHR_get_surface_capabilities2", "VK_KHR_get_display_properties2",
    "VK_EXT_direct_mode_display", "VK_EXT_display_surface_counter", "VK_EXT_swapchain_colorspace", "VK_EXT_debug_utils",
    "VK_EXT_validation_features", "VK_EXT_headless_surface", "VK_EXT_application_parameters", "VK_EXT_layer_settings"]

/-- `strcmp` finds the string at the pointer equal to a string without `NUL`. -/
def strcmpEqual (utf8 : Option (ℕ → UInt8)) (str : String) : Bool :=
  utf8.any fun utf8 => (List.range (str.length + 1)).all fun k => utf8 k == cString str k

/-- `get_extension_property`, for the name at the pointer. -/
def getExtensionPropertyAt (name : Option (ℕ → UInt8)) (list : ExtensionList) : Option VkExtensionProperties :=
  list.list.find? fun e => strcmpEqual name e.extensionName

namespace InstanceRequest

/-- `VK_LOADER_DISABLE_INST_EXT_FILTER` is set to a number other than zero; `atoi` is an `int`. -/
def disablesFilter (q : InstanceRequest) : Bool :=
  (q.ctx.getenv "VK_LOADER_DISABLE_INST_EXT_FILTER").any fun envValue => atoi envValue.toList % 2 ^ 32 != 0

/-- The calls that activate the layers. -/
def activateLayers (q : InstanceRequest) (m : ValidationMemory) (fuel : ℕ) (t : LayerTargets) :
    Option (VkResult × LayerTargets) :=
  let a := q.activation m
  if q.settingsActive then
    enableCorrectLayersFromSettings a fuel q.ppEnabledLayerNames q.instanceLayers .success t
  else
    (loaderAddImplicitLayers a fuel q.instanceLayers t).bind fun r =>
      if r.1 ≠ .success then some r
      else
        (loaderAddEnvironmentLayers a fuel r.2).bind fun r =>
          if r.1 ≠ .success then some r
          else loaderAddLayerNamesToList a fuel q.ppEnabledLayerNames .success r.2

/-- The loop over the extension names; `checkIfKnown` is a local of the function. -/
def validateNames (q : InstanceRequest) (expandedLayers : List LayerProperties) :
    Bool → List (Option (ℕ → UInt8)) → VkResult
  | _, [] => .success
  | checkIfKnown, name :: names =>
    if (vkStringValidate maxLoaderStringLength name).1 ≠ .none then .errorExtensionNotPresent
    else
      let checkIfKnown := if q.disablesFilter then false else checkIfKnown
      if checkIfKnown && !loaderInstanceExtensions.any (strcmpEqual name) then .errorExtensionNotPresent
      else if (getExtensionPropertyAt name q.icdExts).isSome then q.validateNames expandedLayers checkIfKnown names
      else if expandedLayers.any fun layer => (getExtensionPropertyAt name layer.instanceExtensionList).isSome then
        q.validateNames expandedLayers checkIfKnown names
      else .errorExtensionNotPresent

/-- `loader_validate_instance_extensions` up to its label `out`. -/
def validateUpToOut (q : InstanceRequest) (m : ValidationMemory) (fuel : ℕ) : Option (VkResult × TemporaryLists) :=
  let (initialised, l) := TemporaryLists.zero.loaderInitPointerLayerList .target m.activeInit
  if !initialised then some (.errorOutOfHostMemory, l)
  else
    let (initialised, l) := l.loaderInitPointerLayerList .expanded m.expandedInit
    if !initialised then some (.errorOutOfHostMemory, l)
    else
      (q.activateLayers m fuel l.targets).map fun r =>
        let l := l.store r.2
        if r.1 ≠ .success then (r.1, l)
        else (q.validateNames ((l.list .expanded).getD []) true q.extensionNames, l)

/-- `loader_validate_instance_extensions`. -/
def loaderValidateInstanceExtensions (q : InstanceRequest) (m : ValidationMemory) (fuel : ℕ) :
    Option (VkResult × TemporaryLists) :=
  if q.enabledExtensionCount > 0 && q.ppEnabledExtensionNames.isNone then
    some (.errorExtensionNotPresent, .zero)
  else
    (q.validateUpToOut m fuel).map fun r =>
      (r.1, (r.2.loaderDestroyPointerLayerList .target).loaderDestroyPointerLayerList .expanded)

end InstanceRequest

/-! ### What it is for -/

/-- The bytes at the pointer are those of the string, and the `NUL` after them. -/
def Spells (utf8 : ℕ → UInt8) (str : String) : Prop := ∀ k ≤ str.length, utf8 k = cString str k

/-- One of the extensions in the list has the name. -/
def OffersExtension (list : ExtensionList) (utf8 : ℕ → UInt8) : Prop := ∃ e ∈ list.list, Spells utf8 e.extensionName

namespace InstanceRequest

/-- The count promises names that are not there. -/
def NamesMissing (q : InstanceRequest) : Prop := 0 < q.enabledExtensionCount ∧ q.ppEnabledExtensionNames = none

/-- The activation that `loader_enable_instance_layers` makes of the same request: this is how it ends if no request for
memory fails, and how it ends in any case, unless it ends for want of memory. -/
structure Activates (q : InstanceRequest) (result : VkResult) (t : LayerTargets) : Prop where
  granted : ∃ fuel, loaderEnableInstanceLayers (.granting q.ctx q.instanceLayers) fuel true q.settingsActive
    q.ppEnabledLayerNames = some (result, t)
  always : ∀ targetGrows expandedGrows fuel listsInit r,
    loaderEnableInstanceLayers ⟨q.ctx, q.instanceLayers, targetGrows, expandedGrows⟩ fuel listsInit q.settingsActive
      q.ppEnabledLayerNames = some r → r.1 ≠ .errorOutOfHostMemory → r = (result, t)

/-- **A supported extension**: its name is well-formed and not too long, the loader knows it unless it is told not to
ask, and a driver, the loader or one of the activated layers offers it. -/
structure Supports (q : InstanceRequest) (t : LayerTargets) (name : Option (ℕ → UInt8)) : Prop where
  valid : ∃ utf8, name = some utf8 ∧
    ∃ n ≤ maxLoaderStringLength, utf8 n = 0 ∧ IsText ((List.range n).map utf8)
  known : q.disablesFilter = true ∨ ∃ utf8, name = some utf8 ∧ ∃ known ∈ loaderInstanceExtensions, Spells utf8 known
  offered : ∃ utf8, name = some utf8 ∧
    (OffersExtension q.icdExts utf8 ∨ ∃ layer ∈ t.expanded.getD [], OffersExtension layer.instanceExtensionList utf8)

/-- There is memory for the two lists and for all that the activation adds to them. -/
structure Suffices (q : InstanceRequest) (m : ValidationMemory) (t : LayerTargets) : Prop where
  active : m.activeInit = true
  expanded : m.expandedInit = true
  activeGrows : ∀ k < t.count .target, m.activeGrows k = true
  expandedGrows : ∀ k < t.count .expanded, m.expandedGrows k = true

/-- **What is to be accepted.** -/
structure Accepts (q : InstanceRequest) (m : ValidationMemory) : Prop where
  names : ¬ q.NamesMissing
  layers : ∃ t, q.Activates .success t ∧ q.Suffices m t ∧ ∀ name ∈ q.extensionNames, q.Supports t name

/-- The errors, each with what is wrong. -/
inductive Rejects (q : InstanceRequest) (m : ValidationMemory) : VkResult → Prop where
  | namesMissing (hnames : q.NamesMissing) : Rejects q m .errorExtensionNotPresent
  | lists (hnames : ¬ q.NamesMissing) (hlists : ¬ (m.activeInit = true ∧ m.expandedInit = true)) :
    Rejects q m .errorOutOfHostMemory
  | memory {result : VkResult} {t : LayerTargets} (hnames : ¬ q.NamesMissing) (hlayers : q.Activates result t)
    (hmemory : ¬ q.Suffices m t) : Rejects q m .errorOutOfHostMemory
  | activation {result : VkResult} {t : LayerTargets} (hnames : ¬ q.NamesMissing) (hlayers : q.Activates result t)
    (hmemory : q.Suffices m t) (hresult : result ≠ .success) : Rejects q m result
  | extension {t : LayerTargets} {name : Option (ℕ → UInt8)} (hnames : ¬ q.NamesMissing)
    (hlayers : q.Activates .success t) (hmemory : q.Suffices m t) (hname : name ∈ q.extensionNames)
    (hnot : ¬ q.Supports t name) : Rejects q m .errorExtensionNotPresent

/-- The list is allocated. -/
def Allocates (q : InstanceRequest) (m : ValidationMemory) : ActivationList → Prop
  | .target => ¬ q.NamesMissing ∧ m.activeInit = true
  | .expanded => ¬ q.NamesMissing ∧ m.activeInit = true ∧ m.expandedInit = true

/-- **Both lists are freed exactly once**, if they were allocated, and nothing else is. -/
structure FreesOnce (q : InstanceRequest) (m : ValidationMemory) (l : TemporaryLists) : Prop where
  settled : Settled l.log
  once : ∀ which, q.Allocates m which → l.log.count (.givenBack which) = 1
  never : ∀ which, ¬ q.Allocates m which → l.log.count (.givenBack which) = 0

/-- **A right answer**: the validation returns, with success exactly for what is to be accepted and otherwise with an
error that says what is wrong, and frees its lists. -/
def Validates (q : InstanceRequest) (m : ValidationMemory) : Prop :=
  ∃ fuel result l, (∀ fuel' ≥ fuel, q.loaderValidateInstanceExtensions m fuel' = some (result, l)) ∧
    (result = .success ↔ q.Accepts m) ∧ (result ≠ .success → q.Rejects m result) ∧ q.FreesOnce m l

/-- The turns of the activation. -/
def turns (q : InstanceRequest) : List TurnOf :=
  (Activation.granting q.ctx q.instanceLayers).turns q.settingsActive q.ppEnabledLayerNames

/-- The activation expands no meta-layer that leads to one that leads back to itself. -/
def NoCycle (q : InstanceRequest) : Prop :=
  ∀ p, ComesTo q.ctx q.instanceLayers q.turns p →
    ∀ r, ReflTransGen (Follows q.ctx q.instanceLayers) p r → ¬ TransGen (Follows q.ctx q.instanceLayers) r r

end InstanceRequest

/-! ### The names -/

section Names

variable {name : Option (ℕ → UInt8)} {utf8 : ℕ → UInt8} {str : String}

theorem strcmpEqual_iff : strcmpEqual (some utf8) str = true ↔ Spells utf8 str := by
  simp only [strcmpEqual, Option.any_some, List.all_eq_true, List.mem_range, Nat.lt_succ_iff, beq_iff_eq, Spells]

theorem getExtensionPropertyAt_iff {list : ExtensionList} :
    (getExtensionPropertyAt (some utf8) list).isSome = true ↔ OffersExtension list utf8 := by
  simp only [getExtensionPropertyAt, List.find?_isSome, strcmpEqual_iff, OffersExtension]

theorem vkStringValidate_name_iff : (vkStringValidate maxLoaderStringLength name).1 = .none ↔
    ∃ utf8, name = some utf8 ∧ ∃ n ≤ maxLoaderStringLength, utf8 n = 0 ∧ IsText ((List.range n).map utf8) := by
  cases name with
  | none => exact iff_of_false nofun nofun
  | some utf8 => simp only [vkStringValidate_eq_none_iff, Option.some.injEq, exists_eq_left']

end Names

/-! ### The loop over the names -/

namespace InstanceRequest

variable {q : InstanceRequest} {m : ValidationMemory} {t : LayerTargets} {fuel : ℕ}

/-- What the loop asks about a name. -/
theorem supports_iff (name : Option (ℕ → UInt8)) : q.Supports t name ↔
    (vkStringValidate maxLoaderStringLength name).1 = .none ∧
      (q.disablesFilter = true ∨ loaderInstanceExtensions.any (strcmpEqual name) = true) ∧
      ((getExtensionPropertyAt name q.icdExts).isSome = true ∨ (t.expanded.getD []).any
        (fun layer => (getExtensionPropertyAt name layer.instanceExtensionList).isSome) = true) := by
  cases name with
  | none => exact iff_of_false (fun h => nomatch h.valid) fun h => nomatch h.1
  | some utf8 =>
    simp only [vkStringValidate_name_iff, List.any_eq_true, strcmpEqual_iff, getExtensionPropertyAt_iff]
    constructor
    · rintro ⟨hvalid, hknown, hoffered⟩
      exact ⟨hvalid, by simpa using hknown, by simpa using hoffered⟩
    · rintro ⟨hvalid, hknown, hoffered⟩
      exact ⟨hvalid, by simpa using hknown, by simpa using hoffered⟩

/-- **The loop accepts the supported extensions**, and has one error for the others. -/
theorem validateNames_result (checkIfKnown : Bool) (hcheck : checkIfKnown = true ∨ q.disablesFilter = true)
    (names : List (Option (ℕ → UInt8))) :
    (q.validateNames (t.expanded.getD []) checkIfKnown names = .success ∧ ∀ name ∈ names, q.Supports t name) ∨
      (q.validateNames (t.expanded.getD []) checkIfKnown names = .errorExtensionNotPresent ∧
        ∃ name ∈ names, ¬ q.Supports t name) := by
  induction names generalizing checkIfKnown with
  | nil => exact .inl ⟨rfl, nofun⟩
  | cons name names ih =>
    rw [validateNames, List.forall_mem_cons, List.exists_mem_cons_iff, supports_iff]
    by_cases hvalid : (vkStringValidate maxLoaderStringLength name).1 = .none
    swap
    · rw [if_pos hvalid]
      exact .inr ⟨rfl, .inl fun h => hvalid h.1⟩
    rw [if_neg (not_not_intro hvalid)]
    have hnext : (if q.disablesFilter = true then false else checkIfKnown) = !q.disablesFilter := by
      rcases hcheck with rfl | hdisables
      · cases q.disablesFilter <;> rfl
      · rw [hdisables]
        rfl
    rw [hnext]
    dsimp only
    by_cases hunknown : (!q.disablesFilter && !loaderInstanceExtensions.any (strcmpEqual name)) = true
    · rw [if_pos hunknown]
      refine .inr ⟨rfl, .inl fun h => ?_⟩
      rcases h.2.1 with h | h <;> simp [h] at hunknown
    rw [if_neg hunknown]
    have hknown : q.disablesFilter = true ∨ loaderInstanceExtensions.any (strcmpEqual name) = true := by
      rw [Bool.and_eq_true, Bool.not_eq_true', Bool.not_eq_true', not_and_or, Bool.not_eq_false, Bool.not_eq_false]
        at hunknown
      exact hunknown
    have hrest := ih (!q.disablesFilter) (by cases q.disablesFilter <;> simp)
    by_cases hicd : (getExtensionPropertyAt name q.icdExts).isSome = true
    · rw [if_pos hicd]
      exact hrest.imp (fun h => ⟨h.1, ⟨hvalid, hknown, .inl hicd⟩, h.2⟩) fun h => ⟨h.1, .inr h.2⟩
    rw [if_neg hicd]
    by_cases hlayer : ((t.expanded.getD []).any fun layer =>
        (getExtensionPropertyAt name layer.instanceExtensionList).isSome) = true
    · rw [if_pos hlayer]
      exact hrest.imp (fun h => ⟨h.1, ⟨hvalid, hknown, .inr hlayer⟩, h.2⟩) fun h => ⟨h.1, .inr h.2⟩
    · rw [if_neg hlayer]
      exact .inr ⟨rfl, .inl fun h => h.2.2.elim hicd hlayer⟩

/-! ### The two activations -/

/-- The calls of the validation, as a run over the turns. -/
theorem activateLayers_eq_runTurns (m : ValidationMemory) (fuel : ℕ) :
    q.activateLayers m fuel .empty = runTurns (q.activation m) fuel q.turns .success .empty :=
  loaderEnableInstanceLayers_eq_runTurns (q.activation m) fuel q.settingsActive q.ppEnabledLayerNames

/-- The run in which no request fails. -/
def grantedRun (q : InstanceRequest) (fuel : ℕ) : Option (VkResult × LayerTargets) :=
  runTurns (.granting q.ctx q.instanceLayers) fuel q.turns .success .empty

theorem grantedRun_unique {fuel fuel' : ℕ} {r r' : VkResult × LayerTargets} (h : q.grantedRun fuel = some r)
    (h' : q.grantedRun fuel' = some r') : r = r' :=
  Option.some.inj ((runTurns_mono (le_max_left fuel fuel') h).symm.trans (runTurns_mono (le_max_right fuel fuel') h'))

/-- **The validation and the activation agree**: both keep to the run in which no request fails. -/
theorem activates_of_grantedRun {result : VkResult} (h : q.grantedRun fuel = some (result, t)) :
    q.Activates result t where
  granted := ⟨fuel, (loaderEnableInstanceLayers_eq_runTurns _ _ _ _).trans h⟩
  always := by
    intro targetGrows expandedGrows fuel' listsInit r hr hnot
    cases listsInit with
    | false =>
      obtain rfl := Option.some.inj hr
      exact absurd rfl hnot
    | true =>
      rw [loaderEnableInstanceLayers_eq_runTurns] at hr
      have hsuccess : VkResult.success ≠ .errorOutOfHostMemory := nofun
      have hkeeps := @keeps_runTurns ⟨q.ctx, q.instanceLayers, targetGrows, expandedGrows⟩ fuel' q.turns .success
        hsuccess .empty
      exact grantedRun_unique (hkeeps.agrees r hr hnot) h

theorem Activates.unique {result result' : VkResult} {t t' : LayerTargets} (h : q.Activates result t)
    (h' : q.grantedRun fuel = some (result', t')) : result = result' ∧ t = t' := by
  obtain ⟨fuel', hrun⟩ := h.granted
  have heq := grantedRun_unique ((loaderEnableInstanceLayers_eq_runTurns _ _ _ _).symm.trans hrun) h'
  exact ⟨congrArg Prod.fst heq, congrArg Prod.snd heq⟩

theorem suffices_iff (hactive : m.activeInit = true) (hexpanded : m.expandedInit = true) :
    q.Suffices m t ↔ Granted LayerTargets.need (q.activation m).grants .empty t := by
  unfold Granted
  rw [LayerTargets.need_empty, Set.sdiff_empty]
  constructor
  · rintro h ⟨_ | _, k⟩ hk
    · exact h.activeGrows k hk
    · exact h.expandedGrows k hk
  · intro h
    exact ⟨hactive, hexpanded, fun k hk => @h (.target, k) hk, fun k hk => @h (.expanded, k) hk⟩

/-- The activation comes to its end exactly if it expands no meta-layer that leads to a cycle. -/
theorem grantedRun_isSome_iff : (∃ fuel, (q.grantedRun fuel).isSome) ↔ q.NoCycle := by
  refine (runTurns_isSome_iff q.turns).trans (forall_congr' fun p => imp_congr_right fun _ => ?_)
  refine acc_iff_no_cycle_after q.instanceLayers ?_ p
  rintro a b ⟨name, -, hfind, -⟩
  exact (mem_of_loaderFindLayerProperty hfind).1

/-! ### The ends of the validation -/

/-- Without names there is nothing to activate or to free. -/
theorem validates_of_namesMissing (hnames : q.NamesMissing) (m : ValidationMemory) : q.Validates m := by
  refine ⟨0, .errorExtensionNotPresent, .zero, fun fuel _ => ?_, ?_, fun _ => .namesMissing hnames, rfl, ?_, ?_⟩
  · exact if_pos (by simpa [NamesMissing] using hnames)
  · exact iff_of_false nofun fun h => h.names hnames
  · rintro (_ | _) h
    · exact absurd hnames h.1
    · exact absurd hnames h.1
  · exact fun _ _ => rfl

/-- What is done at `out`. -/
def atOut (l : TemporaryLists) : TemporaryLists :=
  (l.loaderDestroyPointerLayerList .target).loaderDestroyPointerLayerList .expanded

theorem validate_eq (hnames : ¬ q.NamesMissing) (fuel : ℕ) : q.loaderValidateInstanceExtensions m fuel =
    (q.validateUpToOut m fuel).map fun r => (r.1, atOut r.2) := by
  refine if_neg fun h => hnames ?_
  simpa [NamesMissing] using h

/-- The validation comes to `out`. -/
theorem validates_of_end (hnames : ¬ q.NamesMissing) {result : VkResult} {l : TemporaryLists}
    (hend : ∃ fuel, ∀ fuel' ≥ fuel, q.validateUpToOut m fuel' = some (result, l))
    (haccepts : result = .success ↔ q.Accepts m) (hrejects : result ≠ .success → q.Rejects m result)
    (hfrees : q.FreesOnce m (atOut l)) : q.Validates m := by
  obtain ⟨fuel, hfuel⟩ := hend
  refine ⟨fuel, result, atOut l, fun fuel' hle => ?_, haccepts, hrejects, hfrees⟩
  rw [validate_eq hnames, hfuel fuel' hle, Option.map_some]

/-- Without memory for the first list. -/
theorem validates_of_not_activeInit (hnames : ¬ q.NamesMissing) (hactive : m.activeInit = false) : q.Validates m := by
  have hnot : ¬ m.activeInit = true := by simp [hactive]
  have hfrees : q.FreesOnce m (atOut (TemporaryLists.zero.loaderInitPointerLayerList .target false).2) := by
    refine ⟨rfl, ?_, fun _ _ => rfl⟩
    rintro (_ | _) h
    · exact absurd h.2 hnot
    · exact absurd h.2.1 hnot
  refine validates_of_end hnames ⟨0, fun fuel _ => ?_⟩ ?_ (fun _ => .lists hnames fun h => hnot h.1) hfrees
  · rw [validateUpToOut, hactive]
    rfl
  · exact iff_of_false nofun fun ⟨_, _, _, hmemory, _⟩ => hnot hmemory.active

/-- Without memory for the second list. -/
theorem validates_of_not_expandedInit (hnames : ¬ q.NamesMissing) (hactive : m.activeInit = true)
    (hexpanded : m.expandedInit = false) : q.Validates m := by
  have hnot : ¬ m.expandedInit = true := by simp [hexpanded]
  have hfrees : q.FreesOnce m (atOut ((TemporaryLists.zero.loaderInitPointerLayerList .target
      true).2.loaderInitPointerLayerList .expanded false).2) := by
    refine ⟨rfl, ?_, ?_⟩
    · rintro (_ | _) h
      · rfl
      · exact absurd h.2.2 hnot
    · rintro (_ | _) h
      · exact absurd ⟨hnames, hactive⟩ h
      · rfl
  refine validates_of_end hnames ⟨0, fun fuel _ => ?_⟩ ?_ (fun _ => .lists hnames fun h => hnot h.2) hfrees
  · rw [validateUpToOut, hactive, hexpanded]
    rfl
  · exact iff_of_false nofun fun ⟨_, _, _, hmemory, _⟩ => hnot hmemory.expanded

/-- With memory for both lists. -/
theorem validateUpToOut_eq (hactive : m.activeInit = true) (hexpanded : m.expandedInit = true) (fuel : ℕ) :
    q.validateUpToOut m fuel = (runTurns (q.activation m) fuel q.turns .success .empty).map fun r =>
      (if r.1 ≠ .success then r.1 else q.validateNames (r.2.expanded.getD []) true q.extensionNames,
        TemporaryLists.store ⟨fun _ => some [], [.made .target, .made .expanded]⟩ r.2) := by
  rw [validateUpToOut, hactive, hexpanded, ← activateLayers_eq_runTurns]
  change (q.activateLayers m fuel .empty).map _ = _
  congr 1
  funext r
  dsimp only
  split_ifs <;> rfl

/-- The lists of an activation that began are freed. -/
theorem freesOnce_atOut (hnames : ¬ q.NamesMissing) (hactive : m.activeInit = true) (hexpanded : m.expandedInit = true)
    {t : LayerTargets} (ht : t.expanded.isSome) :
    q.FreesOnce m (atOut (TemporaryLists.store ⟨fun _ => some [], [.made .target, .made .expanded]⟩ t)) := by
  obtain ⟨target, _ | expanded⟩ := t
  · cases ht
  refine ⟨rfl, ?_, ?_⟩
  · rintro (_ | _) _
    · rfl
    · rfl
  · rintro (_ | _) h
    · exact absurd ⟨hnames, hactive⟩ h
    · exact absurd ⟨hnames, hactive, hexpanded⟩ h

/-- With memory for both lists, where the activation comes to its end. -/
theorem validates_of_grantedRun (hnames : ¬ q.NamesMissing) (hactive : m.activeInit = true)
    (hexpanded : m.expandedInit = true) {result : VkResult} (hrun : q.grantedRun fuel = some (result, t)) :
    q.Validates m := by
  have hsuccess : VkResult.success ≠ .errorOutOfHostMemory := nofun
  have hactivates := activates_of_grantedRun hrun
  have hkeeps := @keeps_runTurns (q.activation m) fuel q.turns .success hsuccess .empty
  by_cases hmemory : q.Suffices m t
  · -- the validation has the layers of the activation
    have hsame := hkeeps.same _ hrun ((suffices_iff hactive hexpanded).1 hmemory)
    have hfrees := freesOnce_atOut hnames hactive hexpanded (expanded_isSome_of_runTurns rfl hsame)
    have hend : ∀ fuel' ≥ fuel, q.validateUpToOut m fuel' = _ := fun fuel' hle => by
      rw [validateUpToOut_eq hactive hexpanded, runTurns_mono hle hsame, Option.map_some]
    by_cases hresult : result = .success
    · subst hresult
      have hunique : ∀ t', q.Activates .success t' → t' = t := fun t' h => (h.unique hrun).2
      rcases @validateNames_result q t true (.inl rfl) q.extensionNames with ⟨hloop, hall⟩ | ⟨hloop, name, hname, hnot⟩
      · refine validates_of_end hnames ⟨fuel, hend⟩ ?_ ?_ hfrees
        · exact iff_of_true hloop ⟨hnames, t, hactivates, hmemory, hall⟩
        · exact fun h => absurd hloop h
      · refine validates_of_end hnames ⟨fuel, hend⟩ ?_ ?_ hfrees
        · refine iff_of_false (fun h => nomatch hloop.symm.trans h) ?_
          rintro ⟨-, t', hactivates', -, hall⟩
          obtain rfl := hunique t' hactivates'
          exact hnot (hall name hname)
        · rintro -
          have hrejects : q.Rejects m .errorExtensionNotPresent := .extension hnames hactivates hmemory hname hnot
          exact hloop ▸ hrejects
    · refine validates_of_end hnames ⟨fuel, hend⟩ ?_ ?_ hfrees
      · rw [if_pos hresult]
        refine iff_of_false hresult ?_
        rintro ⟨-, t', hactivates', -, -⟩
        exact hresult (hactivates'.unique hrun).1.symm
      · rw [if_pos hresult]
        exact fun _ => .activation hnames hactivates hmemory hresult
  · obtain ⟨⟨_, t'⟩, hrefused, rfl⟩ := hkeeps.refused _ hrun fun h =>
      hmemory ((suffices_iff hactive hexpanded).2 h)
    have hfrees := freesOnce_atOut hnames hactive hexpanded (expanded_isSome_of_runTurns rfl hrefused)
    have hend : ∀ fuel' ≥ fuel, q.validateUpToOut m fuel' = _ := fun fuel' hle => by
      rw [validateUpToOut_eq hactive hexpanded, runTurns_mono hle hrefused, Option.map_some]
    refine validates_of_end hnames ⟨fuel, hend⟩ ?_ ?_ hfrees
    · refine iff_of_false nofun ?_
      rintro ⟨-, t'', hactivates'', hmemory'', -⟩
      obtain rfl := (hactivates''.unique hrun).2
      exact hmemory hmemory''
    · exact fun _ => .memory hnames hactivates hmemory

/-- A validation that returns comes to no cycle. -/
theorem noCycle_of_validates (hnames : ¬ q.NamesMissing) (h : q.Validates .granting) : q.NoCycle := by
  obtain ⟨fuel, result, l, hends, -⟩ := h
  have hend := hends fuel le_rfl
  rw [validate_eq hnames, validateUpToOut_eq rfl rfl, Option.map_map] at hend
  obtain ⟨r, hr, -⟩ := Option.map_eq_some_iff.1 hend
  exact grantedRun_isSome_iff.1 ⟨fuel, Option.isSome_iff_exists.2 ⟨r, hr⟩⟩

/-- Where the expansion of the whole list ends, no request comes to a cycle. -/
theorem noCycle_of_expansionTerminates (hends : ExpansionTerminates q.ctx q.instanceLayers) : q.NoCycle :=
  fun _ _ r _ => (expansionTerminates_iff_no_cycle _ _).1 hends r

/-- **The validation answers rightly however the memory holds, exactly if** the names are missing, so that it does not
look at the layers, or the activation expands no meta-layer that leads to a cycle. -/
theorem validates_iff (q : InstanceRequest) : (∀ m, q.Validates m) ↔ q.NamesMissing ∨ q.NoCycle := by
  constructor
  · intro hall
    by_cases hnames : q.NamesMissing
    · exact .inl hnames
    · exact .inr (noCycle_of_validates hnames (hall .granting))
  · rintro (hnames | hcycle) m
    · exact validates_of_namesMissing hnames m
    by_cases hnames : q.NamesMissing
    · exact validates_of_namesMissing hnames m
    cases hactive : m.activeInit with
    | false => exact validates_of_not_activeInit hnames hactive
    | true =>
      cases hexpanded : m.expandedInit with
      | false => exact validates_of_not_expandedInit hnames hactive hexpanded
      | true =>
        obtain ⟨fuel, hfuel⟩ := grantedRun_isSome_iff.2 hcycle
        obtain ⟨⟨result, t⟩, hrun⟩ := Option.isSome_iff_exists.1 hfuel
        exact validates_of_grantedRun hnames hactive hexpanded hrun

end InstanceRequest

/-! ### A meta-layer of the settings file -/

/-- The meta-layer that the settings file turns on, as the scan reads it. -/
def selfComponentLayer : LayerProperties :=
  { LayerProperties.metaNamed "VK_LAYER_A" ["VK_LAYER_A"] with settingsControlValue := .on }

/-- A request without names, after a scan with a settings file. -/
def selfComponentRequest : InstanceRequest where
  ctx := selfComponentScan.activationContext
  instanceLayers := (loaderScanForLayers selfComponentScan).layers
  settingsActive := true
  icdExts := ⟨[], 0⟩
  ppEnabledLayerNames := []
  enabledExtensionCount := 0
  ppEnabledExtensionNames := none

/-- The settings file turns a meta-layer on that names itself, and the validation does not return. -/
theorem not_validates : ¬ ∀ (q : InstanceRequest) (m : ValidationMemory), q.Validates m := by
  intro hall
  have hnames : ¬ selfComponentRequest.NamesMissing := fun h => absurd h.1 (Nat.lt_irrefl 0)
  have hcycle := InstanceRequest.noCycle_of_validates hnames (hall selfComponentRequest .granting)
  have hcomes : ComesTo selfComponentRequest.ctx selfComponentRequest.instanceLayers selfComponentRequest.turns
      selfComponentLayer := ⟨[], _, [], 0, _, rfl, rfl, rfl, rfl⟩
  refine hcycle selfComponentLayer hcomes selfComponentLayer .refl (.single ?_)
  exact ⟨"VK_LAYER_A", List.mem_singleton_self _, rfl, by decide⟩

end VulkanLoader
