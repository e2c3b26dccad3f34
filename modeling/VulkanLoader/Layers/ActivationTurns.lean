import VulkanLoader.Layers.Activate
import VulkanLoader.Lib.Rationing

/-!
# The turns of an activation

The loops of an activation take their turns one after another; each of them adds a layer or not, which depends on the
layers that are there before.  Seen so, an activation is one run over the turns of all its loops.

How the memory holds decides only whether the activation ends for want of memory: if it does not, it ends as if no
request could fail.
-/

namespace VulkanLoader

open Lib Relation

/-! ### The requests for memory -/

/-- The two lists that an activation fills. -/
inductive ActivationList where
  | target
  | expanded
  deriving DecidableEq

namespace LayerTargets

/-- How many layers a list has. -/
def count (t : LayerTargets) : ActivationList → ℕ
  | .target => t.target.length
  | .expanded => t.expanded.elim 0 List.length

/-- The places that the lists need. -/
def need (t : LayerTargets) : Set (ActivationList × ℕ) := {d | d.2 < t.count d.1}

theorem need_empty : LayerTargets.empty.need = ∅ := by
  ext ⟨list, k⟩
  cases list <;> simp [need, count, empty]

theorem need_addToTarget (t : LayerTargets) (p : LayerProperties) :
    need { t with target := t.target ++ [p] } = insert (.target, t.target.length) t.need := by
  ext ⟨list, k⟩
  cases list with
  | target =>
    simp only [need, count, List.length_append, List.length_singleton, Set.mem_ofPred_eq, Set.mem_insert_iff,
      Prod.mk.injEq, true_and]
    omega
  | expanded => simp [need, count]

theorem need_addToExpanded (target expanded : List LayerProperties) (p : LayerProperties) :
    need ⟨target, some (expanded ++ [p])⟩ = insert (.expanded, expanded.length) (need ⟨target, some expanded⟩) := by
  ext ⟨list, k⟩
  cases list with
  | target => simp [need, count]
  | expanded =>
    simp only [need, count, Option.elim, List.length_append, List.length_singleton, Set.mem_ofPred_eq,
      Set.mem_insert_iff, Prod.mk.injEq, true_and]
    omega

end LayerTargets

/-- The places that there is memory for. -/
def Activation.grants (a : Activation) : Set (ActivationList × ℕ) :=
  {d | match d.1 with
    | .target => a.targetGrows d.2 = true
    | .expanded => a.expandedGrows d.2 = true}

/-- A step of an activation gives up when there is no memory. -/
def outcomeOf {β : Type} (state : β → LayerTargets) : Outcome (VkResult × β) LayerTargets :=
  ⟨fun r => state r.2, fun r => r.1 = .errorOutOfHostMemory⟩

/-- What is done with the memory there is, and what would be done if no request failed. -/
abbrev Keeps {β : Type} (a : Activation) (state : β → LayerTargets) (t : LayerTargets)
    (x y : Option (VkResult × β)) : Prop :=
  KeepsTo LayerTargets.need a.grants (outcomeOf state) t x y

section Keeps

variable {a : Activation} {t : LayerTargets}

theorem granting_ctx : (Activation.granting a.ctx a.sourceList).ctx = a.ctx := rfl

theorem granting_sourceList : (Activation.granting a.ctx a.sourceList).sourceList = a.sourceList := rfl

theorem keeps_addToTarget (prop : LayerProperties) :
    Keeps a id t (some (a.addToTarget prop t))
      (some ((Activation.granting a.ctx a.sourceList).addToTarget prop t)) := by
  refine .of_request (d := (.target, t.target.length)) nofun ?_ (t.need_addToTarget prop) ?_ ?_
  · simp [LayerTargets.need, LayerTargets.count]
  · intro hgranted
    have hgrows : a.targetGrows t.target.length = true := hgranted
    simp [Activation.addToTarget, loaderAddLayerPropertiesToList, Activation.granting, hgrows]
  · intro hrefused
    have hgrows : ¬ a.targetGrows t.target.length = true := hrefused
    exact ⟨_, rfl, by simp [outcomeOf, Activation.addToTarget, loaderAddLayerPropertiesToList, hgrows]⟩

/-- The second half of adding a layer to both lists. -/
def Activation.addToExpanded (a : Activation) (prop : LayerProperties) (r : VkResult × LayerTargets) :
    VkResult × LayerTargets :=
  match r.2.expanded with
  | none => r
  | some expanded =>
    let q := loaderAddLayerPropertiesToList a.expandedGrows expanded prop
    (q.1, { r.2 with expanded := some q.2 })

theorem keeps_addToExpanded (prop : LayerProperties) {r : VkResult × LayerTargets} (hr : r.1 ≠ .errorOutOfHostMemory) :
    Keeps a id r.2 (some (a.addToExpanded prop r))
      (some ((Activation.granting a.ctx a.sourceList).addToExpanded prop r)) := by
  obtain ⟨result, target, _ | expanded⟩ := r
  · exact .of_some hr rfl
  · refine .of_request (d := (.expanded, expanded.length)) nofun ?_ (LayerTargets.need_addToExpanded ..) ?_ ?_
    · simp [LayerTargets.need, LayerTargets.count]
    · intro hgranted
      have hgrows : a.expandedGrows expanded.length = true := hgranted
      simp [Activation.addToExpanded, loaderAddLayerPropertiesToList, Activation.granting, hgrows]
    · intro hrefused
      have hgrows : ¬ a.expandedGrows expanded.length = true := hrefused
      exact ⟨_, rfl, by simp [outcomeOf, Activation.addToExpanded, loaderAddLayerPropertiesToList, hgrows]⟩

theorem some_addToBoth (prop : LayerProperties) : some (a.addToBoth prop t) =
    (some (a.addToTarget prop t)).bind fun r =>
      if r.1 = .errorOutOfHostMemory then some r else some (a.addToExpanded prop r) := by
  rw [Option.bind_some, ← apply_ite some]
  rfl

theorem keeps_addToBoth (prop : LayerProperties) :
    Keeps a id t (some (a.addToBoth prop t))
      (some ((Activation.granting a.ctx a.sourceList).addToBoth prop t)) := by
  rw [some_addToBoth, some_addToBoth]
  refine (keeps_addToTarget prop).bind (fun r hr => ?_) fun r hr => ⟨r, if_pos hr, hr⟩
  have hnot : r.1 ≠ .errorOutOfHostMemory := (keeps_addToTarget prop).never r hr
  rw [if_neg hnot, if_neg hnot]
  exact keeps_addToExpanded prop hnot

variable {f f' : LayerProperties → LayerTargets → Option MetaResult}

theorem keeps_loaderAddImplicitLayer (hf : ∀ p t, Keeps a Prod.snd t (f p t) (f' p t))
    (prop : LayerProperties) (t : LayerTargets) :
    Keeps a id t (loaderAddImplicitLayer a f prop t)
      (loaderAddImplicitLayer (.granting a.ctx a.sourceList) f' prop t) := by
  unfold loaderAddImplicitLayer
  rw [granting_ctx]
  split_ifs
  · exact .of_some nofun rfl
  · exact keeps_addToBoth prop
  · exact (hf prop t).map (fun _ => rfl) fun _ => Iff.rfl
  · exact .of_some nofun rfl

/-- What comes after a step, unless there was no memory. -/
theorem keeps_step {β γ : Type} {state : β → LayerTargets} {state' : γ → LayerTargets} {x y : Option (VkResult × β)}
    (exit : VkResult × β → γ) {next next' : VkResult × β → Option (VkResult × γ)} (h : Keeps a state t x y)
    (hnext : ∀ r, y = some r → Keeps a state' (state r.2) (next r) (next' r)) :
    Keeps a state' t (x.bind fun r => if r.1 = .errorOutOfHostMemory then some (r.1, exit r) else next r)
      (y.bind fun r => if r.1 = .errorOutOfHostMemory then some (r.1, exit r) else next' r) := by
  refine h.bind (fun r hr => ?_) fun r hr => ⟨(r.1, exit r), if_pos hr, hr⟩
  have hnot : r.1 ≠ .errorOutOfHostMemory := h.never r hr
  rw [if_neg hnot, if_neg hnot]
  exact hnext r hr

theorem keeps_addComponents (hf : ∀ p t, Keeps a Prod.snd t (f p t) (f' p t)) (names : List String) (found : Bool)
    (t : LayerTargets) :
    Keeps a Prod.snd t (addComponents a f names found t)
      (addComponents (.granting a.ctx a.sourceList) f' names found t) := by
  induction names generalizing found t with
  | nil => exact .of_some nofun rfl
  | cons name names ih =>
    unfold addComponents
    rw [granting_sourceList, granting_ctx]
    cases hfind : loaderFindLayerProperty name a.sourceList with
    | none => exact ih _ _
    | some searchProp =>
      dsimp only
      by_cases havail : (!loaderLayerIsAvailable a.ctx.filters searchProp) = true
      · rw [if_pos havail, if_pos havail]
        exact ih _ _
      rw [if_neg havail, if_neg havail]
      by_cases himplicit : (!searchProp.isExplicit) = true
      · rw [if_pos himplicit, if_pos himplicit]
        exact keeps_step _ (keeps_loaderAddImplicitLayer hf searchProp t) fun r _ => ih _ _
      rw [if_neg himplicit, if_neg himplicit]
      by_cases hmeta : searchProp.isMeta = true
      · rw [if_pos hmeta, if_pos hmeta]
        exact keeps_step _ (hf searchProp t) fun r _ => ih _ _
      rw [if_neg hmeta, if_neg hmeta]
      by_cases hfound : (!loaderFindLayerNameInList searchProp.layerName t.target) = true
      · rw [if_pos hfound, if_pos hfound]
        exact keeps_step (fun r => (found, r.2)) (keeps_addToBoth searchProp) fun r _ => ih found r.2
      · rw [if_neg hfound, if_neg hfound]
        exact ih _ _

theorem keeps_addMetaLayerItself (prop : LayerProperties) {r : VkResult × Bool × LayerTargets}
    (hr : r.1 ≠ .errorOutOfHostMemory) :
    Keeps a Prod.snd r.2.2 (some (addMetaLayerItself a prop r))
      (some (addMetaLayerItself (.granting a.ctx a.sourceList) prop r)) := by
  unfold addMetaLayerItself
  rw [if_neg hr, if_neg hr]
  cases r.2.1 with
  | false => exact .of_some hr rfl
  | true =>
    let answer (q : VkResult × LayerTargets) : MetaResult :=
      if q.1 = .errorOutOfHostMemory then (q.1, none, q.2) else (q.1, some true, q.2)
    refine (keeps_addToTarget prop).map (g := answer) (fun q => ?_) fun q => ?_
    · dsimp only [answer]
      split_ifs <;> rfl
    · dsimp only [answer]
      split_ifs <;> rfl

theorem keeps_loaderAddMetaLayer (fuel : ℕ) (prop : LayerProperties) (t : LayerTargets) :
    Keeps a Prod.snd t (loaderAddMetaLayer a fuel prop t)
      (loaderAddMetaLayer (.granting a.ctx a.sourceList) fuel prop t) := by
  induction fuel generalizing prop t with
  | zero => exact .of_none
  | succ fuel ih =>
    unfold loaderAddMetaLayer
    rw [Option.map_eq_bind, Option.map_eq_bind]
    refine (keeps_addComponents ih prop.componentLayerNames true t).bind (fun r hr => ?_) fun r hr => ?_
    · exact keeps_addMetaLayerItself prop ((keeps_addComponents ih prop.componentLayerNames true t).never r hr)
    · refine ⟨_, rfl, ?_⟩
      have hoom : r.1 = .errorOutOfHostMemory := hr
      rw [addMetaLayerItself, if_pos hoom]
      exact hr

/-- Adding a layer, with its components if it is a meta-layer. -/
theorem keeps_addLayer (fuel : ℕ) (prop : LayerProperties) (t : LayerTargets) :
    Keeps a id t (a.addLayer fuel prop t) ((Activation.granting a.ctx a.sourceList).addLayer fuel prop t) := by
  unfold Activation.addLayer
  split_ifs
  · exact keeps_addToBoth prop
  · exact (keeps_loaderAddMetaLayer fuel prop t).map (fun _ => rfl) fun _ => Iff.rfl

/-- A layer is added, or there is no memory. -/
theorem addLayer_result {fuel : ℕ} {prop : LayerProperties} {r : VkResult × LayerTargets}
    (h : a.addLayer fuel prop t = some r) : r.1 = .success ∨ r.1 = .errorOutOfHostMemory := by
  by_cases hoom : r.1 = .errorOutOfHostMemory
  · exact .inr hoom
  · have hgranting := (keeps_addLayer fuel prop t).agrees r h hoom
    unfold Activation.addLayer at hgranting
    split_ifs at hgranting
    · obtain rfl := Option.some.inj hgranting
      exact .inl (addToBoth_granting prop t)
    · obtain ⟨q, hq, rfl⟩ := Option.map_eq_some_iff.1 hgranting
      exact .inl (loaderAddMetaLayer_granting hq)

end Keeps

/-! ### The turns -/

/-- What a turn does: nothing, notice that there is no layer of the name, or add a layer. -/
inductive Turn where
  | skip
  | missing
  | add (prop : LayerProperties)

/-- A turn, given the layers in the first list. -/
abbrev TurnOf := List LayerProperties → Turn

/-- The turns are taken in order, up to one that has no memory. -/
def runTurns (a : Activation) (fuel : ℕ) : List TurnOf → VkResult → LayerTargets → Option (VkResult × LayerTargets)
  | [], res, t => some (res, t)
  | turn :: turns, res, t =>
    match turn t.target with
    | .skip => runTurns a fuel turns res t
    | .missing => runTurns a fuel turns .errorLayerNotPresent t
    | .add prop =>
      (a.addLayer fuel prop t).bind fun r =>
        if r.1 = .errorOutOfHostMemory then some r else runTurns a fuel turns r.1 r.2

/-- A turn of `loader_add_implicit_layers`. -/
def implicitTurn (a : Activation) (prop : LayerProperties) : TurnOf := fun target =>
  if !prop.isExplicit && !inEnabledLayersEnv a.enabledLayersEnv prop && loaderImplicitLayerIsEnabled a.ctx prop &&
    (prop.isMeta || !loaderFindLayerNameInList prop.layerName target) then .add prop
  else .skip

/-- A turn of `loader_add_environment_layers` for a name in `VK_INSTANCE_LAYERS`. -/
def envTokenTurn (a : Activation) (name : String) : TurnOf := fun target =>
  if name.isEmpty || loaderFindLayerNameInList name target then .skip
  else (loaderFindLayerProperty name a.sourceList).elim .skip .add

/-- A turn of `loader_add_environment_layers` for the filters. -/
def envScanTurn (a : Activation) (sourceProp : LayerProperties) : TurnOf := fun target =>
  if sourceProp.isExplicit && envScanAdds a.ctx.filters target sourceProp then .add sourceProp else .skip

/-- A turn of `loader_add_layer_names_to_list`. -/
def nameTurn (a : Activation) (name : String) : TurnOf := fun target =>
  match loaderFindLayerProperty name a.sourceList with
  | none => .missing
  | some layerProp =>
    if loaderFindLayerNameInList name target || !loaderLayerIsAvailable a.ctx.filters layerProp then .skip
    else .add layerProp

/-- A turn of `enable_correct_layers_from_settings`. -/
def settingsTurn (a : Activation) (appEnabledNames : List String) (props : LayerProperties) : TurnOf := fun _ =>
  if settingsEnableLayer a.ctx a.enabledLayersEnv appEnabledNames props then .add props else .skip

/-- The turns of the whole activation. -/
def Activation.turns (a : Activation) (settingsActive : Bool) (names : List String) : List TurnOf :=
  if settingsActive then a.sourceList.map (settingsTurn a names)
  else
    a.sourceList.map (implicitTurn a) ++
      ((a.enabledLayersEnv.elim [] envTokens).map (envTokenTurn a) ++ a.sourceList.map (envScanTurn a)) ++
      names.map (nameTurn a)

section Turns

variable {a : Activation} {fuel : ℕ} {turns : List TurnOf} {res : VkResult} {t : LayerTargets}

theorem runTurns_append (before after : List TurnOf) (hres : res ≠ .errorOutOfHostMemory) :
    runTurns a fuel (before ++ after) res t = (runTurns a fuel before res t).bind fun r =>
      if r.1 = .errorOutOfHostMemory then some r else runTurns a fuel after r.1 r.2 := by
  induction before generalizing res t with
  | nil => exact (if_neg hres).symm
  | cons turn before ih =>
    rw [List.cons_append, runTurns, runTurns]
    cases turn t.target with
    | skip => exact ih hres
    | missing => exact ih nofun
    | add prop =>
      dsimp only
      rw [Option.bind_assoc]
      congr 1
      funext r
      split_ifs with hoom
      · rw [Option.bind_some, if_pos hoom]
      · exact ih hoom

/-- The run ends with success or for want of memory, if no name is missed. -/
theorem runTurns_result (hturns : ∀ turn ∈ turns, ∀ target, turn target ≠ .missing) {r : VkResult × LayerTargets}
    (h : runTurns a fuel turns .success t = some r) : r.1 = .success ∨ r.1 = .errorOutOfHostMemory := by
  induction turns generalizing t with
  | nil =>
    obtain rfl := Option.some.inj h
    exact .inl rfl
  | cons turn turns ih =>
    have hrest := fun t => @ih t fun turn hturn => hturns turn (List.mem_cons_of_mem _ hturn)
    rw [runTurns] at h
    cases hturn : turn t.target with
    | skip =>
      rw [hturn] at h
      exact hrest t h
    | missing => exact absurd hturn (hturns turn List.mem_cons_self t.target)
    | add prop =>
      rw [hturn] at h
      obtain ⟨q, hq, h⟩ := Option.bind_eq_some_iff.1 h
      rcases addLayer_result hq with hresult | hresult
      · rw [hresult, if_neg nofun] at h
        exact hrest _ h
      · rw [if_pos hresult] at h
        obtain rfl := Option.some.inj h
        exact .inr hresult

/-- After a layer was added, a loop that goes on from success goes on. -/
theorem bind_addLayer {next next' : VkResult × LayerTargets → Option (VkResult × LayerTargets)}
    {prop : LayerProperties} (hoom : ∀ t, next (.errorOutOfHostMemory, t) = next' (.errorOutOfHostMemory, t))
    (hsuccess : ∀ t, next (.success, t) = next' (.success, t)) :
    (a.addLayer fuel prop t).bind next = (a.addLayer fuel prop t).bind next' := by
  rcases hadd : a.addLayer fuel prop t with _ | ⟨result, t'⟩
  · rfl
  · rw [Option.bind_some, Option.bind_some]
    rcases addLayer_result hadd with hresult | hresult
    · obtain rfl : result = .success := hresult
      exact hsuccess t'
    · obtain rfl : result = .errorOutOfHostMemory := hresult
      exact hoom t'

theorem loaderAddImplicitLayer_eq (prop : LayerProperties) (t : LayerTargets) :
    loaderAddImplicitLayer a (loaderAddMetaLayer a fuel) prop t =
      if loaderImplicitLayerIsEnabled a.ctx prop && (prop.isMeta || !loaderFindLayerNameInList prop.layerName t.target)
      then a.addLayer fuel prop t else some (.success, t) := by
  unfold loaderAddImplicitLayer Activation.addLayer
  rcases loaderImplicitLayerIsEnabled a.ctx prop with _ | _
  · rfl
  · rcases hmeta : prop.isMeta with _ | _
    · rcases loaderFindLayerNameInList prop.layerName t.target with _ | _ <;> rfl
    · rfl

/-- The loop of `loader_add_implicit_layers`. -/
theorem loaderAddImplicitLayers_eq_runTurns (props : List LayerProperties) (t : LayerTargets) :
    loaderAddImplicitLayers a fuel props t = runTurns a fuel (props.map (implicitTurn a)) .success t := by
  induction props generalizing t with
  | nil => rfl
  | cons prop props ih =>
    rw [loaderAddImplicitLayers, List.map_cons, runTurns, implicitTurn, loaderAddImplicitLayer_eq]
    rcases hroute : !prop.isExplicit && !inEnabledLayersEnv a.enabledLayersEnv prop with _ | _
    · exact ih t
    rw [if_pos rfl, Bool.true_and]
    rcases htaken : loaderImplicitLayerIsEnabled a.ctx prop &&
      (prop.isMeta || !loaderFindLayerNameInList prop.layerName t.target) with _ | _
    · exact ih t
    · refine bind_addLayer (fun t => rfl) fun t => ?_
      rw [if_neg nofun, if_neg nofun]
      exact ih t

/-- The search for the layer of a name in `VK_INSTANCE_LAYERS`. -/
theorem addNamedLayer_eq (name : String) (props : List LayerProperties) (res : VkResult) (t : LayerTargets) :
    addNamedLayer a fuel name props res t =
      if loaderFindLayerNameInList name t.target then some (res, t)
      else (loaderFindLayerProperty name props).elim (some (res, t)) fun prop => a.addLayer fuel prop t := by
  induction props with
  | nil => exact (ite_self _).symm
  | cons prop props ih =>
    rw [addNamedLayer, loaderFindLayerProperty, List.find?_cons]
    by_cases hname : name = prop.layerName
    · subst hname
      rw [beq_self_eq_true, Bool.true_and]
      rcases hfound : loaderFindLayerNameInList prop.layerName t.target with _ | _
      · rfl
      · rw [ih, hfound]
        rfl
    · rw [beq_eq_false_iff_ne.2 hname, Bool.false_and, if_neg Bool.false_ne_true, ih]
      rfl

/-- The loop of `loader_add_environment_layers` over the names in `VK_INSTANCE_LAYERS`. -/
theorem addEnvTokens_eq_runTurns (names : List String) (res : VkResult) (hres : res ≠ .errorOutOfHostMemory)
    (t : LayerTargets) : addEnvTokens a fuel names res t = runTurns a fuel (names.map (envTokenTurn a)) res t := by
  induction names generalizing res t with
  | nil => rfl
  | cons name names ih =>
    rw [addEnvTokens, List.map_cons, runTurns, envTokenTurn, addNamedLayer_eq]
    rcases name.isEmpty with _ | _
    · rw [if_neg Bool.false_ne_true, Bool.false_or]
      rcases loaderFindLayerNameInList name t.target with _ | _
      · rcases loaderFindLayerProperty name a.sourceList with _ | prop
        · exact (if_neg hres).trans (ih res hres t)
        · exact bind_addLayer (fun _ => rfl) fun t => ih .success nofun t
      · exact (if_neg hres).trans (ih res hres t)
    · exact ih res hres t

/-- The scan of `loader_add_environment_layers` with the filters. -/
theorem addEnvScan_eq_runTurns (props : List LayerProperties) (res : VkResult) (t : LayerTargets) :
    addEnvScan a fuel props res t = runTurns a fuel (props.map (envScanTurn a)) res t := by
  induction props generalizing res t with
  | nil => rfl
  | cons prop props ih =>
    rw [addEnvScan, List.map_cons, runTurns, envScanTurn]
    rcases prop.isExplicit && envScanAdds a.ctx.filters t.target prop with _ | _
    · exact ih res t
    · exact bind_addLayer (fun _ => rfl) fun t => ih .success t

/-- The loop of `loader_add_layer_names_to_list`. -/
theorem loaderAddLayerNamesToList_eq_runTurns (names : List String) (res : VkResult) (t : LayerTargets) :
    loaderAddLayerNamesToList a fuel names res t = runTurns a fuel (names.map (nameTurn a)) res t := by
  induction names generalizing res t with
  | nil => rfl
  | cons name names ih =>
    rw [List.map_cons, runTurns, nameTurn]
    rcases hfind : loaderFindLayerProperty name a.sourceList with _ | prop
    · rw [loaderAddLayerNamesToList, hfind]
      exact ih _ t
    dsimp only
    rcases hfound : loaderFindLayerNameInList name t.target with _ | _
    · rcases havail : loaderLayerIsAvailable a.ctx.filters prop with _ | _
      · rw [loaderAddLayerNamesToList, hfind]
        dsimp only
        rw [hfound, havail]
        exact ih res t
      · rw [loaderAddLayerNamesToList_cons hfind hfound havail]
        exact bind_addLayer (fun _ => rfl) fun t => ih .success t
    · rw [loaderAddLayerNamesToList, hfind]
      dsimp only
      rw [hfound]
      exact ih res t

/-- The loop of `enable_correct_layers_from_settings`. -/
theorem enableCorrectLayersFromSettings_eq_runTurns (names : List String) (props : List LayerProperties)
    (res : VkResult) (t : LayerTargets) : enableCorrectLayersFromSettings a fuel names props res t =
      runTurns a fuel (props.map (settingsTurn a names)) res t := by
  induction props generalizing res t with
  | nil => rfl
  | cons prop props ih =>
    rw [enableCorrectLayersFromSettings, List.map_cons, runTurns, settingsTurn]
    rcases settingsEnableLayer a.ctx a.enabledLayersEnv names prop with _ | _
    · exact ih res t
    · refine bind_addLayer (fun t => ?_) fun t => ?_
      · rw [if_pos (.inl rfl), if_pos rfl]
      · rw [if_neg (by simp), if_neg nofun]
        exact ih .success t

/-- `loader_add_environment_layers`. -/
theorem loaderAddEnvironmentLayers_eq_runTurns (t : LayerTargets) : loaderAddEnvironmentLayers a fuel t =
    runTurns a fuel ((a.enabledLayersEnv.elim [] envTokens).map (envTokenTurn a) ++
      a.sourceList.map (envScanTurn a)) .success t := by
  have hsuccess : VkResult.success ≠ .errorOutOfHostMemory := nofun
  rw [runTurns_append _ _ hsuccess, loaderAddEnvironmentLayers, addEnvTokens_eq_runTurns _ _ hsuccess]
  simp only [addEnvScan_eq_runTurns]

/-- Turns that miss no name, and what is gone on with from success only. -/
theorem runTurns_stage {before : List TurnOf} (hbefore : ∀ turn ∈ before, ∀ target, turn target ≠ .missing)
    (after : List TurnOf) : runTurns a fuel (before ++ after) .success t =
      (runTurns a fuel before .success t).bind fun r =>
        if r.1 ≠ .success then some r else runTurns a fuel after .success r.2 := by
  have hsuccess : VkResult.success ≠ .errorOutOfHostMemory := nofun
  rw [runTurns_append before after hsuccess]
  rcases hrun : runTurns a fuel before .success t with _ | ⟨result, t'⟩
  · rfl
  · rw [Option.bind_some, Option.bind_some]
    rcases runTurns_result hbefore hrun with hresult | hresult
    · obtain rfl : result = .success := hresult
      rfl
    · obtain rfl : result = .errorOutOfHostMemory := hresult
      rfl

theorem implicitTurns_ne_missing (props : List LayerProperties) :
    ∀ turn ∈ props.map (implicitTurn a), ∀ target, turn target ≠ .missing := by
  simp only [List.forall_mem_map]
  intro p _ target
  unfold implicitTurn
  split_ifs <;> nofun

theorem environmentTurns_ne_missing (names : List String) (props : List LayerProperties) :
    ∀ turn ∈ names.map (envTokenTurn a) ++ props.map (envScanTurn a), ∀ target, turn target ≠ .missing := by
  simp only [List.forall_mem_append, List.forall_mem_map]
  constructor
  · intro name _ target
    unfold envTokenTurn
    split_ifs
    · nofun
    · rcases loaderFindLayerProperty name a.sourceList with _ | _ <;> nofun
  · intro p _ target
    unfold envScanTurn
    split_ifs <;> nofun

/-- **The activation is one run over all turns.** -/
theorem loaderEnableInstanceLayers_eq_runTurns (a : Activation) (fuel : ℕ) (settingsActive : Bool)
    (names : List String) : loaderEnableInstanceLayers a fuel true settingsActive names =
      runTurns a fuel (a.turns settingsActive names) .success .empty := by
  unfold loaderEnableInstanceLayers Activation.turns
  cases settingsActive with
  | true => exact enableCorrectLayersFromSettings_eq_runTurns names _ _ _
  | false =>
    simp only [Bool.not_true, Bool.false_eq_true, if_false, List.append_assoc]
    rw [runTurns_stage (implicitTurns_ne_missing a.sourceList), loaderAddImplicitLayers_eq_runTurns]
    congr 1
    funext r
    congr 1
    rw [← List.append_assoc, runTurns_stage (environmentTurns_ne_missing _ a.sourceList),
      loaderAddEnvironmentLayers_eq_runTurns]
    simp only [loaderAddLayerNamesToList_eq_runTurns]

/-- **The run keeps to the one in which no request fails.** -/
theorem keeps_runTurns (turns : List TurnOf) {res : VkResult} (hres : res ≠ .errorOutOfHostMemory) (t : LayerTargets) :
    Keeps a id t (runTurns a fuel turns res t)
      (runTurns (.granting a.ctx a.sourceList) fuel turns res t) := by
  induction turns generalizing res t with
  | nil => exact .of_some hres rfl
  | cons turn turns ih =>
    rw [runTurns, runTurns]
    cases turn t.target with
    | skip => exact ih hres t
    | missing =>
      have hmissing : VkResult.errorLayerNotPresent ≠ .errorOutOfHostMemory := nofun
      exact ih hmissing t
    | add prop =>
      refine keeps_step (fun r => r.2) (keeps_addLayer fuel prop t) fun r hr => ih ?_ r.2
      exact (keeps_addLayer fuel prop t).never r hr

end Turns

/-! ### Where the run ends -/

section Ends

variable {a : Activation} {fuel fuel' : ℕ} {turns : List TurnOf} {res : VkResult} {t : LayerTargets}

theorem addLayer_mono (hle : fuel ≤ fuel') {prop : LayerProperties} {r : VkResult × LayerTargets}
    (h : a.addLayer fuel prop t = some r) : a.addLayer fuel' prop t = some r := by
  unfold Activation.addLayer at h ⊢
  split_ifs at h ⊢
  · exact h
  · obtain ⟨q, hq, rfl⟩ := Option.map_eq_some_iff.1 h
    rw [loaderAddMetaLayer_mono hle hq, Option.map_some]

theorem runTurns_mono (hle : fuel ≤ fuel') {r : VkResult × LayerTargets}
    (h : runTurns a fuel turns res t = some r) : runTurns a fuel' turns res t = some r := by
  induction turns generalizing res t with
  | nil => exact h
  | cons turn turns ih =>
    rw [runTurns] at h ⊢
    cases hturn : turn t.target with
    | skip =>
      rw [hturn] at h
      exact ih h
    | missing =>
      rw [hturn] at h
      exact ih h
    | add prop =>
      rw [hturn] at h
      obtain ⟨q, hq, h⟩ := Option.bind_eq_some_iff.1 h
      dsimp only
      rw [addLayer_mono hle hq, Option.bind_some]
      split_ifs at h ⊢
      · exact h
      · exact ih h

variable {ctx : LayerContext} {sourceList : List LayerProperties}

/-- Where no request fails, a run over the turns comes to one that expands the meta-layer. -/
def ComesTo (ctx : LayerContext) (sourceList : List LayerProperties) (turns : List TurnOf) (p : LayerProperties) :
    Prop :=
  ∃ before turn after fuel r, turns = before ++ turn :: after ∧
    runTurns (.granting ctx sourceList) fuel before .success .empty = some r ∧ turn r.2.target = .add p ∧
      p.isMeta = true

/-- Where no request fails, no run gives up. -/
theorem runTurns_granting (hres : res ≠ .errorOutOfHostMemory) {r : VkResult × LayerTargets}
    (h : runTurns (.granting ctx sourceList) fuel turns res t = some r) : r.1 ≠ .errorOutOfHostMemory :=
  (@keeps_runTurns (.granting ctx sourceList) fuel turns res hres t).never r h

/-- One turn ends, if the meta-layer that it expands is accessible. -/
theorem exists_runTurns_singleton {turn : TurnOf}
    (hacc : ∀ p, turn t.target = .add p → p.isMeta = true → Acc (fun q p => Follows ctx sourceList p q) p) :
    ∃ fuel, (runTurns (.granting ctx sourceList) fuel [turn] res t).isSome := by
  cases hturn : turn t.target with
  | skip => exact ⟨0, by rw [runTurns, hturn]; rfl⟩
  | missing => exact ⟨0, by rw [runTurns, hturn]; rfl⟩
  | add p =>
    have hadd : ∃ fuel, ((Activation.granting ctx sourceList).addLayer fuel p t).isSome := by
      unfold Activation.addLayer
      by_cases hmeta : p.isMeta = true
      · obtain ⟨fuel, hfuel⟩ := @exists_fuel_of_acc (.granting ctx sourceList) p (hacc p hturn hmeta)
        exact ⟨fuel, by rw [if_neg (by simp [hmeta]), Option.isSome_map]; exact hfuel t⟩
      · exact ⟨0, by rw [if_pos (by simpa using hmeta)]; rfl⟩
    obtain ⟨fuel, hfuel⟩ := hadd
    obtain ⟨r, hr⟩ := Option.isSome_iff_exists.1 hfuel
    refine ⟨fuel, ?_⟩
    rw [runTurns, hturn]
    dsimp only
    rw [hr, Option.bind_some]
    split_ifs <;> rfl

/-- **The run ends exactly if it comes to no meta-layer that leads to a cycle.** -/
theorem runTurns_isSome_iff (turns : List TurnOf) :
    (∃ fuel, (runTurns (.granting ctx sourceList) fuel turns .success .empty).isSome) ↔
      ∀ p, ComesTo ctx sourceList turns p → Acc (fun q p => Follows ctx sourceList p q) p := by
  have hsuccess : VkResult.success ≠ .errorOutOfHostMemory := nofun
  constructor
  · rintro ⟨fuel, hends⟩ p ⟨before, turn, after, fuel', r, rfl, hbefore, hturn, hmeta⟩
    by_contra hacc
    -- with fuel for both, the turn is come to, and does not end
    obtain ⟨q, hq⟩ := Option.isSome_iff_exists.1 hends
    have hq' := runTurns_mono (le_max_left fuel fuel') hq
    rw [runTurns_append _ _ hsuccess, runTurns_mono (le_max_right fuel fuel') hbefore, Option.bind_some,
      if_neg (runTurns_granting hsuccess hbefore), runTurns, hturn] at hq'
    dsimp only at hq'
    rw [Activation.addLayer, if_neg (by simp [hmeta]), loaderAddMetaLayer_eq_none hacc] at hq'
    cases hq'
  · intro hacc
    suffices hsuffix : ∀ after before fuel r, turns = before ++ after →
        runTurns (.granting ctx sourceList) fuel before .success .empty = some r →
        ∃ fuel', (runTurns (.granting ctx sourceList) fuel' turns .success .empty).isSome from
      hsuffix turns [] 0 _ rfl rfl
    intro after
    induction after with
    | nil =>
      rintro before fuel r rfl hbefore
      exact ⟨fuel, by rw [List.append_nil, hbefore]; rfl⟩
    | cons turn after ih =>
      rintro before fuel r rfl hbefore
      have hnot := runTurns_granting hsuccess hbefore
      obtain ⟨fuel', hone⟩ := @exists_runTurns_singleton r.1 r.2 ctx sourceList turn fun p hturn hmeta =>
        hacc p ⟨before, turn, after, fuel, r, rfl, hbefore, hturn, hmeta⟩
      obtain ⟨r', hr'⟩ := Option.isSome_iff_exists.1 hone
      refine ih (before ++ [turn]) (max fuel fuel') r' (by simp) ?_
      rw [runTurns_append _ _ hsuccess, runTurns_mono (le_max_left fuel fuel') hbefore, Option.bind_some, if_neg hnot]
      exact runTurns_mono (le_max_right fuel fuel') hr'

end Ends

/-! ### What every addition keeps -/

section Kept

variable {a : Activation} {fuel : ℕ} {P : LayerTargets → Prop}
  (htarget : ∀ prop t, P t → P (a.addToTarget prop t).2) (hboth : ∀ prop t, P t → P (a.addToBoth prop t).2)
include hboth

theorem loaderAddImplicitLayer_kept {f : LayerProperties → LayerTargets → Option MetaResult}
    (hf : ∀ p t r, P t → f p t = some r → P r.2.2) {prop : LayerProperties} {t : LayerTargets} (ht : P t)
    {r : VkResult × LayerTargets} (h : loaderAddImplicitLayer a f prop t = some r) : P r.2 := by
  unfold loaderAddImplicitLayer at h
  split_ifs at h
  · obtain rfl := Option.some.inj h
    exact ht
  · obtain rfl := Option.some.inj h
    exact hboth prop t ht
  · obtain ⟨q, hq, rfl⟩ := Option.map_eq_some_iff.1 h
    exact hf _ _ _ ht hq
  · obtain rfl := Option.some.inj h
    exact ht

theorem addComponents_kept {f : LayerProperties → LayerTargets → Option MetaResult}
    (hf : ∀ p t r, P t → f p t = some r → P r.2.2) {names : List String} {found : Bool} {t : LayerTargets} (ht : P t)
    {r : VkResult × Bool × LayerTargets} (h : addComponents a f names found t = some r) : P r.2.2 := by
  induction names generalizing found t with
  | nil =>
    obtain rfl := Option.some.inj h
    exact ht
  | cons name names ih =>
    unfold addComponents at h
    split at h
    · exact ih ht h
    · dsimp only at h
      split_ifs at h
      · exact ih ht h
      · obtain ⟨q, hq, h⟩ := Option.bind_eq_some_iff.1 h
        have hkept := loaderAddImplicitLayer_kept hboth hf ht hq
        split_ifs at h
        · obtain rfl := Option.some.inj h
          exact hkept
        · exact ih hkept h
      · obtain ⟨q, hq, h⟩ := Option.bind_eq_some_iff.1 h
        have hkept := hf _ _ _ ht hq
        split_ifs at h
        · obtain rfl := Option.some.inj h
          exact hkept
        · exact ih hkept h
      · obtain rfl := Option.some.inj h
        exact hboth _ t ht
      · exact ih (hboth _ t ht) h
      · exact ih ht h

include htarget

theorem loaderAddMetaLayer_kept {prop : LayerProperties} {t : LayerTargets} (ht : P t) {r : MetaResult}
    (h : loaderAddMetaLayer a fuel prop t = some r) : P r.2.2 := by
  induction fuel generalizing prop t r with
  | zero => cases h
  | succ fuel ih =>
    unfold loaderAddMetaLayer at h
    obtain ⟨q, hq, rfl⟩ := Option.map_eq_some_iff.1 h
    have hkept : P q.2.2 := addComponents_kept hboth (fun _ _ _ ht hr => ih ht hr) ht hq
    unfold addMetaLayerItself
    split_ifs
    · exact hkept
    · dsimp only
      split_ifs
      · exact htarget prop _ hkept
      · exact htarget prop _ hkept
    · exact hkept

/-- **What every addition keeps, a run keeps.** -/
theorem runTurns_kept {turns : List TurnOf} {res : VkResult} {t : LayerTargets} (ht : P t)
    {r : VkResult × LayerTargets} (h : runTurns a fuel turns res t = some r) : P r.2 := by
  induction turns generalizing res t with
  | nil =>
    obtain rfl := Option.some.inj h
    exact ht
  | cons turn turns ih =>
    rw [runTurns] at h
    split at h
    · exact ih ht h
    · exact ih ht h
    · rename_i prop _
      obtain ⟨q, hq, h⟩ := Option.bind_eq_some_iff.1 h
      have hkept : P q.2 := by
        unfold Activation.addLayer at hq
        split_ifs at hq
        · obtain rfl := Option.some.inj hq
          exact hboth prop t ht
        · obtain ⟨q', hq', rfl⟩ := Option.map_eq_some_iff.1 hq
          exact loaderAddMetaLayer_kept htarget hboth ht hq'
      split_ifs at h
      · obtain rfl := Option.some.inj h
        exact hkept
      · exact ih hkept h

end Kept

/-- The second list stays there. -/
theorem expanded_isSome_of_runTurns {a : Activation} {fuel : ℕ} {turns : List TurnOf} {res : VkResult}
    {t : LayerTargets} (ht : t.expanded.isSome) {r : VkResult × LayerTargets}
    (h : runTurns a fuel turns res t = some r) : r.2.expanded.isSome := by
  refine @runTurns_kept a fuel (fun t => t.expanded.isSome) (fun _ _ ht => ht) (fun prop t ht => ?_) _ _ _ ht _ h
  obtain ⟨target, _ | expanded⟩ := t
  · cases ht
  · unfold Activation.addToBoth Activation.addToTarget
    dsimp only
    split_ifs <;> rfl

end VulkanLoader
