import VulkanLoader.Layers.Expansion
import VulkanLoader.Lib.Lists

/-!
# The order of activation without a settings file

The three stages append to the lists one after the other, so what the implicit layers bring precedes what the
environment adds, and that precedes what the application adds.  An implicit layer misses its stage if its name occurs in
`VK_INSTANCE_LAYERS`, as one of the names there or as a part of one.
-/

namespace VulkanLoader

open Lib

section Sources

variable (a : Activation) (names : List String)

/-- The names in `VK_INSTANCE_LAYERS`. -/
def Activation.envNames : List String := a.enabledLayersEnv.elim [] envTokens

/-- An implicit layer that is enabled brings the layer. -/
def ByImplicit : LayerProperties → Prop :=
  ByLayers a fun p => p.isExplicit = false ∧ loaderImplicitLayerIsEnabled a.ctx p = true

/-- An implicit layer brings the layer whose name does not occur in `VK_INSTANCE_LAYERS`. -/
def ByImplicitStage : LayerProperties → Prop :=
  ByLayers a fun p => p.isExplicit = false ∧ inEnabledLayersEnv a.enabledLayersEnv p = false ∧
    loaderImplicitLayerIsEnabled a.ctx p = true

/-- `VK_INSTANCE_LAYERS` names the layer. -/
def EnvNames (p : LayerProperties) : Prop := p.layerName.isEmpty = false ∧ p.layerName ∈ a.envNames

/-- The enable filter takes the layer, which is an explicit one. -/
def EnvEnables (p : LayerProperties) : Prop :=
  p.isExplicit = true ∧ checkNameMatchesFilterEnvironmentVar p.layerName a.ctx.filters.enableFilter = true

/-- `VK_INSTANCE_LAYERS` or the enable filter names a layer that brings the layer. -/
def ByEnvironment : LayerProperties → Prop := ByLayers a fun p => EnvNames a p ∨ EnvEnables a p

/-- The application asks for a layer that is available and brings the layer. -/
def ByApplication : LayerProperties → Prop :=
  ByLayers a fun p => p.layerName ∈ names ∧ loaderLayerIsAvailable a.ctx.filters p = true

/-- An implicit layer that is enabled and is not a meta-layer. -/
def EnabledImplicit (p : LayerProperties) : Prop :=
  p ∈ a.sourceList ∧ p.isExplicit = false ∧ p.isMeta = false ∧ loaderImplicitLayerIsEnabled a.ctx p = true

/-- An implicit layer whose name occurs in `VK_INSTANCE_LAYERS`, but is not one of the names there. -/
def Dropped (p : LayerProperties) : Prop :=
  EnabledImplicit a p ∧ inEnabledLayersEnv a.enabledLayersEnv p = true ∧ ¬ EnvNames a p

/-- **The order of activation**: the layers have distinct names, the implicit layers that are enabled are there, and
come before those that no implicit layer brings, unless `VK_INSTANCE_LAYERS` names them; and what the environment adds
comes before what only the application adds. -/
structure ActivatedInOrder (expanded : List LayerProperties) : Prop where
  names : (expanded.map LayerProperties.layerName).Nodup
  implicit : ∀ p, EnabledImplicit a p → p ∈ expanded
  implicitFirst : ∀ p, EnabledImplicit a p → ¬ EnvNames a p → ∀ q ∈ expanded, ¬ ByImplicit a q →
    Precedes expanded p q
  environmentNext : ∀ p ∈ expanded, ByEnvironment a p → ∀ q ∈ expanded, ¬ ByImplicit a q → ¬ ByEnvironment a q →
    Precedes expanded p q

end Sources

/-! ### The stages -/

section Stages

variable {a : Activation} {fuel : ℕ} {t : LayerTargets} {r : VkResult × LayerTargets} {P : LayerProperties → Prop}
  {props : List LayerProperties} {p q : LayerProperties}

theorem loaderAddImplicitLayers_stage (hprops : ∀ p ∈ props, p ∈ a.sourceList) (he : t.expanded.isSome)
    (h : loaderAddImplicitLayers a fuel props t = some r) (hok : r.1 ≠ .errorOutOfHostMemory) :
    Stage a (fun p => p.isExplicit = false ∧ inEnabledLayersEnv a.enabledLayersEnv p = false ∧
      loaderImplicitLayerIsEnabled a.ctx p = true) props t r.2 := by
  induction props generalizing t with
  | nil =>
    obtain rfl := Option.some.inj h
    exact .nil he
  | cons p props ih =>
    have hmem := hprops p List.mem_cons_self
    have hprops' : ∀ p ∈ props, p ∈ a.sourceList := fun p hp => hprops p (List.mem_cons_of_mem _ hp)
    unfold loaderAddImplicitLayers at h
    split_ifs at h with hturn
    · obtain ⟨s, hs, hoom, h⟩ := Lib.next_of_bind_unless h hok
      rw [Bool.and_eq_true, Bool.not_eq_true', Bool.not_eq_true'] at hturn
      by_cases henabled : loaderImplicitLayerIsEnabled a.ctx p = true
      · have hadded := loaderAddImplicitLayer_added (loaderAddMetaLayer_expandsAll a fuel) hmem he henabled hs hoom
        exact .cons_added hmem ⟨hturn.1, hturn.2, henabled⟩ hadded (ih hprops' hadded.guarded.expanded_isSome h)
      · rw [loaderAddImplicitLayer_of_not_enabled henabled] at hs
        obtain rfl := Option.some.inj hs
        exact .cons_skip (fun hW => absurd hW.2.2 henabled) (ih hprops' he h)
    · refine .cons_skip (fun hW => ?_) (ih hprops' he h)
      simp [hW.1, hW.2.1] at hturn

/-- The search for the layer of a name adds it, unless the list has it. -/
theorem addNamedLayer_stage (hnd : (a.sourceList.map LayerProperties.layerName).Nodup) {name : String}
    {res : VkResult} (hprops : ∀ p ∈ props, p ∈ a.sourceList) (hg : Guarded a.ctx a.sourceList P .empty t)
    (h : addNamedLayer a fuel name props res t = some r) (hok : r.1 ≠ .errorOutOfHostMemory) :
    Stage a (fun p => p.layerName = name) props t r.2 := by
  induction props with
  | nil =>
    obtain rfl := Option.some.inj h
    exact .nil hg.expanded_isSome
  | cons p props ih =>
    have hmem := hprops p List.mem_cons_self
    have hprops' : ∀ p ∈ props, p ∈ a.sourceList := fun p hp => hprops p (List.mem_cons_of_mem _ hp)
    unfold addNamedLayer at h
    split_ifs at h with hturn
    · rw [Bool.and_eq_true, Bool.not_eq_true', beq_iff_eq] at hturn
      obtain ⟨rfl, hnot⟩ := hturn
      have hadded := addLayer_added hmem hg.expanded_isSome hnot h hok
      -- the search stops, and no other layer has the name
      exact .of_added hmem rfl (fun p' hp' hname => List.inj_on_of_nodup_map hnd (hprops p' hp') hmem hname) hadded
    · refine .cons_skip (fun hname => brought_of_find hnd hg hmem ?_) (ih hprops' h)
      simpa [hname] using hturn

theorem addEnvTokens_stage (hnd : (a.sourceList.map LayerProperties.layerName).Nodup) {names : List String}
    {res : VkResult} (hg : Guarded a.ctx a.sourceList P .empty t)
    (h : addEnvTokens a fuel names res t = some r) (hok : r.1 ≠ .errorOutOfHostMemory) :
    Stage a (fun p => p.layerName.isEmpty = false ∧ p.layerName ∈ names) a.sourceList t r.2 := by
  induction names generalizing res t P with
  | nil =>
    obtain rfl := Option.some.inj h
    exact .refl hg.expanded_isSome fun p _ hp => absurd hp.2 List.not_mem_nil
  | cons name names ih =>
    unfold addEnvTokens at h
    by_cases hempty : name.isEmpty = true
    · rw [if_pos hempty] at h
      have hrest := ih hg h
      have hiff : ∀ p : LayerProperties, (p.layerName.isEmpty = false ∧ p.layerName ∈ names) ↔
          (p.layerName.isEmpty = false ∧ p.layerName ∈ name :: names) := by
        intro p
        refine and_congr_right fun hp => ?_
        rw [List.mem_cons, or_iff_right fun heq => ?_]
        rw [heq, hempty] at hp
        cases hp
      simpa only [hiff] using hrest
    · rw [if_neg hempty] at h
      obtain ⟨s, hs, hoom, h⟩ := Lib.next_of_bind_unless h hok
      have hhead := addNamedLayer_stage hnd (fun _ hp => hp) hg hs hoom
      have hg' : Guarded a.ctx a.sourceList (fun _ => True) .empty s.2 :=
        (hg.mono fun _ _ => trivial).trans (hhead.guarded.mono fun _ _ => trivial)
      refine hhead.trans (ih hg' h) fun p => ?_
      rw [List.mem_cons]
      constructor
      · rintro ⟨hp, rfl | hmem⟩
        · exact Or.inl rfl
        · exact Or.inr ⟨hp, hmem⟩
      · rintro (rfl | ⟨hp, hmem⟩)
        · exact ⟨by simpa using hempty, Or.inl rfl⟩
        · exact ⟨hp, Or.inr hmem⟩

theorem addEnvScan_stage (hnd : (a.sourceList.map LayerProperties.layerName).Nodup) {res : VkResult}
    (hprops : ∀ p ∈ props, p ∈ a.sourceList) (hg : Guarded a.ctx a.sourceList P .empty t)
    (h : addEnvScan a fuel props res t = some r) (hok : r.1 ≠ .errorOutOfHostMemory) :
    Stage a (EnvEnables a) props t r.2 := by
  induction props generalizing res t P with
  | nil =>
    obtain rfl := Option.some.inj h
    exact .nil hg.expanded_isSome
  | cons p props ih =>
    have hmem := hprops p List.mem_cons_self
    have hprops' : ∀ p ∈ props, p ∈ a.sourceList := fun p hp => hprops p (List.mem_cons_of_mem _ hp)
    unfold addEnvScan at h
    split_ifs at h with hturn
    · obtain ⟨s, hs, hoom, h⟩ := Lib.next_of_bind_unless h hok
      simp only [envScanAdds, Bool.and_eq_true, Bool.not_eq_true'] at hturn
      obtain ⟨hexplicit, henable, hnot⟩ := hturn
      have hadded := addLayer_added hmem hg.expanded_isSome hnot hs hoom
      have hg' : Guarded a.ctx a.sourceList (fun _ => True) .empty s.2 :=
        (hg.mono fun _ _ => trivial).trans (hadded.guarded.mono fun _ _ => trivial)
      exact .cons_added hmem ⟨hexplicit, henable⟩ hadded (ih hprops' hg' h)
    · -- a layer that the filter takes is left out only if the list has it
      refine .cons_skip (fun hW => brought_of_find hnd hg hmem ?_) (ih hprops' hg h)
      simpa [envScanAdds, hW.1, hW.2] using hturn

theorem loaderAddEnvironmentLayers_stage (hnd : (a.sourceList.map LayerProperties.layerName).Nodup)
    (hg : Guarded a.ctx a.sourceList P .empty t) (h : loaderAddEnvironmentLayers a fuel t = some r)
    (hok : r.1 ≠ .errorOutOfHostMemory) :
    Stage a (fun p => EnvNames a p ∨ EnvEnables a p) a.sourceList t r.2 := by
  obtain ⟨s, hs, hoom, h⟩ := Lib.next_of_bind_unless h hok
  have htokens := addEnvTokens_stage hnd hg hs hoom
  have hg' : Guarded a.ctx a.sourceList (fun _ => True) .empty s.2 :=
    (hg.mono fun _ _ => trivial).trans (htokens.guarded.mono fun _ _ => trivial)
  exact htokens.trans (addEnvScan_stage hnd (fun _ hp => hp) hg' h hok) fun p => Iff.rfl

theorem loaderAddLayerNamesToList_stage (hnd : (a.sourceList.map LayerProperties.layerName).Nodup)
    {names : List String} {err : VkResult} (hg : Guarded a.ctx a.sourceList P .empty t)
    (h : loaderAddLayerNamesToList a fuel names err t = some r) (hok : r.1 ≠ .errorOutOfHostMemory) :
    Stage a (fun p => p.layerName ∈ names ∧ loaderLayerIsAvailable a.ctx.filters p = true) a.sourceList t r.2 := by
  induction names generalizing err t P with
  | nil =>
    obtain rfl := Option.some.inj h
    exact .refl hg.expanded_isSome fun p _ hp => absurd hp.1 List.not_mem_nil
  | cons name names ih =>
    -- what the name adds, and then what the other names add
    have hstep : ∀ err' t₁, Stage a (fun p => p.layerName = name ∧ loaderLayerIsAvailable a.ctx.filters p = true)
        a.sourceList t t₁ → loaderAddLayerNamesToList a fuel names err' t₁ = some r →
        Stage a (fun p => p.layerName ∈ name :: names ∧ loaderLayerIsAvailable a.ctx.filters p = true) a.sourceList t
          r.2 := by
      intro err' t₁ hhead hrest
      have hg' : Guarded a.ctx a.sourceList (fun _ => True) .empty t₁ :=
        (hg.mono fun _ _ => trivial).trans (hhead.guarded.mono fun _ _ => trivial)
      refine hhead.trans (ih hg' hrest) fun p => ?_
      rw [List.mem_cons, or_and_right]
    rcases hfind : loaderFindLayerProperty name a.sourceList with _ | p
    · rw [loaderAddLayerNamesToList, hfind] at h
      refine hstep _ t (.refl hg.expanded_isSome fun p hp hW => ?_) h
      have hne := List.find?_eq_none.1 hfind p hp
      simp [hW.1] at hne
    obtain ⟨hmem, rfl⟩ := mem_of_loaderFindLayerProperty hfind
    have hone : ∀ p' ∈ a.sourceList, p'.layerName = p.layerName → p' = p := fun p' hp' hname =>
      List.inj_on_of_nodup_map hnd hp' hmem hname
    by_cases hfound : loaderFindLayerNameInList p.layerName t.target = true
    · rw [loaderAddLayerNamesToList, hfind] at h
      dsimp only at h
      rw [if_pos hfound] at h
      refine hstep _ t (.refl hg.expanded_isSome fun p' hp' hW => ?_) h
      obtain rfl := hone p' hp' hW.1
      exact brought_of_find hnd hg hmem hfound
    have hnot := Bool.eq_false_iff.2 hfound
    by_cases havail : loaderLayerIsAvailable a.ctx.filters p = true
    · rw [loaderAddLayerNamesToList_cons hfind hnot havail] at h
      obtain ⟨s, hs, hoom, h⟩ := Lib.next_of_bind_unless h hok
      have hadded := addLayer_added hmem hg.expanded_isSome hnot hs hoom
      exact hstep _ _ (.of_added hmem ⟨rfl, havail⟩ (fun p' hp' hW => hone p' hp' hW.1) hadded) h
    · rw [loaderAddLayerNamesToList, hfind] at h
      dsimp only at h
      rw [if_neg hfound, if_pos (by simpa using havail)] at h
      refine hstep _ t (.refl hg.expanded_isSome fun p' hp' hW => ?_) h
      obtain rfl := hone p' hp' hW.1
      exact absurd hW.2 havail

end Stages

/-! ### The three stages together -/

/-- The list in three parts: what the implicit layers bring, what the environment adds, what the application adds. -/
structure InStages (a : Activation) (names : List String) (first second third : List LayerProperties) : Prop where
  nodup : ((first ++ second ++ third).map LayerProperties.layerName).Nodup
  mem_first : ∀ q, q ∈ first ↔ ByImplicitStage a q
  mem_second : ∀ q, q ∈ first ++ second ↔ q ∈ first ∨ ByEnvironment a q
  mem_third : ∀ q, q ∈ first ++ second ++ third ↔ q ∈ first ++ second ∨ ByApplication a names q

section Together

variable {a : Activation} {names : List String}

/-- A success fills the list in three stages. -/
theorem inStages_of_success (hnd : (a.sourceList.map LayerProperties.layerName).Nodup) {fuel : ℕ} {listsInit : Bool}
    {t : LayerTargets} (h : loaderEnableInstanceLayers a fuel listsInit false names = some (.success, t)) :
    ∃ first second third, t.expanded = some (first ++ second ++ third) ∧ InStages a names first second third := by
  unfold loaderEnableInstanceLayers at h
  rcases listsInit with _ | _
  · cases h
  rw [if_neg (by decide), if_neg (by decide)] at h
  obtain ⟨r₁, h₁, h⟩ := Option.bind_eq_some_iff.1 h
  by_cases hok₁ : r₁.1 = .success
  swap
  · rw [if_pos hok₁] at h
    obtain rfl := Option.some.inj h
    exact absurd rfl hok₁
  rw [if_neg (not_not_intro hok₁)] at h
  obtain ⟨r₂, h₂, h⟩ := Option.bind_eq_some_iff.1 h
  by_cases hok₂ : r₂.1 = .success
  swap
  · rw [if_pos hok₂] at h
    obtain rfl := Option.some.inj h
    exact absurd rfl hok₂
  rw [if_neg (not_not_intro hok₂)] at h
  have hempty : Guarded a.ctx a.sourceList (fun _ => True) .empty .empty := .refl rfl
  have hstage₁ := loaderAddImplicitLayers_stage (fun _ hp => hp) (t := .empty) rfl h₁ (by rw [hok₁]; decide)
  have hg₁ : Guarded a.ctx a.sourceList (fun _ => True) .empty r₁.2 := hstage₁.guarded.mono fun _ _ => trivial
  have hstage₂ := loaderAddEnvironmentLayers_stage hnd hg₁ h₂ (by rw [hok₂]; decide)
  have hg₂ : Guarded a.ctx a.sourceList (fun _ => True) .empty r₂.2 :=
    hg₁.trans (hstage₂.guarded.mono fun _ _ => trivial)
  have hstage₃ := loaderAddLayerNamesToList_stage hnd hg₂ h nofun
  obtain ⟨first, he₁, hmem₁⟩ := hstage₁.mem_expanded hnd hempty rfl
  rw [List.nil_append] at he₁ hmem₁
  obtain ⟨second, he₂, hmem₂⟩ := hstage₂.mem_expanded hnd hg₁ he₁
  obtain ⟨third, he₃, hmem₃⟩ := hstage₃.mem_expanded hnd hg₂ he₂
  refine ⟨first, second, third, he₃, ⟨?_, fun q => ?_, hmem₂, hmem₃⟩⟩
  · exact (hg₂.trans (hstage₃.guarded.mono fun _ _ => trivial)).nodup_expanded he₃
  · rw [hmem₁ q, or_iff_right List.not_mem_nil]
    rfl

theorem byImplicit_of_byImplicitStage {q : LayerProperties} (h : ByImplicitStage a q) : ByImplicit a q := by
  obtain ⟨p, hmem, hW, hcomes⟩ := h
  exact ⟨p, hmem, ⟨hW.1, hW.2.2⟩, hcomes⟩

/-- An implicit layer that is enabled is in the first part, or its name occurs in `VK_INSTANCE_LAYERS`. -/
theorem EnabledImplicit.byImplicitStage {p : LayerProperties} (h : EnabledImplicit a p)
    (henv : inEnabledLayersEnv a.enabledLayersEnv p = false) : ByImplicitStage a p :=
  ⟨p, h.1, ⟨h.2.1, henv, h.2.2.2⟩, Or.inl ⟨h.2.2.1, rfl⟩⟩

variable {first second third : List LayerProperties}

/-- The order holds if the first stage brings each implicit layer that is left to the environment without being named
there. -/
theorem InStages.activatedInOrder (h : InStages a names first second third)
    (hdropped : ∀ p, Dropped a p → ByImplicitStage a p) : ActivatedInOrder a (first ++ second ++ third) := by
  have hfirst : ∀ p, EnabledImplicit a p → ¬ EnvNames a p → p ∈ first := by
    intro p hp hnot
    rw [h.mem_first]
    by_cases henv : inEnabledLayersEnv a.enabledLayersEnv p = true
    · exact hdropped p ⟨hp, henv, hnot⟩
    · exact hp.byImplicitStage (by simpa using henv)
  refine ⟨h.nodup, fun p hp => ?_, fun p hp hnot q hq hnotq => ?_, fun p hp hbyenv q hq hnotq hnotenv => ?_⟩
  · by_cases hnames : EnvNames a p
    · have hby : ByEnvironment a p := ⟨p, hp.1, Or.inl hnames, Or.inl ⟨hp.2.2.1, rfl⟩⟩
      exact List.mem_append_left _ ((h.mem_second p).2 (Or.inr hby))
    · exact List.mem_append_left _ (List.mem_append_left _ (hfirst p hp hnames))
  · have hq' : q ∉ first := fun hq' => hnotq (byImplicit_of_byImplicitStage ((h.mem_first q).1 hq'))
    rw [List.append_assoc] at hq ⊢
    exact precedes_append (hfirst p hp hnot) ((List.mem_append.1 hq).resolve_left hq')
  · have hq' : q ∉ first ++ second := fun hq' => by
      rcases (h.mem_second q).1 hq' with hq' | hq'
      · exact hnotq (byImplicit_of_byImplicitStage ((h.mem_first q).1 hq'))
      · exact hnotenv hq'
    exact precedes_append ((h.mem_second p).2 (Or.inr hbyenv)) ((List.mem_append.1 hq).resolve_left hq')

/-- Where the order holds, each implicit layer that is left to the environment comes in one of the stages, and in the
last one only if the environment adds nothing else. -/
theorem InStages.brought_of_activatedInOrder (h : InStages a names first second third)
    (horder : ActivatedInOrder a (first ++ second ++ third)) {p : LayerProperties} (hp : Dropped a p) :
    ByImplicitStage a p ∨ ByEnvironment a p ∨
      (ByApplication a names p ∧ ∀ q, ByEnvironment a q → ByImplicit a q) := by
  by_cases hsecond : p ∈ first ++ second
  · rcases (h.mem_second p).1 hsecond with hp' | hp'
    · exact Or.inl ((h.mem_first p).1 hp')
    · exact Or.inr (Or.inl hp')
  · have hmem := horder.implicit p hp.1
    refine Or.inr (Or.inr ⟨((h.mem_third p).1 hmem).resolve_left hsecond, fun q hq => ?_⟩)
    by_contra hnot
    have hq' : q ∈ first ++ second := (h.mem_second q).2 (Or.inr hq)
    -- the layer of the environment is before it
    have hbefore : Precedes (first ++ second ++ third) q p :=
      precedes_append hq' ((List.mem_append.1 hmem).resolve_left hsecond)
    have hafter := horder.implicitFirst p hp.1 hp.2.2 q (List.mem_append_left _ hq') hnot
    exact hbefore.not_symm (List.Nodup.of_map _ h.nodup) hafter

end Together

/-- **The order of activation**: the activation ends, and when it succeeds, the order holds if the first stage brings
each implicit layer whose name occurs in `VK_INSTANCE_LAYERS` without being one of the names there. -/
theorem activatedInOrder_of_dropped (a : Activation) (names : List String)
    (hnd : (a.sourceList.map LayerProperties.layerName).Nodup) (hends : ExpansionTerminates a.ctx a.sourceList) :
    (∃ fuel, ∀ listsInit, (loaderEnableInstanceLayers a fuel listsInit false names).isSome) ∧
      ∀ fuel listsInit t, loaderEnableInstanceLayers a fuel listsInit false names = some (.success, t) →
        ∃ e, t.expanded = some e ∧
          ((∀ p, Dropped a p → ByImplicitStage a p) → ActivatedInOrder a e) ∧
          (ActivatedInOrder a e → ∀ p, Dropped a p → ByImplicitStage a p ∨ ByEnvironment a p ∨
            (ByApplication a names p ∧ ∀ q, ByEnvironment a q → ByImplicit a q)) := by
  constructor
  · obtain ⟨fuel, hfuel⟩ := exists_fuel_of_terminates a hends
    exact ⟨fuel, fun listsInit => loaderEnableInstanceLayers_isSome hfuel listsInit false names⟩
  · intro fuel listsInit t h
    obtain ⟨first, second, third, he, hstages⟩ := inStages_of_success hnd h
    exact ⟨_, he, hstages.activatedInOrder, fun horder p hp => hstages.brought_of_activatedInOrder horder hp⟩

/-! ### A name that is a part of another one -/

/-- An implicit layer. -/
def LayerProperties.implicitNamed (name : String) : LayerProperties :=
  { LayerProperties.zero with layerName := name }

/-- The activation of the implicit layer `VK_LAYER_A` with a value of `VK_INSTANCE_LAYERS`. -/
def oneImplicitLayer (value : String) : Activation :=
  .granting ⟨fun name => if name = "VK_INSTANCE_LAYERS" then some value else none, .unset, none⟩
    [.implicitNamed "VK_LAYER_A"]

/-- Without meta-layers there is nothing to expand. -/
theorem expansionTerminates_of_no_meta {a : Activation} (h : ∀ p ∈ a.sourceList, p.isMeta = false) :
    ExpansionTerminates a.ctx a.sourceList := by
  rw [expansionTerminates_iff_no_cycle]
  intro p hcycle
  obtain ⟨_, -, name, -, hfind, hexpands⟩ := Relation.TransGen.tail'_iff.1 hcycle
  rw [LayerContext.expands, h p (mem_of_loaderFindLayerProperty hfind).1] at hexpands
  cases hexpands

/-- Two explicit layers and two implicit ones; `VK_INSTANCE_LAYERS` names one of each. -/
def threeSources : Activation :=
  .granting ⟨fun name => if name = "VK_INSTANCE_LAYERS" then some "ENV:NAMED" else none, .unset, none⟩
    [.explicitNamed "APP", .explicitNamed "ENV", .implicitNamed "NAMED", .implicitNamed "ON"]

/-- The implicit layer comes first, then what the variable names, in its order, and then what the application asks for,
though the list has them the other way round. -/
theorem activatedInOrder_of_dropped_threeSources : ∃ t e,
    loaderEnableInstanceLayers threeSources 0 true false ["APP"] = some (.success, t) ∧ t.expanded = some e ∧
      e.map LayerProperties.layerName = ["ON", "ENV", "NAMED", "APP"] ∧ ActivatedInOrder threeSources e := by
  have hnd : (threeSources.sourceList.map LayerProperties.layerName).Nodup := by decide
  have hterm : ExpansionTerminates threeSources.ctx threeSources.sourceList :=
    expansionTerminates_of_no_meta (by decide)
  have hrun : ∃ t e, loaderEnableInstanceLayers threeSources 0 true false ["APP"] = some (.success, t) ∧
      t.expanded = some e ∧ e.map LayerProperties.layerName = ["ON", "ENV", "NAMED", "APP"] := ⟨_, _, rfl, rfl, rfl⟩
  obtain ⟨t, e, ht, he, hnames⟩ := hrun
  obtain ⟨e', he', horder, -⟩ := (activatedInOrder_of_dropped threeSources ["APP"] hnd hterm).2 0 true t ht
  obtain rfl := Option.some.inj (he.symm.trans he')
  refine ⟨t, e, ht, he, hnames, horder fun p hp => ?_⟩
  -- a layer whose name occurs in the variable is one of the names there
  have hno : ∀ q ∈ threeSources.sourceList, q.isExplicit = false →
      inEnabledLayersEnv threeSources.enabledLayersEnv q = true →
        q.layerName.isEmpty = false ∧ q.layerName ∈ threeSources.envNames := by decide
  exact absurd (hno p hp.1.1 hp.1.2.1 hp.2.1) hp.2.2

/-- Where it names another layer whose name starts with that of the layer, the layer is lost. -/
theorem not_activatedInOrder : ¬ ∀ (a : Activation) (names : List String),
    (a.sourceList.map LayerProperties.layerName).Nodup → ExpansionTerminates a.ctx a.sourceList →
      ∀ fuel listsInit t e, loaderEnableInstanceLayers a fuel listsInit false names = some (.success, t) →
        t.expanded = some e → ActivatedInOrder a e := by
  intro hall
  have horder := hall (oneImplicitLayer "VK_LAYER_AB") [] (List.nodup_singleton _)
    (expansionTerminates_of_no_meta (by decide)) 0 true ⟨[], some []⟩ [] rfl rfl
  have hmem := horder.implicit (.implicitNamed "VK_LAYER_A") ⟨List.mem_singleton_self _, rfl, rfl, rfl⟩
  cases hmem

end VulkanLoader
