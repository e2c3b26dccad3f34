import VulkanLoader.Layers.Properties
import VulkanLoader.Lib.Walks

/-!
# The expansion of meta-layers

Activating a meta-layer activates its component layers, which may be meta-layers themselves.  The functions call each
other without a bound in the source; here `fuel` bounds how deep the calls of `loader_add_meta_layer` are nested, and
`none` is a call that goes deeper.

`Follows` is the graph the recursion walks: a meta-layer is followed by each meta-layer that one of its component names
finds and that passes the checks on the way.  The recursion ends for every layer exactly if this graph has no cycle.
-/

namespace VulkanLoader

open Relation

/-- The two lists that an activation fills; the caller may leave the second out. -/
structure LayerTargets where
  target : List LayerProperties
  expanded : Option (List LayerProperties)

/-- What an activation depends on; each list can take another entry, when it has so many, as the memory allows. -/
structure Activation where
  ctx : LayerContext
  sourceList : List LayerProperties
  targetGrows : ℕ → Bool
  expandedGrows : ℕ → Bool

/-- `loader_add_layer_properties_to_list`. -/
def loaderAddLayerPropertiesToList (grows : ℕ → Bool) (list : List LayerProperties) (prop : LayerProperties) :
    VkResult × List LayerProperties :=
  if grows list.length then (.success, list ++ [prop]) else (.errorOutOfHostMemory, list)

namespace Activation

/-- The layer is added to the first list. -/
def addToTarget (a : Activation) (prop : LayerProperties) (t : LayerTargets) : VkResult × LayerTargets :=
  let r := loaderAddLayerPropertiesToList a.targetGrows t.target prop
  (r.1, { t with target := r.2 })

/-- The layer is added to both lists. -/
def addToBoth (a : Activation) (prop : LayerProperties) (t : LayerTargets) : VkResult × LayerTargets :=
  let (result, t) := a.addToTarget prop t
  if result = .errorOutOfHostMemory then (result, t)
  else
    match t.expanded with
    | none => (result, t)
    | some expanded =>
      let r := loaderAddLayerPropertiesToList a.expandedGrows expanded prop
      (r.1, { t with expanded := some r.2 })

end Activation

/-- What `loader_add_meta_layer` leaves: its result, what it writes through `out_found_all_component_layers`, if it
does, and the lists. -/
abbrev MetaResult := VkResult × Option Bool × LayerTargets

/-- `loader_add_implicit_layer`, given `loader_add_meta_layer`. -/
def loaderAddImplicitLayer (a : Activation) (addMetaLayer : LayerProperties → LayerTargets → Option MetaResult)
    (prop : LayerProperties) (t : LayerTargets) : Option (VkResult × LayerTargets) :=
  if loaderImplicitLayerIsEnabled a.ctx prop then
    if !prop.isMeta then
      if loaderFindLayerNameInList prop.layerName t.target then some (.success, t) else some (a.addToBoth prop t)
    else (addMetaLayer prop t).map fun r => (r.1, r.2.2)
  else some (.success, t)

/-- The loop of `loader_add_meta_layer` over the component names; `found` is `found_all_component_layers`. -/
def addComponents (a : Activation) (addMetaLayer : LayerProperties → LayerTargets → Option MetaResult) :
    List String → Bool → LayerTargets → Option (VkResult × Bool × LayerTargets)
  | [], found, t => some (.success, found, t)
  | name :: names, found, t =>
    match loaderFindLayerProperty name a.sourceList with
    | none => addComponents a addMetaLayer names false t
    | some searchProp =>
      if !loaderLayerIsAvailable a.ctx.filters searchProp then addComponents a addMetaLayer names found t
      else if !searchProp.isExplicit then
        (loaderAddImplicitLayer a addMetaLayer searchProp t).bind fun r =>
          if r.1 = .errorOutOfHostMemory then some (r.1, found, r.2) else addComponents a addMetaLayer names found r.2
      else if searchProp.isMeta then
        (addMetaLayer searchProp t).bind fun r =>
          if r.1 = .errorOutOfHostMemory then some (r.1, found, r.2.2)
          else addComponents a addMetaLayer names (found && r.2.1.getD true) r.2.2
      else if !loaderFindLayerNameInList searchProp.layerName t.target then
        let r := a.addToBoth searchProp t
        if r.1 = .errorOutOfHostMemory then some (r.1, found, r.2) else addComponents a addMetaLayer names found r.2
      else addComponents a addMetaLayer names found t

/-- The end of `loader_add_meta_layer`, after its loop. -/
def addMetaLayerItself (a : Activation) (prop : LayerProperties) (r : VkResult × Bool × LayerTargets) : MetaResult :=
  if r.1 = .errorOutOfHostMemory then (r.1, none, r.2.2)
  else if r.2.1 then
    let (result, t) := a.addToTarget prop r.2.2
    if result = .errorOutOfHostMemory then (result, none, t) else (result, some r.2.1, t)
  else (r.1, none, r.2.2)

/-- `loader_add_meta_layer`. -/
def loaderAddMetaLayer (a : Activation) : ℕ → LayerProperties → LayerTargets → Option MetaResult
  | 0, _, _ => none
  | fuel + 1, prop, t =>
    (addComponents a (loaderAddMetaLayer a fuel) prop.componentLayerNames true t).map (addMetaLayerItself a prop)

/-- The loop of `loader_add_layer_names_to_list`. -/
def loaderAddLayerNamesToList (a : Activation) (fuel : ℕ) :
    List String → VkResult → LayerTargets → Option (VkResult × LayerTargets)
  | [], err, t => some (err, t)
  | name :: names, err, t =>
    match loaderFindLayerProperty name a.sourceList with
    | none => loaderAddLayerNamesToList a fuel names .errorLayerNotPresent t
    | some layerProp =>
      if loaderFindLayerNameInList name t.target then loaderAddLayerNamesToList a fuel names err t
      else if !loaderLayerIsAvailable a.ctx.filters layerProp then loaderAddLayerNamesToList a fuel names err t
      else if !layerProp.isMeta then
        let r := a.addToBoth layerProp t
        if r.1 = .errorOutOfHostMemory then some r else loaderAddLayerNamesToList a fuel names r.1 r.2
      else
        (loaderAddMetaLayer a fuel layerProp t).bind fun r =>
          if r.1 = .errorOutOfHostMemory then some (r.1, r.2.2) else loaderAddLayerNamesToList a fuel names r.1 r.2.2

/-- **Every activation ends**: of a meta-layer of the list, of an implicit layer of the list, and of any names, whatever
is in the lists and however the memory holds. -/
structure ExpansionTerminates (ctx : LayerContext) (sourceList : List LayerProperties) : Prop where
  metaLayer : ∀ targetGrows expandedGrows, ∀ prop ∈ sourceList, prop.isMeta = true → ∀ t, ∃ fuel,
    (loaderAddMetaLayer ⟨ctx, sourceList, targetGrows, expandedGrows⟩ fuel prop t).isSome
  implicitLayer : ∀ targetGrows expandedGrows, ∀ prop ∈ sourceList, ∀ t, ∃ fuel,
    (loaderAddImplicitLayer ⟨ctx, sourceList, targetGrows, expandedGrows⟩
      (loaderAddMetaLayer ⟨ctx, sourceList, targetGrows, expandedGrows⟩ fuel) prop t).isSome
  layerNames : ∀ targetGrows expandedGrows names err t, ∃ fuel,
    (loaderAddLayerNamesToList ⟨ctx, sourceList, targetGrows, expandedGrows⟩ fuel names err t).isSome

/-- A component that the expansion expands in its turn: a meta-layer that is available, and enabled if it is
implicit. -/
def LayerContext.expands (ctx : LayerContext) (q : LayerProperties) : Bool :=
  q.isMeta && loaderLayerIsAvailable ctx.filters q && (q.isExplicit || loaderImplicitLayerIsEnabled ctx q)

/-- The expansion of `p` expands `q`, which one of the component names finds. -/
def Follows (ctx : LayerContext) (sourceList : List LayerProperties) (p q : LayerProperties) : Prop :=
  ∃ name ∈ p.componentLayerNames, loaderFindLayerProperty name sourceList = some q ∧ ctx.expands q = true

/-! ### More fuel -/

section Fuel

variable {a : Activation} {f g : LayerProperties → LayerTargets → Option MetaResult}

theorem loaderAddImplicitLayer_mono (hfg : ∀ p t r, f p t = some r → g p t = some r) {prop : LayerProperties}
    {t : LayerTargets} {r : VkResult × LayerTargets} (h : loaderAddImplicitLayer a f prop t = some r) :
    loaderAddImplicitLayer a g prop t = some r := by
  unfold loaderAddImplicitLayer at h ⊢
  split_ifs at h ⊢
  · exact h
  · exact h
  · obtain ⟨q, hq, rfl⟩ := Option.map_eq_some_iff.1 h
    rw [hfg _ _ _ hq, Option.map_some]
  · exact h

theorem addComponents_mono (hfg : ∀ p t r, f p t = some r → g p t = some r) {names : List String} {found : Bool}
    {t : LayerTargets} {r : VkResult × Bool × LayerTargets} (h : addComponents a f names found t = some r) :
    addComponents a g names found t = some r := by
  induction names generalizing found t with
  | nil => exact h
  | cons name names ih =>
    unfold addComponents at h ⊢
    split at h
    · exact ih h
    · rename_i searchProp _
      dsimp only at h ⊢
      split_ifs at h ⊢ with h1 h2 h3 h4 h5
      · exact ih h
      · obtain ⟨q, hq, h⟩ := Option.bind_eq_some_iff.1 h
        rw [loaderAddImplicitLayer_mono hfg hq, Option.bind_some]
        split_ifs at h ⊢
        · exact h
        · exact ih h
      · obtain ⟨q, hq, h⟩ := Option.bind_eq_some_iff.1 h
        rw [hfg _ _ _ hq, Option.bind_some]
        split_ifs at h ⊢
        · exact h
        · exact ih h
      · exact h
      · exact ih h
      · exact ih h

theorem loaderAddMetaLayer_mono {fuel fuel' : ℕ} (hle : fuel ≤ fuel') {prop : LayerProperties} {t : LayerTargets}
    {r : MetaResult} (h : loaderAddMetaLayer a fuel prop t = some r) : loaderAddMetaLayer a fuel' prop t = some r := by
  induction fuel generalizing fuel' prop t r with
  | zero => cases h
  | succ fuel ih =>
    obtain ⟨k, rfl⟩ : ∃ k, fuel' = k + 1 := ⟨fuel' - 1, by omega⟩
    unfold loaderAddMetaLayer at h ⊢
    obtain ⟨q, hq, rfl⟩ := Option.map_eq_some_iff.1 h
    have hmono : ∀ p t r, loaderAddMetaLayer a fuel p t = some r → loaderAddMetaLayer a k p t = some r :=
      fun p t r hr => ih (by omega) hr
    rw [addComponents_mono hmono hq, Option.map_some]

end Fuel

/-! ### Where the recursion ends -/

section Ends

variable {a : Activation} {f : LayerProperties → LayerTargets → Option MetaResult} {p : LayerProperties}

/-- The call for an implicit layer ends if the one for its components does. -/
theorem loaderAddImplicitLayer_isSome {prop : LayerProperties}
    (hf : prop.isMeta = true → loaderImplicitLayerIsEnabled a.ctx prop = true → ∀ t, (f prop t).isSome)
    (t : LayerTargets) : (loaderAddImplicitLayer a f prop t).isSome := by
  unfold loaderAddImplicitLayer
  split_ifs with henabled hmeta hfound
  · rfl
  · rfl
  · rw [Option.isSome_map]
    exact hf (by simpa using hmeta) henabled t
  · rfl

/-- The loop over the component names ends if the calls for the components that are expanded do. -/
theorem addComponents_isSome {names : List String}
    (hf : ∀ name ∈ names, ∀ q, loaderFindLayerProperty name a.sourceList = some q → a.ctx.expands q = true →
      ∀ t, (f q t).isSome) (found : Bool) (t : LayerTargets) : (addComponents a f names found t).isSome := by
  induction names generalizing found t with
  | nil => rfl
  | cons name names ih =>
    have htail : ∀ found t, (addComponents a f names found t).isSome :=
      ih fun name hname => hf name (List.mem_cons_of_mem _ hname)
    unfold addComponents
    split
    · exact htail _ _
    · rename_i q hq
      have hhead := hf name List.mem_cons_self q hq
      dsimp only
      split_ifs with havail hexp hmeta hfound hoom
      · exact htail _ _
      · have himplicit : ∀ t, (loaderAddImplicitLayer a f q t).isSome := by
          apply loaderAddImplicitLayer_isSome
          intro hmeta henabled
          apply hhead
          simp [LayerContext.expands, hmeta, henabled, by simpa using havail]
        obtain ⟨r, hr⟩ := Option.isSome_iff_exists.1 (himplicit t)
        rw [hr, Option.bind_some]
        split_ifs
        · rfl
        · exact htail _ _
      · have hexpands : a.ctx.expands q = true := by
          have havail' : loaderLayerIsAvailable a.ctx.filters q = true := by simpa using havail
          have hexp' : q.isExplicit = true := by simpa using hexp
          simp [LayerContext.expands, hmeta, havail', hexp']
        obtain ⟨r, hr⟩ := Option.isSome_iff_exists.1 (hhead hexpands t)
        rw [hr, Option.bind_some]
        split_ifs
        · rfl
        · exact htail _ _
      · rfl
      · exact htail _ _
      · exact htail _ _

/-- Calls that each end with enough fuel end with one amount of fuel. -/
theorem exists_fuel {β : Type*} {P : ℕ → β → Prop} (hmono : ∀ b n m, n ≤ m → P n b → P m b) (l : List β)
    (h : ∀ b ∈ l, ∃ n, P n b) : ∃ n, ∀ b ∈ l, P n b := by
  induction l with
  | nil => exact ⟨0, by simp⟩
  | cons b l ih =>
    obtain ⟨n, hn⟩ := h b List.mem_cons_self
    obtain ⟨m, hm⟩ := ih fun c hc => h c (List.mem_cons_of_mem _ hc)
    refine ⟨max n m, fun c hc => ?_⟩
    rcases List.mem_cons.1 hc with rfl | hc
    · exact hmono _ n _ (le_max_left n m) hn
    · exact hmono c m _ (le_max_right n m) (hm c hc)

/-- **Accessible meta-layers**: their expansion ends, with an amount of fuel that does not depend on the lists. -/
theorem exists_fuel_of_acc (hp : Acc (fun q p => Follows a.ctx a.sourceList p q) p) :
    ∃ fuel, ∀ t, (loaderAddMetaLayer a fuel p t).isSome := by
  induction hp with
  | intro p _ ih =>
    -- one amount for all components that are expanded
    have hfuel : ∃ fuel, ∀ q ∈ a.sourceList, Follows a.ctx a.sourceList p q →
        ∀ t, (loaderAddMetaLayer a fuel q t).isSome := by
      apply exists_fuel (P := fun fuel q => Follows a.ctx a.sourceList p q → ∀ t, (loaderAddMetaLayer a fuel q t).isSome)
      · intro q n m hnm hn hq t
        obtain ⟨r, hr⟩ := Option.isSome_iff_exists.1 (hn hq t)
        rw [loaderAddMetaLayer_mono hnm hr]
        rfl
      · intro q _
        by_cases hq : Follows a.ctx a.sourceList p q
        · obtain ⟨fuel, hfuel⟩ := ih q hq
          exact ⟨fuel, fun _ => hfuel⟩
        · exact ⟨0, fun h => absurd h hq⟩
    obtain ⟨fuel, hfuel⟩ := hfuel
    refine ⟨fuel + 1, fun t => ?_⟩
    unfold loaderAddMetaLayer
    rw [Option.isSome_map]
    apply addComponents_isSome
    intro name hname q hq hexpands t
    exact hfuel q (mem_of_loaderFindLayerProperty hq).1 ⟨name, hname, hq, hexpands⟩ t

theorem loaderAddLayerNamesToList_isSome {fuel : ℕ}
    (hfuel : ∀ p ∈ a.sourceList, ∀ t, (loaderAddMetaLayer a fuel p t).isSome) (names : List String) (err : VkResult)
    (t : LayerTargets) : (loaderAddLayerNamesToList a fuel names err t).isSome := by
  induction names generalizing err t with
  | nil => rfl
  | cons name names ih =>
    unfold loaderAddLayerNamesToList
    split
    · exact ih _ _
    · rename_i p hp
      dsimp only
      split_ifs
      · exact ih _ _
      · exact ih _ _
      · rfl
      · exact ih _ _
      · obtain ⟨r, hr⟩ := Option.isSome_iff_exists.1 (hfuel p (mem_of_loaderFindLayerProperty hp).1 t)
        rw [hr, Option.bind_some]
        split_ifs
        · rfl
        · exact ih _ _

end Ends

/-! ### Where it does not -/

section Diverges

variable {ctx : LayerContext} {sourceList : List LayerProperties}

/-- The activation where no request fails. -/
def Activation.granting (ctx : LayerContext) (sourceList : List LayerProperties) : Activation :=
  ⟨ctx, sourceList, fun _ => true, fun _ => true⟩

theorem addToBoth_granting (prop : LayerProperties) (t : LayerTargets) :
    ((Activation.granting ctx sourceList).addToBoth prop t).1 = .success := by
  obtain ⟨target, _ | expanded⟩ := t
  · rfl
  · rfl

variable {f : LayerProperties → LayerTargets → Option MetaResult}

theorem loaderAddImplicitLayer_granting (hf : ∀ p t r, f p t = some r → r.1 = .success) {prop : LayerProperties}
    {t : LayerTargets} {r : VkResult × LayerTargets}
    (h : loaderAddImplicitLayer (.granting ctx sourceList) f prop t = some r) : r.1 = .success := by
  unfold loaderAddImplicitLayer at h
  split_ifs at h
  · obtain rfl := Option.some.inj h
    rfl
  · obtain rfl := Option.some.inj h
    exact addToBoth_granting prop t
  · obtain ⟨q, hq, rfl⟩ := Option.map_eq_some_iff.1 h
    exact hf _ _ _ hq
  · obtain rfl := Option.some.inj h
    rfl

theorem addComponents_granting (hf : ∀ p t r, f p t = some r → r.1 = .success) {names : List String} {found : Bool}
    {t : LayerTargets} {r : VkResult × Bool × LayerTargets}
    (h : addComponents (.granting ctx sourceList) f names found t = some r) : r.1 = .success := by
  induction names generalizing found t with
  | nil =>
    obtain rfl := Option.some.inj h
    rfl
  | cons name names ih =>
    unfold addComponents at h
    split at h
    · exact ih h
    · rename_i q hq
      dsimp only at h
      split_ifs at h with havail hexp hmeta hfound hoom
      · exact ih h
      · obtain ⟨s, hs, h⟩ := Option.bind_eq_some_iff.1 h
        rw [if_neg (by rw [loaderAddImplicitLayer_granting hf hs]; decide)] at h
        exact ih h
      · obtain ⟨s, hs, h⟩ := Option.bind_eq_some_iff.1 h
        rw [if_neg (by rw [hf _ _ _ hs]; decide)] at h
        exact ih h
      · rw [addToBoth_granting] at hoom
        cases hoom
      · exact ih h
      · exact ih h

theorem loaderAddMetaLayer_granting {fuel : ℕ} {prop : LayerProperties} {t : LayerTargets} {r : MetaResult}
    (h : loaderAddMetaLayer (.granting ctx sourceList) fuel prop t = some r) : r.1 = .success := by
  induction fuel generalizing prop t r with
  | zero => cases h
  | succ fuel ih =>
    unfold loaderAddMetaLayer at h
    obtain ⟨q, hq, rfl⟩ := Option.map_eq_some_iff.1 h
    have hres := addComponents_granting (fun _ _ _ hr => ih hr) hq
    unfold addMetaLayerItself
    rw [if_neg (by rw [hres]; decide)]
    split_ifs
    · rfl
    · exact hres

/-- The loop over the component names gets to each of them, so it does not end if one of the calls does not. -/
theorem addComponents_eq_none (hf : ∀ p t r, f p t = some r → r.1 = .success) {names : List String} {name : String}
    {q : LayerProperties} (hname : name ∈ names) (hq : loaderFindLayerProperty name sourceList = some q)
    (hexpands : ctx.expands q = true) (hnone : ∀ t, f q t = none) (found : Bool) (t : LayerTargets) :
    addComponents (.granting ctx sourceList) f names found t = none := by
  have hq' : loaderFindLayerProperty name (Activation.granting ctx sourceList).sourceList = some q := hq
  obtain ⟨⟨hmeta, havail⟩, henabled⟩ : (q.isMeta = true ∧ loaderLayerIsAvailable ctx.filters q = true) ∧
      (q.isExplicit = true ∨ loaderImplicitLayerIsEnabled ctx q = true) := by
    simpa [LayerContext.expands] using hexpands
  have havail' : loaderLayerIsAvailable (Activation.granting ctx sourceList).ctx.filters q = true := havail
  induction names generalizing found t with
  | nil => cases hname
  | cons n names ih =>
    by_cases hn : n = name
    · subst hn
      unfold addComponents
      rw [hq']
      dsimp only
      rw [if_neg (by simp [havail'])]
      rcases hexplicit : q.isExplicit with _ | _
      · -- an implicit layer goes through `loader_add_implicit_layer`
        have himplicit : loaderImplicitLayerIsEnabled (Activation.granting ctx sourceList).ctx q = true :=
          henabled.resolve_left (by simp [hexplicit])
        rw [if_pos Bool.not_false, loaderAddImplicitLayer, if_pos himplicit, if_neg (by simp [hmeta]), hnone]
        rfl
      · rw [if_neg (by decide), if_pos hmeta, hnone]
        rfl
    · have hrest := ih (by simpa [Ne.symm hn] using hname)
      -- the component before either does not end, or the loop goes on
      rcases hrun : addComponents (.granting ctx sourceList) f (n :: names) found t with _ | r
      · rfl
      · unfold addComponents at hrun
        split at hrun
        · rw [hrest] at hrun
          cases hrun
        · dsimp only at hrun
          split_ifs at hrun with h1 h2 h3 h4 h5
          · rw [hrest] at hrun
            cases hrun
          · obtain ⟨s, hs, hrun⟩ := Option.bind_eq_some_iff.1 hrun
            rw [if_neg (by rw [loaderAddImplicitLayer_granting hf hs]; decide), hrest] at hrun
            cases hrun
          · obtain ⟨s, hs, hrun⟩ := Option.bind_eq_some_iff.1 hrun
            rw [if_neg (by rw [hf _ _ _ hs]; decide), hrest] at hrun
            cases hrun
          · rw [addToBoth_granting] at h5
            cases h5
          · rw [hrest] at hrun
            cases hrun
          · rw [hrest] at hrun
            cases hrun

/-- **Meta-layers that are not accessible**: no amount of fuel is enough. -/
theorem loaderAddMetaLayer_eq_none {p : LayerProperties} (hp : ¬ Acc (fun q p => Follows ctx sourceList p q) p)
    (fuel : ℕ) (t : LayerTargets) : loaderAddMetaLayer (.granting ctx sourceList) fuel p t = none := by
  induction fuel generalizing p t with
  | zero => rfl
  | succ fuel ih =>
    -- one of the components that are expanded is not accessible
    obtain ⟨q, hpq, hq⟩ : ∃ q, Follows ctx sourceList p q ∧ ¬ Acc (fun q p => Follows ctx sourceList p q) q := by
      by_contra hall
      push Not at hall
      exact hp ⟨p, hall⟩
    obtain ⟨name, hname, hfind, hexpands⟩ := hpq
    have hf : ∀ p t r, loaderAddMetaLayer (.granting ctx sourceList) fuel p t = some r → r.1 = .success :=
      fun _ _ _ => loaderAddMetaLayer_granting
    unfold loaderAddMetaLayer
    rw [addComponents_eq_none hf hname hfind hexpands (ih hq), Option.map_none]

end Diverges

/-- **The expansion ends exactly if no meta-layer is expanded inside itself.** -/
theorem expansionTerminates_iff_no_cycle (ctx : LayerContext) (sourceList : List LayerProperties) :
    ExpansionTerminates ctx sourceList ↔ ∀ p, ¬ TransGen (Follows ctx sourceList) p p := by
  constructor
  · intro hends p hcycle
    have hacc : ¬ Acc (fun q p => Follows ctx sourceList p q) p := fun h => Lib.not_transGen_self_of_acc h hcycle
    obtain ⟨_, -, name, -, hfind, hexpands⟩ := TransGen.tail'_iff.1 hcycle
    have hmeta : p.isMeta = true := by
      simp only [LayerContext.expands, Bool.and_eq_true] at hexpands
      exact hexpands.1.1
    obtain ⟨fuel, hfuel⟩ := hends.metaLayer (fun _ => true) (fun _ => true) p (mem_of_loaderFindLayerProperty hfind).1
      hmeta ⟨[], none⟩
    have hnone := loaderAddMetaLayer_eq_none hacc fuel ⟨[], none⟩
    unfold Activation.granting at hnone
    rw [hnone] at hfuel
    cases hfuel
  · intro hcycle
    have hacc : ∀ p, Acc (fun q p => Follows ctx sourceList p q) p := by
      apply Lib.acc_of_no_cycle sourceList _ hcycle
      rintro p q ⟨name, -, hfind, -⟩
      exact (mem_of_loaderFindLayerProperty hfind).1
    have hends : ∀ a : Activation, a.ctx = ctx → a.sourceList = sourceList → ∀ p, ∃ fuel, ∀ t,
        (loaderAddMetaLayer a fuel p t).isSome := by
      rintro a rfl rfl p
      exact exists_fuel_of_acc (hacc p)
    refine ⟨fun tg eg p _ _ t => ?_, fun tg eg p _ t => ?_, fun tg eg names err t => ?_⟩
    · obtain ⟨fuel, hfuel⟩ := hends ⟨ctx, sourceList, tg, eg⟩ rfl rfl p
      exact ⟨fuel, hfuel t⟩
    · obtain ⟨fuel, hfuel⟩ := hends ⟨ctx, sourceList, tg, eg⟩ rfl rfl p
      exact ⟨fuel, loaderAddImplicitLayer_isSome (fun _ _ => hfuel) t⟩
    · obtain ⟨fuel, hfuel⟩ := exists_fuel
        (P := fun fuel p => ∀ t, (loaderAddMetaLayer ⟨ctx, sourceList, tg, eg⟩ fuel p t).isSome)
        (fun p n m hnm hn t => by
          obtain ⟨r, hr⟩ := Option.isSome_iff_exists.1 (hn t)
          rw [loaderAddMetaLayer_mono hnm hr]
          rfl) sourceList fun p _ => hends ⟨ctx, sourceList, tg, eg⟩ rfl rfl p
      exact ⟨fuel, loaderAddLayerNamesToList_isSome hfuel names err t⟩

end VulkanLoader
