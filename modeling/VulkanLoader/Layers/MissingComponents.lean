import VulkanLoader.Layers.Expansion

/-!
# Components that are missing

`loader_add_meta_layer` adds a meta-layer to the first list only if it found all component layers.  What a call for a
nested meta-layer has found comes back through `out_found_all_component_layers`, which is written only where all was
found, in a variable that says so already; so each meta-layer that the expansion gets to is added exactly if its own
component names all find a layer (`metasAdded_loaderAddMetaLayer`).
-/

namespace VulkanLoader

open Relation

/-- The component names of the layer all find one. -/
def ComponentsFound (sourceList : List LayerProperties) (p : LayerProperties) : Prop :=
  ∀ name ∈ p.componentLayerNames, (loaderFindLayerProperty name sourceList).isSome

/-- No component is missing, at any depth to which the expansion of the layer goes. -/
def NoneMissing (ctx : LayerContext) (sourceList : List LayerProperties) (p : LayerProperties) : Prop :=
  ∀ m, ReflTransGen (Follows ctx sourceList) p m → ComponentsFound sourceList m

/-- What the call for a meta-layer that contains `m` learns of the call for `m`: the variable that it has set to true,
which is handed on if `m` is explicit. -/
def reportTo (m : LayerProperties) (r : MetaResult) : Bool := if m.isExplicit then r.2.1.getD true else true

/-- What a call for a meta-layer should do to the lists, and what it should report. -/
structure ReportsMissing (ctx : LayerContext) (sourceList : List LayerProperties) (prop : LayerProperties)
    (t : LayerTargets) (r : MetaResult) : Prop where
  added : ∃ e xs ys, t.expanded = some e ∧ r.2.2.expanded = some (e ++ ys) ∧ r.2.2.target = t.target ++ xs ∧
    (∀ y ∈ ys, y.isMeta = false ∧ Brings ctx sourceList prop y ∧
      loaderFindLayerNameInList y.layerName t.target = false) ∧
    (ys.map LayerProperties.layerName).Nodup ∧
    ∀ m, m.isMeta = true → (m ∈ xs ↔ ReflTransGen (Follows ctx sourceList) prop m ∧ NoneMissing ctx sourceList m)
  reported : ∀ m, TransGen (Follows ctx sourceList) prop m → ¬ NoneMissing ctx sourceList m → ∀ fuel t r,
    loaderAddMetaLayer (.granting ctx sourceList) fuel m t = some r → reportTo m r = false

/-- The meta-layers that were added to the first list are those which satisfy `R` and find all their components. -/
def MetasAdded (sourceList : List LayerProperties) (R : LayerProperties → Prop) (t t' : LayerTargets) : Prop :=
  ∃ xs, t'.target = t.target ++ xs ∧ ∀ m, m.isMeta = true → (m ∈ xs ↔ R m ∧ ComponentsFound sourceList m)

section MetasAdded

variable {ctx : LayerContext} {sourceList : List LayerProperties} {R S : LayerProperties → Prop}
  {t t' t'' : LayerTargets} {p : LayerProperties}

theorem metasAdded_refl (hR : ∀ m, m.isMeta = true → ¬ R m) : MetasAdded sourceList R t t := by
  refine ⟨[], (List.append_nil _).symm, fun m hm => ?_⟩
  simp [hR m hm]

theorem MetasAdded.congr (h : MetasAdded sourceList R t t') (hRS : ∀ m, m.isMeta = true → (R m ↔ S m)) :
    MetasAdded sourceList S t t' := by
  obtain ⟨xs, ht, hxs⟩ := h
  exact ⟨xs, ht, fun m hm => by rw [hxs m hm, hRS m hm]⟩

theorem MetasAdded.trans (h : MetasAdded sourceList R t t') (h' : MetasAdded sourceList S t' t'') :
    MetasAdded sourceList (fun m => R m ∨ S m) t t'' := by
  obtain ⟨xs, ht, hxs⟩ := h
  obtain ⟨ys, ht', hys⟩ := h'
  refine ⟨xs ++ ys, by rw [ht', ht, List.append_assoc], fun m hm => ?_⟩
  rw [List.mem_append, hxs m hm, hys m hm, or_and_right]

variable {a : Activation}

/-- A layer that is no meta-layer. -/
theorem metasAdded_addToBoth (hmeta : p.isMeta = false) (hR : ∀ m, m.isMeta = true → ¬ R m) :
    MetasAdded sourceList R t ((Activation.granting ctx sourceList).addToBoth p t).2 := by
  have htarget : ((Activation.granting ctx sourceList).addToBoth p t).2.target = t.target ++ [p] := by
    obtain ⟨target, _ | expanded⟩ := t
    · rfl
    · rfl
  refine ⟨[p], htarget, fun m hm => ⟨fun hmem => ?_, fun h => absurd h.1 (hR m hm)⟩⟩
  obtain rfl := List.mem_singleton.1 hmem
  rw [hmeta] at hm
  cases hm

/-- A meta-layer that found its components. -/
theorem metasAdded_addToTarget (ctx : LayerContext) (t : LayerTargets) (hfound : ComponentsFound sourceList p) :
    MetasAdded sourceList (· = p) t ((Activation.granting ctx sourceList).addToTarget p t).2 := by
  refine ⟨[p], rfl, fun m _ => ?_⟩
  rw [List.mem_singleton]
  exact ⟨fun hm => ⟨hm, hm ▸ hfound⟩, And.left⟩

end MetasAdded

/-- The meta-layers that the expansion gets to from a component. -/
def ExpandedFrom (ctx : LayerContext) (sourceList : List LayerProperties) (q m : LayerProperties) : Prop :=
  ctx.expands q = true ∧ ReflTransGen (Follows ctx sourceList) q m

/-- The meta-layers that the expansion of the names gets to. -/
def FromNames (ctx : LayerContext) (sourceList : List LayerProperties) (names : List String) (m : LayerProperties) :
    Prop :=
  ∃ name ∈ names, ∃ q, loaderFindLayerProperty name sourceList = some q ∧ ExpandedFrom ctx sourceList q m

section FromNames

variable {ctx : LayerContext} {sourceList : List LayerProperties} {names : List String} {name : String}
  {m p q : LayerProperties}

theorem fromNames_cons_of_find (hfind : loaderFindLayerProperty name sourceList = some q) :
    FromNames ctx sourceList (name :: names) m ↔
      ExpandedFrom ctx sourceList q m ∨ FromNames ctx sourceList names m := by
  unfold FromNames
  rw [List.exists_mem_cons_iff]
  refine or_congr ⟨?_, fun h => ⟨q, hfind, h⟩⟩ Iff.rfl
  rintro ⟨q', hfind', h⟩
  obtain rfl := Option.some.inj (hfind.symm.trans hfind')
  exact h

theorem fromNames_cons_of_not_find (hfind : loaderFindLayerProperty name sourceList = none) :
    FromNames ctx sourceList (name :: names) m ↔ FromNames ctx sourceList names m := by
  unfold FromNames
  rw [List.exists_mem_cons_iff]
  refine or_iff_right ?_
  rintro ⟨q, hfind', -⟩
  rw [hfind] at hfind'
  cases hfind'

theorem reaches_iff : ReflTransGen (Follows ctx sourceList) p m ↔
    FromNames ctx sourceList p.componentLayerNames m ∨ m = p := by
  constructor
  · intro h
    rcases ReflTransGen.cases_head h with rfl | ⟨q, ⟨name, hname, hfind, hexpands⟩, hqm⟩
    · exact Or.inr rfl
    · exact Or.inl ⟨name, hname, q, hfind, hexpands, hqm⟩
  · rintro (⟨name, hname, q, hfind, hexpands, hqm⟩ | rfl)
    · exact .head ⟨name, hname, hfind, hexpands⟩ hqm
    · exact .refl

end FromNames

section Calls

variable {ctx : LayerContext} {sourceList : List LayerProperties}
  {f : LayerProperties → LayerTargets → Option MetaResult}

/-- What a call for a meta-layer does: it adds the meta-layers it gets to that find their components, and never writes
that one is missing. -/
def AddsMetas (ctx : LayerContext) (sourceList : List LayerProperties)
    (f : LayerProperties → LayerTargets → Option MetaResult) : Prop :=
  ∀ p t r, f p t = some r →
    MetasAdded sourceList (ReflTransGen (Follows ctx sourceList) p) t r.2.2 ∧ r.2.1 ≠ some false ∧ r.1 = .success

theorem getD_true_of_ne {b : Option Bool} (h : b ≠ some false) : b.getD true = true := by
  rcases b with _ | _ | _
  · rfl
  · exact absurd rfl h
  · rfl

/-- A component that is not expanded brings no meta-layer. -/
theorem not_expandedFrom {q : LayerProperties} (hexpands : ctx.expands q = false) (m : LayerProperties) :
    m.isMeta = true → ¬ ExpandedFrom ctx sourceList q m := by
  rintro - ⟨h, -⟩
  rw [hexpands] at h
  cases h

/-- The call for an implicit layer that is available. -/
theorem metasAdded_loaderAddImplicitLayer (hf : AddsMetas ctx sourceList f) {p : LayerProperties}
    (havail : loaderLayerIsAvailable ctx.filters p = true) (himplicit : p.isExplicit = false) {t : LayerTargets}
    {r : VkResult × LayerTargets} (h : loaderAddImplicitLayer (.granting ctx sourceList) f p t = some r) :
    r.1 = .success ∧ MetasAdded sourceList (ExpandedFrom ctx sourceList p) t r.2 := by
  unfold loaderAddImplicitLayer at h
  split_ifs at h with henabled hmeta hfind
  · obtain rfl := Option.some.inj h
    exact ⟨rfl, metasAdded_refl (not_expandedFrom (by simp [LayerContext.expands, by simpa using hmeta]))⟩
  · obtain rfl := Option.some.inj h
    have hnot : ctx.expands p = false := by simp [LayerContext.expands, by simpa using hmeta]
    exact ⟨addToBoth_granting p t, metasAdded_addToBoth (by simpa using hmeta) (not_expandedFrom hnot)⟩
  · obtain ⟨s, hs, rfl⟩ := Option.map_eq_some_iff.1 h
    obtain ⟨hadded, -, hres⟩ := hf p t s hs
    have henabled' : loaderImplicitLayerIsEnabled ctx p = true := henabled
    have hexpands : ctx.expands p = true := by
      simp [LayerContext.expands, by simpa using hmeta, havail, henabled']
    exact ⟨hres, hadded.congr fun m _ => (and_iff_right hexpands).symm⟩
  · obtain rfl := Option.some.inj h
    have henabled' : loaderImplicitLayerIsEnabled ctx p = false := Bool.eq_false_iff.2 henabled
    exact ⟨rfl, metasAdded_refl (not_expandedFrom (by simp [LayerContext.expands, himplicit, henabled']))⟩

/-- **The loop over the component names**: what it has found is whether the names find a layer each. -/
theorem metasAdded_addComponents (hf : AddsMetas ctx sourceList f) {names : List String} {found : Bool}
    {t : LayerTargets} {r : VkResult × Bool × LayerTargets}
    (h : addComponents (.granting ctx sourceList) f names found t = some r) :
    MetasAdded sourceList (FromNames ctx sourceList names) t r.2.2 ∧ r.1 = .success ∧
      (r.2.1 = true ↔ found = true ∧ ∀ name ∈ names, (loaderFindLayerProperty name sourceList).isSome) := by
  induction names generalizing found t with
  | nil =>
    obtain rfl := Option.some.inj h
    refine ⟨metasAdded_refl ?_, rfl, by simp⟩
    rintro m - ⟨name, hname, -⟩
    cases hname
  | cons name names ih =>
    unfold addComponents at h
    split at h
    · rename_i hfind
      have hfind' : loaderFindLayerProperty name sourceList = none := hfind
      obtain ⟨hadded, hres, hfound⟩ := ih h
      exact ⟨hadded.congr fun m _ => (fromNames_cons_of_not_find hfind').symm, hres, by simp [hfound, hfind']⟩
    · rename_i q hfind
      have hfind' : loaderFindLayerProperty name sourceList = some q := hfind
      -- the name finds a layer, and the loop goes on as if it had found all before
      have hrest : ∀ t', MetasAdded sourceList (ExpandedFrom ctx sourceList q) t t' →
          addComponents (.granting ctx sourceList) f names found t' = some r →
          MetasAdded sourceList (FromNames ctx sourceList (name :: names)) t r.2.2 ∧ r.1 = .success ∧
            (r.2.1 = true ↔ found = true ∧
              ∀ n ∈ name :: names, (loaderFindLayerProperty n sourceList).isSome) := by
        intro t' hstep h
        obtain ⟨hadded, hres, hfound⟩ := ih h
        exact ⟨(hstep.trans hadded).congr fun m _ => (fromNames_cons_of_find hfind').symm, hres,
          by simp [hfound, hfind']⟩
      dsimp only at h
      split_ifs at h with havail hexplicit hmeta hfound hoom
      · have havail' : loaderLayerIsAvailable ctx.filters q = false := by
          have hnot : (!loaderLayerIsAvailable ctx.filters q) = true := havail
          simpa using hnot
        exact hrest t (metasAdded_refl (not_expandedFrom (by simp [LayerContext.expands, havail']))) h
      all_goals
        have havail' : loaderLayerIsAvailable ctx.filters q = true := by
          have hnot : ¬ (!loaderLayerIsAvailable ctx.filters q) = true := havail
          simpa using hnot
      · -- an implicit layer
        obtain ⟨s, hs, h⟩ := Option.bind_eq_some_iff.1 h
        obtain ⟨hres, hadded⟩ := metasAdded_loaderAddImplicitLayer hf havail' (by simpa using hexplicit) hs
        rw [if_neg (by rw [hres]; decide)] at h
        exact hrest s.2 hadded h
      · -- a meta-layer, which reports nothing
        obtain ⟨s, hs, h⟩ := Option.bind_eq_some_iff.1 h
        obtain ⟨hadded, hreport, hres⟩ := hf q t s hs
        have hexpands : ctx.expands q = true := by
          simp [LayerContext.expands, hmeta, havail', by simpa using hexplicit]
        rw [if_neg (by rw [hres]; decide), getD_true_of_ne hreport, Bool.and_true] at h
        exact hrest s.2.2 (hadded.congr fun m _ => (and_iff_right hexpands).symm) h
      all_goals
        have hnot : ctx.expands q = false := by simp [LayerContext.expands, by simpa using hmeta]
      · rw [addToBoth_granting] at hoom
        cases hoom
      · exact hrest _ (metasAdded_addToBoth (by simpa using hmeta) (not_expandedFrom hnot)) h
      · exact hrest t (metasAdded_refl (not_expandedFrom hnot)) h

/-- **What `loader_add_meta_layer` adds to the first list**: the meta-layers it gets to that find all components they
name themselves. -/
theorem metasAdded_loaderAddMetaLayer (fuel : ℕ) :
    AddsMetas ctx sourceList (loaderAddMetaLayer (.granting ctx sourceList) fuel) := by
  induction fuel with
  | zero =>
    intro p t r h
    cases h
  | succ fuel ih =>
    intro p t r h
    unfold loaderAddMetaLayer at h
    obtain ⟨s, hs, rfl⟩ := Option.map_eq_some_iff.1 h
    obtain ⟨hadded, hres, hfound⟩ := metasAdded_addComponents ih hs
    unfold addMetaLayerItself
    rw [if_neg (by rw [hres]; decide)]
    split_ifs with hall
    · have hself := metasAdded_addToTarget ctx s.2.2 (hfound.1 hall).2
      refine ⟨(hadded.trans hself).congr fun m _ => reaches_iff.symm, ?_, rfl⟩
      dsimp only
      rw [hall]
      intro hnone
      cases hnone
    · refine ⟨?_, (Option.some_ne_none false).symm, hres⟩
      -- the layer itself misses a component
      obtain ⟨xs, ht, hxs⟩ := hadded
      refine ⟨xs, ht, fun m hm => ?_⟩
      rw [hxs m hm, reaches_iff, or_and_right]
      refine (or_iff_left ?_).symm
      rintro ⟨rfl, hm⟩
      exact hall (hfound.2 ⟨rfl, hm⟩)

end Calls

section Report

variable {ctx : LayerContext} {sourceList : List LayerProperties} {prop m : LayerProperties} {t : LayerTargets}
  {r : MetaResult}

theorem isMeta_of_follows {p q : LayerProperties} (h : Follows ctx sourceList p q) :
    q.isMeta = true ∧ q ∈ sourceList := by
  obtain ⟨name, -, hfind, hexpands⟩ := h
  simp only [LayerContext.expands, Bool.and_eq_true] at hexpands
  exact ⟨hexpands.1.1, (mem_of_loaderFindLayerProperty hfind).1⟩

/-- The call for a meta-layer never reports that a component is missing. -/
theorem reportTo_loaderAddMetaLayer {fuel : ℕ}
    (h : loaderAddMetaLayer (.granting ctx sourceList) fuel m t = some r) : reportTo m r = true := by
  unfold reportTo
  split_ifs
  · exact getD_true_of_ne (metasAdded_loaderAddMetaLayer fuel m t r h).2.1
  · rfl

/-- Where the nested meta-layers find their components, nothing is missing at any depth but at the top. -/
theorem noneMissing_iff (hnested : ∀ m, TransGen (Follows ctx sourceList) prop m → ComponentsFound sourceList m)
    (hm : ReflTransGen (Follows ctx sourceList) prop m) :
    NoneMissing ctx sourceList m ↔ ComponentsFound sourceList m := by
  refine ⟨fun h => h m .refl, fun h q hq => ?_⟩
  rcases reflTransGen_iff_eq_or_transGen.1 hq with rfl | hq
  · exact h
  · exact hnested q (TransGen.trans_right hm hq)

/-- What the expansion adds to the second list. -/
theorem loaderAddMetaLayer_expanded {fuel : ℕ} (hprop : prop ∈ sourceList) (hmeta : prop.isMeta = true)
    (ht : t.expanded.isSome) (h : loaderAddMetaLayer (.granting ctx sourceList) fuel prop t = some r) :
    ∃ e xs ys, t.expanded = some e ∧ r.2.2.expanded = some (e ++ ys) ∧ r.2.2.target = t.target ++ xs ∧
      (∀ y ∈ ys, y.isMeta = false ∧ Brings ctx sourceList prop y ∧
        loaderFindLayerNameInList y.layerName t.target = false) ∧
      (ys.map LayerProperties.layerName).Nodup := by
  have hok : r.1 ≠ .errorOutOfHostMemory := by
    rw [loaderAddMetaLayer_granting h]
    decide
  have hadded := loaderAddMetaLayer_expandsAll _ fuel prop hprop hmeta t ht r h hok
  obtain ⟨e, xs, ys, he, he', htarget, -, -, hys, hnd, -⟩ := hadded.guarded.appended
  refine ⟨e, xs, ys, he, he', htarget, fun y hy => ?_, hnd⟩
  obtain ⟨hcomes, hymeta, -, hnew⟩ := hys y hy
  rcases hcomes with ⟨hnot, -⟩ | ⟨-, hbrings⟩
  · rw [hmeta] at hnot
    cases hnot
  · exact ⟨hymeta, hbrings, hnew⟩

end Report

/-- **Missing components are reported** exactly if no nested meta-layer that the expansion gets to misses one. -/
theorem reportsMissing_iff {ctx : LayerContext} {sourceList : List LayerProperties}
    (hends : ExpansionTerminates ctx sourceList) {prop : LayerProperties} (hprop : prop ∈ sourceList)
    (hmeta : prop.isMeta = true) {t : LayerTargets} (ht : t.expanded.isSome) :
    (∃ fuel r, loaderAddMetaLayer (.granting ctx sourceList) fuel prop t = some r ∧
      ReportsMissing ctx sourceList prop t r) ↔
      ∀ m, TransGen (Follows ctx sourceList) prop m → ComponentsFound sourceList m := by
  constructor
  · rintro ⟨_, _, _, hreports⟩ m hm
    by_contra hmissing
    obtain ⟨p, -, hpm⟩ := TransGen.tail'_iff.1 hm
    obtain ⟨hmmeta, hmem⟩ := isMeta_of_follows hpm
    obtain ⟨fuel, hfuel⟩ := hends.metaLayer (fun _ => true) (fun _ => true) m hmem hmmeta t
    obtain ⟨r, hr⟩ := Option.isSome_iff_exists.1 hfuel
    have hfalse := hreports.reported m hm (fun hnone => hmissing (hnone m .refl)) fuel t r hr
    rw [reportTo_loaderAddMetaLayer hr] at hfalse
    cases hfalse
  · intro hnested
    obtain ⟨fuel, hfuel⟩ := hends.metaLayer (fun _ => true) (fun _ => true) prop hprop hmeta t
    obtain ⟨r, hr⟩ := Option.isSome_iff_exists.1 hfuel
    refine ⟨fuel, r, hr, ?_, fun m hm hmissing => ?_⟩
    · obtain ⟨e, xs, ys, he, he', htarget, hys, hnd⟩ := loaderAddMetaLayer_expanded hprop hmeta ht hr
      obtain ⟨xs', htarget', hxs⟩ := (metasAdded_loaderAddMetaLayer fuel prop t r hr).1
      obtain rfl := List.append_cancel_left (htarget.symm.trans htarget')
      refine ⟨e, xs, ys, he, he', htarget, hys, hnd, fun m hm => ?_⟩
      rw [hxs m hm]
      exact and_congr_right fun hreach => (noneMissing_iff hnested hreach).symm
    · exact absurd ((noneMissing_iff hnested hm.to_reflTransGen).2 (hnested m hm)) hmissing

/-! ### A nested meta-layer -/

/-- A meta-layer with a meta-layer that has one component. -/
def nestedMeta (component : String) : List LayerProperties :=
  [metaOf "M" ["N"], metaOf "N" [component], { LayerProperties.zero with layerName := "X" }]

/-- The expansion does not go on from the nested meta-layer. -/
theorem nestedMeta_terminates {component : String}
    (hlast : ∀ q, ¬ Follows plainContext (nestedMeta component) (metaOf "N" [component]) q) :
    ExpansionTerminates plainContext (nestedMeta component) := by
  rw [expansionTerminates_iff_no_cycle]
  intro p hcycle
  obtain ⟨o, -, hop⟩ := TransGen.tail'_iff.1 hcycle
  obtain ⟨hmeta, hmem⟩ := isMeta_of_follows hop
  obtain ⟨q, ⟨name, hname, hfind, -⟩, hqp⟩ := TransGen.head'_iff.1 hcycle
  simp only [nestedMeta, List.mem_cons, List.not_mem_nil, or_false] at hmem
  rcases hmem with rfl | rfl | rfl
  · -- the outer one leads to the nested one only
    obtain rfl := List.mem_singleton.1 hname
    obtain rfl : metaOf "N" [component] = q := Option.some.inj hfind
    rcases ReflTransGen.cases_head hqp with heq | ⟨_, hstep, -⟩
    · exact absurd (congrArg (·.layerName) heq) (by simp [metaOf])
    · exact hlast _ hstep
  · obtain ⟨_, hstep, -⟩ := TransGen.head'_iff.1 hcycle
    exact hlast _ hstep
  · cases hmeta

theorem nestedMeta_last {component : String}
    (hcomponent : (loaderFindLayerProperty component (nestedMeta component)).any LayerProperties.isMeta = false)
    (q : LayerProperties) : ¬ Follows plainContext (nestedMeta component) (metaOf "N" [component]) q := by
  intro hstep
  obtain ⟨hmeta, -⟩ := isMeta_of_follows hstep
  obtain ⟨name, hname, hfind, -⟩ := hstep
  obtain rfl := List.mem_singleton.1 hname
  rw [hfind, Option.any_some, hmeta] at hcomponent
  cases hcomponent

theorem reportsMissing_iff_nestedMeta :
    (∃ fuel r, loaderAddMetaLayer (.granting plainContext (nestedMeta "X")) fuel (metaOf "M" ["N"]) ⟨[], some []⟩ =
        some r ∧ ReportsMissing plainContext (nestedMeta "X") (metaOf "M" ["N"]) ⟨[], some []⟩ r) ↔
      ∀ m, TransGen (Follows plainContext (nestedMeta "X")) (metaOf "M" ["N"]) m →
        ComponentsFound (nestedMeta "X") m :=
  reportsMissing_iff (nestedMeta_terminates (nestedMeta_last rfl)) List.mem_cons_self rfl rfl

/-- Where the component of the nested meta-layer is missing, the outer one is added. -/
theorem not_reportsMissing :
    ExpansionTerminates plainContext (nestedMeta "Y") ∧
      ¬ ∃ fuel r, loaderAddMetaLayer (.granting plainContext (nestedMeta "Y")) fuel (metaOf "M" ["N"]) ⟨[], some []⟩ =
        some r ∧ ReportsMissing plainContext (nestedMeta "Y") (metaOf "M" ["N"]) ⟨[], some []⟩ r := by
  refine ⟨nestedMeta_terminates (nestedMeta_last rfl), ?_⟩
  rintro ⟨fuel, r, hr, ⟨e, xs, ys, -, -, htarget, -, -, hxs⟩, -⟩
  -- the outer meta-layer finds its component
  obtain ⟨xs', htarget', hxs'⟩ := (metasAdded_loaderAddMetaLayer fuel _ _ r hr).1
  obtain rfl := List.append_cancel_left (htarget.symm.trans htarget')
  have houter : metaOf "M" ["N"] ∈ xs := by
    refine (hxs' _ rfl).2 ⟨.refl, fun name hname => ?_⟩
    obtain rfl := List.mem_singleton.1 hname
    rfl
  have hnone := ((hxs _ rfl).1 houter).2
  have hstep : Follows plainContext (nestedMeta "Y") (metaOf "M" ["N"]) (metaOf "N" ["Y"]) :=
    ⟨"N", List.mem_cons_self, rfl, by decide⟩
  have hfound := hnone _ (.single hstep) "Y" List.mem_cons_self
  cases hfound

end VulkanLoader
