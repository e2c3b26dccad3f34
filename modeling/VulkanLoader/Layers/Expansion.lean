import VulkanLoader.Layers.Activate

/-!
# What an expansion adds

The expansion of a meta-layer adds, to what the lists hold, the layers that it brings: those that are a component of the
meta-layer, or of a meta-layer that the expansion gets to, and that pass the checks on the way.  Each of these is added
only if the first list has no layer of its name.
-/

namespace VulkanLoader

open Relation

/-- A component that the expansion adds itself. -/
def LayerContext.adds (ctx : LayerContext) (q : LayerProperties) : Bool :=
  !q.isMeta && loaderLayerIsAvailable ctx.filters q && (q.isExplicit || loaderImplicitLayerIsEnabled ctx q)

/-- The expansion of the meta-layer `m` comes to add the layer `q`. -/
def Brings (ctx : LayerContext) (sourceList : List LayerProperties) (m q : LayerProperties) : Prop :=
  ∃ m', ReflTransGen (Follows ctx sourceList) m m' ∧
    ∃ name ∈ m'.componentLayerNames, loaderFindLayerProperty name sourceList = some q ∧ ctx.adds q = true

theorem mem_of_brings {ctx : LayerContext} {sourceList : List LayerProperties} {m q : LayerProperties}
    (h : Brings ctx sourceList m q) : q ∈ sourceList ∧ q.isMeta = false := by
  obtain ⟨m', -, name, -, hfind, hadds⟩ := h
  refine ⟨(mem_of_loaderFindLayerProperty hfind).1, ?_⟩
  simp only [LayerContext.adds, Bool.and_eq_true, Bool.not_eq_true'] at hadds
  exact hadds.1.1

/-- Layers are appended to the lists: to the second one only such as satisfy `P`, none of them a meta-layer and each of
a name that the first list did not have; to the first one a meta-layer only with all that it brings. -/
structure Guarded (ctx : LayerContext) (sourceList : List LayerProperties) (P : LayerProperties → Prop)
    (t t' : LayerTargets) : Prop where
  appended : ∃ e xs ys, t.expanded = some e ∧ t'.expanded = some (e ++ ys) ∧ t'.target = t.target ++ xs ∧
    (∀ x ∈ xs, x ∈ sourceList) ∧ (∀ x ∈ xs, x.isMeta = false → x ∈ ys) ∧
    (∀ y ∈ ys, P y ∧ y.isMeta = false ∧ y ∈ xs ∧ loaderFindLayerNameInList y.layerName t.target = false) ∧
    (ys.map LayerProperties.layerName).Nodup ∧
    ∀ x ∈ xs, x.isMeta = true → ∀ q, Brings ctx sourceList x q →
      loaderFindLayerNameInList q.layerName t'.target = true

section Guarded

variable {ctx : LayerContext} {sourceList : List LayerProperties} {P Q : LayerProperties → Prop} {t t' t'' : LayerTargets}
  {prop : LayerProperties}

theorem loaderFindLayerNameInList_eq_true {name : String} {l : List LayerProperties} :
    loaderFindLayerNameInList name l = true ↔ ∃ q ∈ l, q.layerName = name := by
  simp only [loaderFindLayerNameInList, List.any_eq_true, beq_iff_eq]
  exact exists_congr fun q => and_congr_right fun _ => eq_comm

theorem loaderFindLayerNameInList_append {name : String} {l l' : List LayerProperties} :
    loaderFindLayerNameInList name (l ++ l') =
      (loaderFindLayerNameInList name l || loaderFindLayerNameInList name l') := List.any_append

theorem Guarded.mono (h : Guarded ctx sourceList P t t') (hPQ : ∀ q, P q → Q q) : Guarded ctx sourceList Q t t' := by
  obtain ⟨e, xs, ys, he, he', ht, hxs, hmeta, hys, hnd, hbrings⟩ := h.appended
  exact ⟨e, xs, ys, he, he', ht, hxs, hmeta, fun y hy => ⟨hPQ y (hys y hy).1, (hys y hy).2⟩, hnd, hbrings⟩

theorem Guarded.refl {e : List LayerProperties} (he : t.expanded = some e) : Guarded ctx sourceList P t t :=
  ⟨e, [], [], he, by rw [he, List.append_nil], by rw [List.append_nil], by simp, by simp, by simp, List.nodup_nil,
    by simp⟩

/-- What the first list has stays there. -/
theorem Guarded.target_subset (h : Guarded ctx sourceList P t t') : t.target ⊆ t'.target := by
  obtain ⟨-, xs, -, -, -, ht, -⟩ := h.appended
  rw [ht]
  exact List.subset_append_left _ _

theorem Guarded.find_mono (h : Guarded ctx sourceList P t t') {name : String}
    (hname : loaderFindLayerNameInList name t.target = true) : loaderFindLayerNameInList name t'.target = true := by
  obtain ⟨q, hq, rfl⟩ := loaderFindLayerNameInList_eq_true.1 hname
  exact loaderFindLayerNameInList_eq_true.2 ⟨q, h.target_subset hq, rfl⟩

theorem Guarded.expanded_isSome (h : Guarded ctx sourceList P t t') : t'.expanded.isSome := by
  obtain ⟨e, xs, ys, -, he', -⟩ := h.appended
  rw [he']
  rfl

theorem Guarded.trans (h : Guarded ctx sourceList P t t') (h' : Guarded ctx sourceList P t' t'') :
    Guarded ctx sourceList P t t'' := by
  obtain ⟨e, xs, ys, he, he', ht, hxs, hmeta, hys, hnd, hbrings⟩ := h.appended
  obtain ⟨e₁, xs', ys', he₁, he₁', ht', hxs', hmeta', hys', hnd', hbrings'⟩ := h'.appended
  obtain rfl := Option.some.inj (he'.symm.trans he₁)
  have hfresh : ∀ y ∈ ys', loaderFindLayerNameInList y.layerName t.target = false ∧
      loaderFindLayerNameInList y.layerName xs = false := by
    intro y hy
    have hnot := (hys' y hy).2.2.2
    rwa [ht, loaderFindLayerNameInList_append, Bool.or_eq_false_iff] at hnot
  refine ⟨e, xs ++ xs', ys ++ ys', he, by rw [he₁', List.append_assoc], by rw [ht', ht, List.append_assoc],
    fun x hx => ?_, fun x hx hm => ?_, fun y hy => ?_, ?_, fun x hx hm q hq => ?_⟩
  · rcases List.mem_append.1 hx with hx | hx
    · exact hxs x hx
    · exact hxs' x hx
  · rcases List.mem_append.1 hx with hx | hx
    · exact List.mem_append_left _ (hmeta x hx hm)
    · exact List.mem_append_right _ (hmeta' x hx hm)
  · rcases List.mem_append.1 hy with hy | hy
    · obtain ⟨hP, hm, hx, hnot⟩ := hys y hy
      exact ⟨hP, hm, List.mem_append_left _ hx, hnot⟩
    · obtain ⟨hP, hm, hx, -⟩ := hys' y hy
      exact ⟨hP, hm, List.mem_append_right _ hx, (hfresh y hy).1⟩
  · -- a name that was added before is in the first list
    rw [List.map_append, List.nodup_append]
    refine ⟨hnd, hnd', ?_⟩
    rintro _ ha _ hb rfl
    obtain ⟨y, hy, hyn⟩ := List.mem_map.1 ha
    obtain ⟨y', hy', hyn'⟩ := List.mem_map.1 hb
    have hfound : loaderFindLayerNameInList y'.layerName xs = true :=
      loaderFindLayerNameInList_eq_true.2 ⟨y, (hys y hy).2.2.1, hyn.trans hyn'.symm⟩
    rw [(hfresh y' hy').2] at hfound
    cases hfound
  · rcases List.mem_append.1 hx with hx | hx
    · exact h'.find_mono (hbrings x hx hm q hq)
    · exact hbrings' x hx hm q hq

variable {a : Activation}

/-- A request for memory is granted or refused. -/
theorem addToBoth_cases (prop : LayerProperties) (he : t.expanded.isSome)
    (hok : (a.addToBoth prop t).1 ≠ .errorOutOfHostMemory) :
    ∃ e, t.expanded = some e ∧ a.addToBoth prop t = (.success, ⟨t.target ++ [prop], some (e ++ [prop])⟩) := by
  obtain ⟨e, he⟩ := Option.isSome_iff_exists.1 he
  obtain ⟨target, expanded⟩ := t
  obtain rfl : expanded = some e := he
  refine ⟨e, rfl, ?_⟩
  by_cases htarget : a.targetGrows target.length = true
  · by_cases hexpanded : a.expandedGrows e.length = true
    · simp [Activation.addToBoth, Activation.addToTarget, loaderAddLayerPropertiesToList, htarget, hexpanded]
    · refine absurd ?_ hok
      simp [Activation.addToBoth, Activation.addToTarget, loaderAddLayerPropertiesToList, htarget, hexpanded]
  · refine absurd ?_ hok
    simp [Activation.addToBoth, Activation.addToTarget, loaderAddLayerPropertiesToList, htarget]

theorem addToTarget_cases (prop : LayerProperties) (hok : (a.addToTarget prop t).1 ≠ .errorOutOfHostMemory) :
    a.addToTarget prop t = (.success, { t with target := t.target ++ [prop] }) := by
  by_cases htarget : a.targetGrows t.target.length = true
  · simp [Activation.addToTarget, loaderAddLayerPropertiesToList, htarget]
  · refine absurd ?_ hok
    simp [Activation.addToTarget, loaderAddLayerPropertiesToList, htarget]

/-- A layer of a new name is added to both lists. -/
theorem guarded_addToBoth (hmem : prop ∈ sourceList) (hmeta : prop.isMeta = false) (hP : P prop)
    (hnot : loaderFindLayerNameInList prop.layerName t.target = false) (he : t.expanded.isSome)
    (hok : (a.addToBoth prop t).1 ≠ .errorOutOfHostMemory) : Guarded ctx sourceList P t (a.addToBoth prop t).2 := by
  obtain ⟨e, he, heq⟩ := addToBoth_cases prop he hok
  rw [heq]
  refine ⟨e, [prop], [prop], he, rfl, rfl, ?_, ?_, ?_, List.nodup_singleton _, ?_⟩
  · simpa using hmem
  · simp
  · simpa using ⟨hP, hmeta, hnot⟩
  · simp [hmeta]

/-- A meta-layer is added to the first list, after what it brings. -/
theorem guarded_addToTarget (hmem : prop ∈ sourceList) (hmeta : prop.isMeta = true)
    (hbrings : ∀ q, Brings ctx sourceList prop q → loaderFindLayerNameInList q.layerName t.target = true) (he : t.expanded.isSome)
    (hok : (a.addToTarget prop t).1 ≠ .errorOutOfHostMemory) : Guarded ctx sourceList P t (a.addToTarget prop t).2 := by
  obtain ⟨e, he⟩ := Option.isSome_iff_exists.1 he
  rw [addToTarget_cases prop hok]
  refine ⟨e, [prop], [], he, by rw [List.append_nil]; exact he, rfl, by simpa using hmem, by simp [hmeta], by simp,
    List.nodup_nil, fun x hx _ q hq => ?_⟩
  rw [List.mem_singleton.1 hx] at hq
  rw [loaderFindLayerNameInList_append, hbrings q hq]
  rfl

end Guarded

/-! ### The layers that come with a layer -/

/-- What adding a layer adds: the layer itself, or what its expansion brings. -/
def ComesWith (ctx : LayerContext) (sourceList : List LayerProperties) (p q : LayerProperties) : Prop :=
  (p.isMeta = false ∧ q = p) ∨ (p.isMeta = true ∧ Brings ctx sourceList p q)

/-- All that comes with the layer is in the list. -/
def Brought (a : Activation) (p : LayerProperties) (target : List LayerProperties) : Prop :=
  ∀ q, ComesWith a.ctx a.sourceList p q → loaderFindLayerNameInList q.layerName target = true

/-- The lists after a layer was added, all that comes with it and nothing else. -/
structure Added (a : Activation) (p : LayerProperties) (t t' : LayerTargets) : Prop where
  guarded : Guarded a.ctx a.sourceList (ComesWith a.ctx a.sourceList p) t t'
  complete : Brought a p t'.target

section Components

variable {a : Activation} {f : LayerProperties → LayerTargets → Option MetaResult} {m p q : LayerProperties}
  {P : LayerProperties → Prop} {t t' : LayerTargets}

/-- What comes with a component that passes the checks is brought by the meta-layer. -/
theorem brings_of_component {name : String} (hname : name ∈ m.componentLayerNames)
    (hfind : loaderFindLayerProperty name a.sourceList = some p)
    (havail : loaderLayerIsAvailable a.ctx.filters p = true)
    (henabled : p.isExplicit = true ∨ loaderImplicitLayerIsEnabled a.ctx p = true)
    (h : ComesWith a.ctx a.sourceList p q) : Brings a.ctx a.sourceList m q := by
  rcases h with ⟨hmeta, rfl⟩ | ⟨hmeta, m', hpath, hm'⟩
  · refine ⟨m, .refl, name, hname, hfind, ?_⟩
    simpa [LayerContext.adds, hmeta, havail] using henabled
  · refine ⟨m', .head ⟨name, hname, hfind, ?_⟩ hpath, hm'⟩
    simpa [LayerContext.expands, hmeta, havail] using henabled

/-- What a call for a meta-layer does. -/
def ExpandsAll (a : Activation) (f : LayerProperties → LayerTargets → Option MetaResult) : Prop :=
  ∀ p ∈ a.sourceList, p.isMeta = true → ∀ t, t.expanded.isSome → ∀ r, f p t = some r →
    r.1 ≠ .errorOutOfHostMemory → Added a p t r.2.2

/-- A layer of a new name is added. -/
theorem added_addToBoth (hmem : p ∈ a.sourceList) (hmeta : p.isMeta = false)
    (hnot : loaderFindLayerNameInList p.layerName t.target = false) (he : t.expanded.isSome)
    (hok : (a.addToBoth p t).1 ≠ .errorOutOfHostMemory) : Added a p t (a.addToBoth p t).2 := by
  refine ⟨guarded_addToBoth hmem hmeta (Or.inl ⟨hmeta, rfl⟩) hnot he hok, fun q hq => ?_⟩
  obtain ⟨e, -, heq⟩ := addToBoth_cases p he hok
  rw [heq]
  rcases hq with ⟨-, rfl⟩ | ⟨hm, -⟩
  · exact loaderFindLayerNameInList_eq_true.2 ⟨q, by simp, rfl⟩
  · rw [hmeta] at hm
    cases hm

/-- A layer whose name is in the list is there already. -/
theorem added_of_find (hmeta : p.isMeta = false) (hfind : loaderFindLayerNameInList p.layerName t.target = true)
    (he : t.expanded.isSome) : Added a p t t := by
  obtain ⟨e, he⟩ := Option.isSome_iff_exists.1 he
  refine ⟨.refl he, fun q hq => ?_⟩
  rcases hq with ⟨-, rfl⟩ | ⟨hm, -⟩
  · exact hfind
  · rw [hmeta] at hm
    cases hm

theorem loaderAddImplicitLayer_added (hf : ExpandsAll a f) (hmem : p ∈ a.sourceList) (he : t.expanded.isSome)
    (henabled : loaderImplicitLayerIsEnabled a.ctx p = true) {r : VkResult × LayerTargets}
    (h : loaderAddImplicitLayer a f p t = some r) (hok : r.1 ≠ .errorOutOfHostMemory) : Added a p t r.2 := by
  unfold loaderAddImplicitLayer at h
  rw [if_pos henabled] at h
  split_ifs at h with hmeta hfind
  · obtain rfl := Option.some.inj h
    exact added_of_find (by simpa using hmeta) hfind he
  · obtain rfl := Option.some.inj h
    exact added_addToBoth hmem (by simpa using hmeta) (by simpa using hfind) he hok
  · obtain ⟨r, hr, rfl⟩ := Option.map_eq_some_iff.1 h
    exact hf p hmem (by simpa using hmeta) t he r hr hok

theorem loaderAddImplicitLayer_of_not_enabled (henabled : ¬ loaderImplicitLayerIsEnabled a.ctx p = true) :
    loaderAddImplicitLayer a f p t = some (.success, t) := by
  unfold loaderAddImplicitLayer
  rw [if_neg henabled]

/-- What comes with each component that the names find and that passes the checks is in the list. -/
def Covers (a : Activation) (names : List String) (target : List LayerProperties) : Prop :=
  ∀ name ∈ names, ∀ p, loaderFindLayerProperty name a.sourceList = some p →
    loaderLayerIsAvailable a.ctx.filters p = true →
      (p.isExplicit = true ∨ loaderImplicitLayerIsEnabled a.ctx p = true) → Brought a p target

theorem covers_cons {name : String} {names : List String} {target : List LayerProperties}
    (hhead : ∀ p, loaderFindLayerProperty name a.sourceList = some p → loaderLayerIsAvailable a.ctx.filters p = true →
      (p.isExplicit = true ∨ loaderImplicitLayerIsEnabled a.ctx p = true) → Brought a p target)
    (htail : Covers a names target) : Covers a (name :: names) target := by
  intro n hn
  rcases List.mem_cons.1 hn with rfl | hn
  · exact hhead
  · exact htail n hn

/-- The next component adds nothing. -/
theorem covers_skip {name : String} {names : List String}
    (hnone : ∀ p, loaderFindLayerProperty name a.sourceList = some p → loaderLayerIsAvailable a.ctx.filters p = true →
      (p.isExplicit = true ∨ loaderImplicitLayerIsEnabled a.ctx p = true) → False)
    (hrest : Guarded a.ctx a.sourceList (Brings a.ctx a.sourceList m) t t' ∧ Covers a names t'.target) :
    Guarded a.ctx a.sourceList (Brings a.ctx a.sourceList m) t t' ∧ Covers a (name :: names) t'.target :=
  ⟨hrest.1, covers_cons (fun p hp havail henabled => (hnone p hp havail henabled).elim) hrest.2⟩

/-- The next component is added. -/
theorem covers_added {name : String} {names : List String} {t₁ : LayerTargets} (hname : name ∈ m.componentLayerNames)
    (hp : loaderFindLayerProperty name a.sourceList = some p) (havail : loaderLayerIsAvailable a.ctx.filters p = true)
    (henabled : p.isExplicit = true ∨ loaderImplicitLayerIsEnabled a.ctx p = true) (hadded : Added a p t t₁)
    (hrest : Guarded a.ctx a.sourceList (Brings a.ctx a.sourceList m) t₁ t' ∧ Covers a names t'.target) :
    Guarded a.ctx a.sourceList (Brings a.ctx a.sourceList m) t t' ∧ Covers a (name :: names) t'.target := by
  obtain ⟨hg, hc⟩ := hrest
  have hbrings := hadded.guarded.mono fun q => brings_of_component hname hp havail henabled
  refine ⟨hbrings.trans hg, covers_cons (fun p' hp' _ _ q hq => ?_) hc⟩
  obtain rfl := Option.some.inj (hp.symm.trans hp')
  exact hg.find_mono (hadded.complete q hq)

/-- The loop over the component names of a meta-layer. -/
theorem addComponents_guarded (hf : ExpandsAll a f) {names : List String}
    (hnames : ∀ name ∈ names, name ∈ m.componentLayerNames) {found : Bool} (he : t.expanded.isSome)
    {r : VkResult × Bool × LayerTargets} (h : addComponents a f names found t = some r)
    (hok : r.1 ≠ .errorOutOfHostMemory) :
    Guarded a.ctx a.sourceList (Brings a.ctx a.sourceList m) t r.2.2 ∧ Covers a names r.2.2.target := by
  induction names generalizing found t with
  | nil =>
    obtain rfl := Option.some.inj h
    obtain ⟨e, he⟩ := Option.isSome_iff_exists.1 he
    exact ⟨.refl he, List.forall_mem_nil _⟩
  | cons name names ih =>
    have htail : ∀ n ∈ names, n ∈ m.componentLayerNames := fun n hn => hnames n (List.mem_cons_of_mem _ hn)
    have hname := hnames name List.mem_cons_self
    unfold addComponents at h
    split at h
    · rename_i hp
      refine covers_skip (fun p hp' => ?_) (ih htail he h)
      rw [hp] at hp'
      cases hp'
    · rename_i p hp
      have hmem := (mem_of_loaderFindLayerProperty hp).1
      have hp' : ∀ p', loaderFindLayerProperty name a.sourceList = some p' → p' = p := fun p' h' =>
        Option.some.inj (h'.symm.trans hp)
      -- the component is added, and then what the other names add
      have hstep : ∀ t₁ found', loaderLayerIsAvailable a.ctx.filters p = true →
          (p.isExplicit = true ∨ loaderImplicitLayerIsEnabled a.ctx p = true) → Added a p t t₁ →
          addComponents a f names found' t₁ = some r → _ := fun t₁ found' havail henabled hadded hrest =>
        covers_added hname hp havail henabled hadded (ih htail hadded.guarded.expanded_isSome hrest)
      dsimp only at h
      split_ifs at h with havail hexplicit hmeta hfound hoom
      · refine covers_skip (fun p' h' havail' _ => ?_) (ih htail he h)
        obtain rfl := hp' p' h'
        simp [havail'] at havail
      · -- an implicit layer
        obtain ⟨s, hs, h⟩ := Option.bind_eq_some_iff.1 h
        by_cases henabled : loaderImplicitLayerIsEnabled a.ctx p = true
        · split_ifs at h with hoom
          · obtain rfl := Option.some.inj h
            exact absurd hoom hok
          · exact hstep s.2 found (by simpa using havail) (Or.inr henabled)
              (loaderAddImplicitLayer_added hf hmem he henabled hs hoom) h
        · rw [loaderAddImplicitLayer_of_not_enabled henabled] at hs
          obtain rfl := Option.some.inj hs
          rw [if_neg (by simp)] at h
          refine covers_skip (fun p' h' _ henabled' => ?_) (ih htail he h)
          obtain rfl := hp' p' h'
          simp [henabled] at henabled'
          simp [henabled'] at hexplicit
      · -- a meta-layer
        obtain ⟨s, hs, h⟩ := Option.bind_eq_some_iff.1 h
        split_ifs at h with hoom
        · obtain rfl := Option.some.inj h
          exact absurd hoom hok
        · exact hstep s.2.2 _ (by simpa using havail) (Or.inl (by simpa using hexplicit))
            (hf p hmem hmeta t he s hs hoom) h
      · obtain rfl := Option.some.inj h
        exact absurd hoom hok
      · exact hstep _ found (by simpa using havail) (Or.inl (by simpa using hexplicit))
          (added_addToBoth hmem (by simpa using hmeta) (by simpa using hfound) he hoom) h
      · exact hstep t found (by simpa using havail) (Or.inl (by simpa using hexplicit))
          (added_of_find (by simpa using hmeta) (by simpa using hfound) he) h

/-- **The expansion of a meta-layer** adds what it brings, and nothing else. -/
theorem loaderAddMetaLayer_expandsAll (a : Activation) (fuel : ℕ) : ExpandsAll a (loaderAddMetaLayer a fuel) := by
  induction fuel with
  | zero =>
    intro p _ _ t _ r h
    cases h
  | succ fuel ih =>
    intro p hmem hmeta t he r h hok
    unfold loaderAddMetaLayer at h
    obtain ⟨s, hs, rfl⟩ := Option.map_eq_some_iff.1 h
    unfold addMetaLayerItself at hok ⊢
    by_cases hoom : s.1 = .errorOutOfHostMemory
    · rw [if_pos hoom] at hok
      exact absurd hoom hok
    rw [if_neg hoom] at hok ⊢
    obtain ⟨hg, hc⟩ := addComponents_guarded ih (fun _ hn => hn) he hs hoom
    have hcomplete : ∀ q, Brings a.ctx a.sourceList p q → loaderFindLayerNameInList q.layerName s.2.2.target = true := by
      rintro q ⟨m', hpath, hm'⟩
      rcases ReflTransGen.cases_head hpath with rfl | ⟨c, ⟨name, hname, hfind, hexpands⟩, hpath⟩
      · obtain ⟨name, hname, hfind, hadds⟩ := hm'
        simp only [LayerContext.adds, Bool.and_eq_true, Bool.or_eq_true, Bool.not_eq_true'] at hadds
        exact hc name hname q hfind hadds.1.2 hadds.2 q (Or.inl ⟨hadds.1.1, rfl⟩)
      · simp only [LayerContext.expands, Bool.and_eq_true, Bool.or_eq_true] at hexpands
        exact hc name hname c hfind hexpands.1.2 hexpands.2 q (Or.inr ⟨hexpands.1.1, m', hpath, hm'⟩)
    have hadded : ∀ t', Guarded a.ctx a.sourceList (Brings a.ctx a.sourceList p) s.2.2 t' → Added a p t t' := by
      intro t' hg'
      refine ⟨(hg.trans hg').mono fun q hq => Or.inr ⟨hmeta, hq⟩, fun q hq => ?_⟩
      rcases hq with ⟨hm, -⟩ | ⟨-, hq⟩
      · rw [hmeta] at hm
        cases hm
      · exact hg'.find_mono (hcomplete q hq)
    split_ifs at hok ⊢ with hfound
    · dsimp only at hok ⊢
      split_ifs at hok ⊢ with hfull
      · exact absurd hfull hok
      · exact hadded _ (guarded_addToTarget hmem hmeta hcomplete hg.expanded_isSome hfull)
    · obtain ⟨e, he'⟩ := Option.isSome_iff_exists.1 hg.expanded_isSome
      exact hadded _ (.refl he')

/-- Adding a layer, of a new name if it is not a meta-layer. -/
theorem addLayer_added {fuel : ℕ} (hmem : p ∈ a.sourceList) (he : t.expanded.isSome)
    (hnot : loaderFindLayerNameInList p.layerName t.target = false) {r : VkResult × LayerTargets}
    (h : a.addLayer fuel p t = some r) (hok : r.1 ≠ .errorOutOfHostMemory) : Added a p t r.2 := by
  unfold Activation.addLayer at h
  split_ifs at h with hmeta
  · obtain rfl := Option.some.inj h
    exact added_addToBoth hmem (by simpa using hmeta) hnot he hok
  · obtain ⟨s, hs, rfl⟩ := Option.map_eq_some_iff.1 h
    exact loaderAddMetaLayer_expandsAll a fuel p hmem (by simpa using hmeta) t he s hs hok

end Components

/-! ### A stage of the activation -/

/-- One of the layers brings `q`. -/
def ByLayers (a : Activation) (W : LayerProperties → Prop) (q : LayerProperties) : Prop :=
  ∃ p ∈ a.sourceList, W p ∧ ComesWith a.ctx a.sourceList p q

/-- A stage adds what the layers that satisfy `W` bring and nothing else, and it has come to those in `props`. -/
structure Stage (a : Activation) (W : LayerProperties → Prop) (props : List LayerProperties) (t t' : LayerTargets) :
    Prop where
  guarded : Guarded a.ctx a.sourceList (ByLayers a W) t t'
  brought : ∀ p ∈ props, W p → Brought a p t'.target

section Stage

variable {a : Activation} {W V : LayerProperties → Prop} {props : List LayerProperties} {t t₁ t' : LayerTargets}
  {p : LayerProperties} {P : LayerProperties → Prop}

theorem Guarded.brought (h : Guarded a.ctx a.sourceList P t t') (hb : Brought a p t.target) : Brought a p t'.target :=
  fun q hq => h.find_mono (hb q hq)

/-- A stage that adds nothing. -/
theorem Stage.refl (he : t.expanded.isSome) (hbrought : ∀ p ∈ props, W p → Brought a p t.target) :
    Stage a W props t t := by
  obtain ⟨e, he⟩ := Option.isSome_iff_exists.1 he
  exact ⟨.refl he, hbrought⟩

theorem Stage.nil (he : t.expanded.isSome) : Stage a W [] t t := .refl he (List.forall_mem_nil _)

/-- A stage that is for one layer. -/
theorem Stage.of_added (hmem : p ∈ a.sourceList) (hW : W p) (hone : ∀ p' ∈ props, W p' → p' = p)
    (hadded : Added a p t t') : Stage a W props t t' := by
  refine ⟨hadded.guarded.mono fun q hq => ⟨p, hmem, hW, hq⟩, fun p' hp' hW' => ?_⟩
  obtain rfl := hone p' hp' hW'
  exact hadded.complete

/-- The stage adds its next layer. -/
theorem Stage.cons_added (hmem : p ∈ a.sourceList) (hW : W p) (hadded : Added a p t t₁)
    (hrest : Stage a W props t₁ t') : Stage a W (p :: props) t t' := by
  refine ⟨(hadded.guarded.mono fun q hq => ⟨p, hmem, hW, hq⟩).trans hrest.guarded, fun p' hp' hW' => ?_⟩
  rcases List.mem_cons.1 hp' with rfl | hp'
  · exact hrest.guarded.brought hadded.complete
  · exact hrest.brought p' hp' hW'

/-- The stage leaves its next layer out, which it is not for or is there already. -/
theorem Stage.cons_skip (hskip : W p → Brought a p t.target) (hrest : Stage a W props t t') :
    Stage a W (p :: props) t t' := by
  refine ⟨hrest.guarded, fun p' hp' hW' => ?_⟩
  rcases List.mem_cons.1 hp' with rfl | hp'
  · exact hrest.guarded.brought (hskip hW')
  · exact hrest.brought p' hp' hW'

/-- Two stages one after the other. -/
theorem Stage.trans {W' : LayerProperties → Prop} (h : Stage a W props t t₁) (h' : Stage a W' props t₁ t')
    (hV : ∀ p, V p ↔ W p ∨ W' p) : Stage a V props t t' := by
  have hmono : ∀ {U : LayerProperties → Prop}, (∀ p, U p → V p) → ∀ q, ByLayers a U q → ByLayers a V q := by
    rintro U hU q ⟨p, hmem, hp, hq⟩
    exact ⟨p, hmem, hU p hp, hq⟩
  refine ⟨(h.guarded.mono ?_).trans (h'.guarded.mono ?_), fun p hp hVp => ?_⟩
  · exact hmono fun p hp => (hV p).2 (Or.inl hp)
  · exact hmono fun p hp => (hV p).2 (Or.inr hp)
  · rcases (hV p).1 hVp with hW | hW
    · exact h'.guarded.brought (h.brought p hp hW)
    · exact h'.brought p hp hW

/-- What comes with a layer of the first list is there, where the lists were filled from empty ones. -/
theorem brought_of_find (hnd : (a.sourceList.map LayerProperties.layerName).Nodup)
    (hg : Guarded a.ctx a.sourceList P .empty t) (hmem : p ∈ a.sourceList)
    (hfind : loaderFindLayerNameInList p.layerName t.target = true) : Brought a p t.target := by
  rintro q (⟨-, rfl⟩ | ⟨hmeta, hq⟩)
  · exact hfind
  · obtain ⟨e, xs, ys, -, -, ht, hxs, -, -, -, hbrings⟩ := hg.appended
    obtain ⟨x, hx, hname⟩ := loaderFindLayerNameInList_eq_true.1 hfind
    have hx' : x ∈ xs := by simpa [ht, LayerTargets.empty] using hx
    -- layers of one name are one
    obtain rfl : x = p := List.inj_on_of_nodup_map hnd (hxs x hx') hmem hname
    exact hbrings x hx' hmeta q hq

/-- A layer that comes with another one is a layer of the list and no meta-layer. -/
theorem mem_of_byLayers {q : LayerProperties} (h : ByLayers a W q) : q ∈ a.sourceList ∧ q.isMeta = false := by
  obtain ⟨p, hmem, -, ⟨hmeta, rfl⟩ | ⟨-, hbrings⟩⟩ := h
  · exact ⟨hmem, hmeta⟩
  · exact mem_of_brings hbrings

/-- **What a stage leaves**, where the lists were filled from empty ones: after it the second list has what it had and
what the layers of the stage bring. -/
theorem Stage.mem_expanded (hnd : (a.sourceList.map LayerProperties.layerName).Nodup)
    (hg : Guarded a.ctx a.sourceList P .empty t) (h : Stage a W a.sourceList t t') {e : List LayerProperties}
    (he : t.expanded = some e) :
    ∃ ys, t'.expanded = some (e ++ ys) ∧ ∀ q, q ∈ e ++ ys ↔ q ∈ e ∨ ByLayers a W q := by
  obtain ⟨e', xs, ys, he', hys, -, -, -, hadded, -⟩ := h.guarded.appended
  obtain rfl := Option.some.inj (he.symm.trans he')
  refine ⟨ys, hys, fun q => ⟨fun hq => ?_, fun hq => ?_⟩⟩
  · exact (List.mem_append.1 hq).imp_right fun hq => (hadded q hq).1
  · rcases hq with hq | hq
    · exact List.mem_append_left _ hq
    · obtain ⟨hmem, hmeta⟩ := mem_of_byLayers hq
      obtain ⟨p, hp, hW, hcomes⟩ := hq
      -- a layer of its name is in the first list, so it is that one
      have hall : Guarded a.ctx a.sourceList (fun _ => True) .empty t' :=
        (hg.mono fun _ _ => trivial).trans (h.guarded.mono fun _ _ => trivial)
      obtain ⟨e₀, xs, zs, he₀, hzs, ht, hxs, hnonmeta, -⟩ := hall.appended
      obtain ⟨x, hx, hname⟩ := loaderFindLayerNameInList_eq_true.1 (h.brought p hp hW q hcomes)
      have hx' : x ∈ xs := by simpa [ht, LayerTargets.empty] using hx
      obtain rfl : x = q := List.inj_on_of_nodup_map hnd (hxs x hx') hmem hname
      obtain rfl : e₀ = [] := (Option.some.inj he₀).symm
      rw [Option.some.inj (hys.symm.trans hzs)]
      exact hnonmeta x hx' hmeta

/-- Where the lists were filled from empty ones, the layers of the second one have distinct names. -/
theorem Guarded.nodup_expanded (h : Guarded a.ctx a.sourceList P .empty t) {e : List LayerProperties}
    (he : t.expanded = some e) : (e.map LayerProperties.layerName).Nodup := by
  obtain ⟨e₀, -, ys, he₀, hys, -, -, -, -, hnd, -⟩ := h.appended
  obtain rfl : e₀ = [] := (Option.some.inj he₀).symm
  obtain rfl := Option.some.inj (he.symm.trans hys)
  exact hnd

end Stage

end VulkanLoader
