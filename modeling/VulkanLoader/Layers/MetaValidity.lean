import VulkanLoader.Layers.Verify
import VulkanLoader.Lib.Trees

/-!
# What the check of meta-layers decides

A meta-layer is valid if all component names that it leads to are names of layers of the list, each layer is of at least
the version of the meta-layer that names it, and no cycle is below it (`MetaValid`).

`verify_meta_layer_component_layers` never clears a mark in `already_checked_meta_layers`, and takes every marked layer
for one that leads back to itself.  It passes exactly the valid meta-layers below which no meta-layer is named twice
(`verifyMetaLayer_iff`).
-/

namespace VulkanLoader

open Relation
open Lib (Child AcyclicBelow OnceBelow)

/-- The name is that of a meta-layer. -/
def isMetaName (layers : List LayerProperties) (name : String) : Bool :=
  (loaderFindLayerProperty name layers).any LayerProperties.isMeta

/-- The meta-layers among the components of the layer of a name. -/
def metaComponents (layers : List LayerProperties) (name : String) : List String :=
  match loaderFindLayerProperty name layers with
  | none => []
  | some prop => prop.componentLayerNames.filter (isMetaName layers)

/-- The API version of `c`, major and minor, is at least that of `p`. -/
def VersionAtLeast (p c : LayerProperties) : Prop :=
  p.specVersion.major < c.specVersion.major ∨
    (p.specVersion.major = c.specVersion.major ∧ p.specVersion.minor ≤ c.specVersion.minor)

/-- The components of a layer are in the list, with such a version. -/
def ComponentsUsable (layers : List LayerProperties) (prop : LayerProperties) : Prop :=
  ∀ name ∈ prop.componentLayerNames, ∃ compProp, loaderFindLayerProperty name layers = some compProp ∧
    VersionAtLeast prop compProp

/-- All layers below a name have their components. -/
def UsableBelow (layers : List LayerProperties) (name : String) : Prop :=
  ∀ n, ReflTransGen (Child (metaComponents layers)) name n → ∀ prop, loaderFindLayerProperty n layers = some prop →
    ComponentsUsable layers prop

/-- A meta-layer that is valid. -/
structure MetaValid (layers : List LayerProperties) (name : String) : Prop where
  usable : UsableBelow layers name
  acyclic : AcyclicBelow (metaComponents layers) name

/-- No meta-layer below the name is named twice, by two meta-layers or by one. -/
abbrev NamedOnce (layers : List LayerProperties) (name : String) : Prop := OnceBelow (metaComponents layers) name

theorem loaderCheckVersionMeetsRequired_iff {p c : LayerProperties} :
    loaderCheckVersionMeetsRequired (loaderMakeVersion p.specVersion) (loaderMakeVersion c.specVersion) = true ↔
      VersionAtLeast p c := by
  simp only [loaderCheckVersionMeetsRequired, loaderMakeVersion, VersionAtLeast, Bool.or_eq_true, Bool.and_eq_true,
    decide_eq_true_eq, beq_iff_eq, ge_iff_le, gt_iff_lt, Nat.le_refl, and_true]
  omega

/-- The place of the layer of a name. -/
def placeOf (layers : List LayerProperties) (name : String) : ℕ := (lastIndexOf name layers).getD 0

section Places

variable {layers : List LayerProperties} {name : String} {p : LayerProperties} {i : ℕ}

/-- Where names are distinct, a layer is the one that its name finds. -/
theorem loaderFindLayerProperty_of_mem (hnd : (layers.map LayerProperties.layerName).Nodup) (hp : p ∈ layers) :
    loaderFindLayerProperty p.layerName layers = some p := by
  rcases hfind : loaderFindLayerProperty p.layerName layers with _ | q
  · have hnot := List.find?_eq_none.1 hfind p hp
    simp at hnot
  · obtain ⟨hq, hname⟩ := mem_of_loaderFindLayerProperty hfind
    rw [List.inj_on_of_nodup_map hnd hq hp hname]

/-- And its place is the one that its name has. -/
theorem placeOf_of_getElem? (hnd : (layers.map LayerProperties.layerName).Nodup) (hi : layers[i]? = some p) :
    lastIndexOf p.layerName layers = some i := by
  obtain ⟨j, hj⟩ := exists_lastIndexOf (List.mem_of_getElem? hi) rfl
  obtain ⟨q, hq, hname⟩ := lastIndexOf_spec hj
  have hj' : (layers.map LayerProperties.layerName)[j]? = some p.layerName := by rw [List.getElem?_map, hq]; simp [hname]
  have hi' : (layers.map LayerProperties.layerName)[i]? = some p.layerName := by rw [List.getElem?_map, hi]; rfl
  rw [hj, (List.getElem?_inj (List.getElem?_eq_some_iff.1 hj').1 hnd).1 (hj'.trans hi'.symm)]

theorem getElem?_of_lastIndexOf (hnd : (layers.map LayerProperties.layerName).Nodup) (hp : p ∈ layers)
    (hi : lastIndexOf p.layerName layers = some i) : layers[i]? = some p := by
  obtain ⟨j, hj⟩ := List.mem_iff_getElem?.1 hp
  have hj' := placeOf_of_getElem? hnd hj
  rw [hi] at hj'
  obtain rfl := Option.some.inj hj'
  exact hj

theorem metaComponents_of_mem (hnd : (layers.map LayerProperties.layerName).Nodup) (hp : p ∈ layers) :
    metaComponents layers p.layerName = p.componentLayerNames.filter (isMetaName layers) := by
  unfold metaComponents
  rw [loaderFindLayerProperty_of_mem hnd hp]

end Places

section Sound

variable {layers : List LayerProperties} {verify : ℕ → List ℕ → Option (Bool × List ℕ)}

/-- What a check that passes has visited, beside what was marked before: every meta-layer below the name, each once, and
all of them have their components. -/
structure Visits (layers : List LayerProperties) (roots : List String) (checked checked' : List ℕ)
    (visited : List String) : Prop where
  marks : checked' = visited.map (placeOf layers) ++ checked
  nodup : checked'.Nodup
  perm : (roots ++ visited.flatMap (metaComponents layers)).Perm visited
  usable : ∀ n ∈ visited, ∀ prop, loaderFindLayerProperty n layers = some prop → ComponentsUsable layers prop

/-- Checks that pass visit what is below the layer. -/
def SoundCheck (layers : List LayerProperties) (verify : ℕ → List ℕ → Option (Bool × List ℕ)) : Prop :=
  ∀ i checked r, verify i checked = some r → r.1 = true → i ∉ checked → checked.Nodup → ∀ p, layers[i]? = some p →
    ∃ visited, Visits layers [p.layerName] checked r.2 visited

theorem Visits.append {roots roots' : List String} {checked checked' checked'' : List ℕ} {visited visited' : List String}
    (h : Visits layers roots checked checked' visited) (h' : Visits layers roots' checked' checked'' visited') :
    Visits layers (roots ++ roots') checked checked'' (visited' ++ visited) := by
  refine ⟨?_, h'.nodup, ?_, fun n hn => ?_⟩
  · rw [h'.marks, h.marks, List.map_append, List.append_assoc]
  · rw [List.perm_iff_count]
    intro n
    have hcount := h.perm.count_eq n
    have hcount' := h'.perm.count_eq n
    simp only [List.flatMap_append, List.count_append] at hcount hcount' ⊢
    omega
  · rcases List.mem_append.1 hn with hn | hn
    · exact h'.usable n hn
    · exact h.usable n hn

theorem verifyComponents_visits (hverify : SoundCheck layers verify) {prop : LayerProperties} {names : List String}
    {checked : List ℕ} {r : Bool × List ℕ}
    (h : verifyComponents verify layers prop names checked = some r) (hr : r.1 = true) (hchecked : checked.Nodup) :
    (∃ visited, Visits layers (names.filter (isMetaName layers)) checked r.2 visited) ∧
      ∀ name ∈ names, ∃ compProp, loaderFindLayerProperty name layers = some compProp ∧
        VersionAtLeast prop compProp := by
  induction names generalizing checked with
  | nil =>
    obtain rfl := Option.some.inj h
    exact ⟨⟨[], rfl, hchecked, List.Perm.refl _, List.forall_mem_nil _⟩, List.forall_mem_nil _⟩
  | cons name names ih =>
    unfold verifyComponents at h
    split at h
    · obtain rfl := Option.some.inj h
      cases hr
    · rename_i compProp hfind
      split_ifs at h with hversion hself hmeta
      · obtain rfl := Option.some.inj h
        cases hr
      · obtain rfl := Option.some.inj h
        cases hr
      · obtain ⟨j, hj, h⟩ := Option.bind_eq_some_iff.1 h
        split_ifs at h with hmarked
        · obtain rfl := Option.some.inj h
          cases hr
        · obtain ⟨q, hq, h⟩ := Option.bind_eq_some_iff.1 h
          split_ifs at h with hpass
          · obtain rfl := Option.some.inj h
            cases hr
          · -- a meta-layer, which was not marked
            obtain ⟨p, hp, hname⟩ := lastIndexOf_spec hj
            obtain ⟨-, hname'⟩ := mem_of_loaderFindLayerProperty hfind
            obtain ⟨visited, hvisited⟩ := hverify j checked q hq (by simpa using hpass) hmarked hchecked p hp
            obtain ⟨⟨visited', hvisited'⟩, hnames⟩ := ih h hvisited.nodup
            have hroots : (name :: names).filter (isMetaName layers) =
                [p.layerName] ++ names.filter (isMetaName layers) := by
              rw [List.filter_cons_of_pos (by simp [isMetaName, hfind, hmeta]), hname, hname']
              rfl
            rw [hroots]
            refine ⟨⟨_, hvisited.append hvisited'⟩, List.forall_mem_cons.2 ⟨⟨compProp, hfind, ?_⟩, hnames⟩⟩
            exact loaderCheckVersionMeetsRequired_iff.1 (by simpa using hversion)
      · obtain ⟨hvisited, hnames⟩ := ih h hchecked
        rw [List.filter_cons_of_neg (by simp [isMetaName, hfind, hmeta])]
        refine ⟨hvisited, List.forall_mem_cons.2 ⟨⟨compProp, hfind, ?_⟩, hnames⟩⟩
        exact loaderCheckVersionMeetsRequired_iff.1 (by simpa using hversion)

/-- **A check that passes** has visited what is below the layer. -/
theorem verifyMetaLayerComponentLayers_sound (hnd : (layers.map LayerProperties.layerName).Nodup) (fuel : ℕ) :
    SoundCheck layers (verifyMetaLayerComponentLayers layers fuel) := by
  induction fuel with
  | zero =>
    intro i checked r h
    cases h
  | succ fuel ih =>
    intro i checked r h hr hi hchecked p hp
    obtain ⟨p', hp', h⟩ := Option.bind_eq_some_iff.1 h
    obtain rfl := Option.some.inj (hp.symm.trans hp')
    obtain ⟨⟨visited, hvisited⟩, hnames⟩ :=
      verifyComponents_visits ih h hr (List.nodup_cons.2 ⟨hi, hchecked⟩)
    have hmem := List.mem_of_getElem? hp
    have hself : Visits layers [p.layerName] checked r.2 (visited ++ [p.layerName]) := by
      refine ⟨?_, hvisited.nodup, ?_, fun n hn => ?_⟩
      · rw [hvisited.marks, List.map_append, List.append_assoc, List.map_singleton, placeOf, placeOf_of_getElem? hnd hp]
        rfl
      · rw [List.perm_iff_count]
        intro n
        have hcount := hvisited.perm.count_eq n
        simp only [List.flatMap_append, List.flatMap_singleton, List.count_append,
          metaComponents_of_mem hnd hmem] at hcount ⊢
        omega
      · rcases List.mem_append.1 hn with hn | hn
        · exact hvisited.usable n hn
        · intro prop hprop
          rw [List.mem_singleton.1 hn, loaderFindLayerProperty_of_mem hnd hmem] at hprop
          obtain rfl := Option.some.inj hprop
          exact hnames
    exact ⟨_, hself⟩

/-- A meta-layer that passes is valid, and no meta-layer below it is named twice. -/
theorem valid_of_verifyMetaLayer (hnd : (layers.map LayerProperties.layerName).Nodup) {i : ℕ} {p : LayerProperties}
    (hp : layers[i]? = some p) (h : verifyMetaLayer layers i = true) :
    MetaValid layers p.layerName ∧ NamedOnce layers p.layerName := by
  obtain ⟨r, hrun, hpass⟩ := verifyMetaLayer_eq_true.1 h
  obtain ⟨visited, hvisited⟩ := verifyMetaLayerComponentLayers_sound hnd _ i [] r hrun hpass List.not_mem_nil
    List.nodup_nil p hp
  have hvisitednd : visited.Nodup := by
    have hmarks := hvisited.marks ▸ hvisited.nodup
    rw [List.append_nil] at hmarks
    exact hmarks.of_map _
  refine ⟨⟨fun n hn => ?_, ?_⟩, ?_⟩
  · exact hvisited.usable n (Lib.mem_of_perm hvisited.perm hn)
  · exact Lib.acyclicBelow_of_perm hvisited.perm hvisitednd
  · exact Lib.onceBelow_of_perm hvisited.perm hvisitednd

end Sound

section Complete

variable {layers : List LayerProperties} {verify : ℕ → List ℕ → Option (Bool × List ℕ)} {n m : String}

/-- The meta-layers below a name. -/
abbrev Below (layers : List LayerProperties) (n m : String) : Prop := ReflTransGen (Child (metaComponents layers)) n m

theorem isMetaName_of_child (h : Child (metaComponents layers) n m) : isMetaName layers m = true := by
  unfold Child metaComponents at h
  split at h
  · cases h
  · exact (List.mem_filter.1 h).2

theorem isMetaName_of_below (hn : isMetaName layers n = true) (h : Below layers n m) : isMetaName layers m = true := by
  rcases ReflTransGen.cases_tail h with rfl | ⟨k, -, hk⟩
  · exact hn
  · exact isMetaName_of_child hk

/-- Meta-layers of different names have different places. -/
theorem eq_of_placeOf_eq (hn : isMetaName layers n = true) (hm : isMetaName layers m = true)
    (h : placeOf layers n = placeOf layers m) : n = m := by
  obtain ⟨p, hp, -⟩ := (Option.any_eq_true _ _).1 hn
  obtain ⟨q, hq, -⟩ := (Option.any_eq_true _ _).1 hm
  obtain ⟨hpmem, hpname⟩ := mem_of_loaderFindLayerProperty hp
  obtain ⟨hqmem, hqname⟩ := mem_of_loaderFindLayerProperty hq
  obtain ⟨i, hi⟩ := exists_lastIndexOf hpmem hpname
  obtain ⟨j, hj⟩ := exists_lastIndexOf hqmem hqname
  unfold placeOf at h
  rw [hi, hj] at h
  obtain rfl : i = j := h
  obtain ⟨p', hp', hn'⟩ := lastIndexOf_spec hi
  obtain ⟨q', hq', hm'⟩ := lastIndexOf_spec hj
  obtain rfl := Option.some.inj (hp'.symm.trans hq')
  exact hn'.symm.trans hm'

/-- Marks set below one meta-layer are none of those below another that has nothing below it in common. -/
theorem not_marked_of_apart {checked marks : List ℕ} (hn : isMetaName layers n = true)
    (hmarks : ∀ k ∈ marks, k ∈ checked ∨ ∃ x, Below layers n x ∧ placeOf layers x = k) (hm : isMetaName layers m = true)
    (hapart : ∀ x, Below layers n x → ¬ Below layers m x) (hfree : ∀ x, Below layers m x → placeOf layers x ∉ checked)
    {x : String} (hx : Below layers m x) : placeOf layers x ∉ marks := by
  intro hmark
  rcases hmarks _ hmark with hold | ⟨y, hy, hsame⟩
  · exact hfree x hx hold
  · obtain rfl := eq_of_placeOf_eq (isMetaName_of_below hn hy) (isMetaName_of_below hm hx) hsame
    exact hapart _ hy hx

/-- Checks pass for valid meta-layers below which nothing is named twice or marked, and mark what is below. -/
def CompleteCheck (layers : List LayerProperties) (verify : ℕ → List ℕ → Option (Bool × List ℕ)) : Prop :=
  ∀ i checked r, verify i checked = some r → ∀ p, layers[i]? = some p → p.isMeta = true →
    MetaValid layers p.layerName → NamedOnce layers p.layerName →
      (∀ m, Below layers p.layerName m → placeOf layers m ∉ checked) →
        r.1 = true ∧ ∀ k ∈ r.2, k ∈ checked ∨ ∃ m, Below layers p.layerName m ∧ placeOf layers m = k

theorem verifyComponents_complete (hnd : (layers.map LayerProperties.layerName).Nodup)
    (hverify : CompleteCheck layers verify) {prop : LayerProperties} {names : List String}
    (hnames : ∀ name ∈ names, ∃ compProp, loaderFindLayerProperty name layers = some compProp ∧
      VersionAtLeast prop compProp)
    (hself : prop.layerName ∉ names)
    (hbelow : ∀ name ∈ names, isMetaName layers name = true → MetaValid layers name ∧ NamedOnce layers name)
    (hapart : (names.filter (isMetaName layers)).Pairwise fun c d => ∀ x, Below layers c x → ¬ Below layers d x)
    {checked : List ℕ} {r : Bool × List ℕ} (h : verifyComponents verify layers prop names checked = some r)
    (hchecked : ∀ name ∈ names, isMetaName layers name = true → ∀ m, Below layers name m →
      placeOf layers m ∉ checked) :
    r.1 = true ∧ ∀ k ∈ r.2, k ∈ checked ∨ ∃ name ∈ names, isMetaName layers name = true ∧
      ∃ m, Below layers name m ∧ placeOf layers m = k := by
  induction names generalizing checked with
  | nil =>
    obtain rfl := Option.some.inj h
    exact ⟨rfl, fun k hk => Or.inl hk⟩
  | cons name names ih =>
    obtain ⟨⟨compProp, hfind, hversion⟩, hnames⟩ := List.forall_mem_cons.1 hnames
    obtain ⟨hne, hself⟩ : ¬ prop.layerName = name ∧ prop.layerName ∉ names := by simpa using hself
    obtain ⟨hhead, hbelow⟩ := List.forall_mem_cons.1 hbelow
    obtain ⟨hfree, hchecked⟩ := List.forall_mem_cons.1 hchecked
    obtain ⟨hmem, hname⟩ := mem_of_loaderFindLayerProperty hfind
    unfold verifyComponents at h
    rw [hfind] at h
    dsimp only at h
    rw [if_neg (by simp [loaderCheckVersionMeetsRequired_iff.2 hversion]), if_neg (by simpa using hne)] at h
    by_cases hmeta : compProp.isMeta = true
    · -- a meta-layer
      have hmetaName : isMetaName layers name = true := by simp [isMetaName, hfind, hmeta]
      rw [if_pos hmeta] at h
      obtain ⟨j, hj, h⟩ := Option.bind_eq_some_iff.1 h
      have hplace : placeOf layers name = j := by rw [placeOf, ← hname, hj]; rfl
      have hmarked : j ∉ checked := hplace ▸ hfree hmetaName name .refl
      rw [if_neg hmarked] at h
      obtain ⟨q, hq, h⟩ := Option.bind_eq_some_iff.1 h
      have hget : layers[j]? = some compProp := getElem?_of_lastIndexOf hnd hmem hj
      obtain ⟨hvalid, honce⟩ := hhead hmetaName
      obtain ⟨hpass, hmarks⟩ := hverify j checked q hq compProp hget hmeta (hname ▸ hvalid) (hname ▸ honce)
        (hname ▸ hfree hmetaName)
      rw [hname] at hmarks
      rw [if_neg (by simp [hpass])] at h
      rw [List.filter_cons_of_pos hmetaName] at hapart
      obtain ⟨hfirst, hapart⟩ := List.pairwise_cons.1 hapart
      have hrest : ∀ d ∈ names, isMetaName layers d = true → ∀ m, Below layers d m → placeOf layers m ∉ q.2 :=
        fun d hd hdmeta m => not_marked_of_apart hmetaName hmarks hdmeta (hfirst d (List.mem_filter.2 ⟨hd, hdmeta⟩))
          (hchecked d hd hdmeta)
      obtain ⟨hr, hrmarks⟩ := ih hnames hself hbelow hapart h hrest
      refine ⟨hr, fun k hk => ?_⟩
      rcases hrmarks k hk with hk | ⟨d, hd, hrestmarks⟩
      · rcases hmarks k hk with hk | ⟨m, hm, hmk⟩
        · exact Or.inl hk
        · exact Or.inr ⟨name, List.mem_cons_self, hmetaName, m, hm, hmk⟩
      · exact Or.inr ⟨d, List.mem_cons_of_mem _ hd, hrestmarks⟩
    · have hmetaName : isMetaName layers name = false := by simp [isMetaName, hfind, hmeta]
      rw [if_neg hmeta] at h
      rw [List.filter_cons_of_neg (by simp [hmetaName])] at hapart
      obtain ⟨hr, hrmarks⟩ := ih hnames hself hbelow hapart h hchecked
      refine ⟨hr, fun k hk => ?_⟩
      rcases hrmarks k hk with hk | ⟨d, hd, hrestmarks⟩
      · exact Or.inl hk
      · exact Or.inr ⟨d, List.mem_cons_of_mem _ hd, hrestmarks⟩

/-- **A check passes** for a valid meta-layer below which nothing is named twice or marked. -/
theorem verifyMetaLayerComponentLayers_complete (hnd : (layers.map LayerProperties.layerName).Nodup) (fuel : ℕ) :
    CompleteCheck layers (verifyMetaLayerComponentLayers layers fuel) := by
  induction fuel with
  | zero =>
    intro i checked r h
    cases h
  | succ fuel ih =>
    intro i checked r h p hp hmeta hvalid honce hchecked
    obtain ⟨p', hp', h⟩ := Option.bind_eq_some_iff.1 h
    obtain rfl := Option.some.inj (hp.symm.trans hp')
    have hmem := List.mem_of_getElem? hp
    have hfind := loaderFindLayerProperty_of_mem hnd hmem
    have hmetaName : isMetaName layers p.layerName = true := by simp [isMetaName, hfind, hmeta]
    have hplace : placeOf layers p.layerName = i := by rw [placeOf, placeOf_of_getElem? hnd hp]; rfl
    have hchildren := metaComponents_of_mem hnd hmem
    have hchild : ∀ name ∈ p.componentLayerNames, isMetaName layers name = true →
        Child (metaComponents layers) p.layerName name := by
      intro name hname hnameMeta
      unfold Child
      rw [hchildren]
      exact List.mem_filter.2 ⟨hname, hnameMeta⟩
    have hself : p.layerName ∉ p.componentLayerNames := fun hname =>
      hvalid.acyclic _ .refl (.single (hchild _ hname hmetaName))
    have hbelow : ∀ name ∈ p.componentLayerNames, isMetaName layers name = true →
        MetaValid layers name ∧ NamedOnce layers name := by
      intro name hname hnameMeta
      have hstep : Below layers p.layerName name := .single (hchild name hname hnameMeta)
      exact ⟨⟨fun n hn => hvalid.usable n (hstep.trans hn), hvalid.acyclic.below hstep⟩, honce.below hstep⟩
    have hapart := honce.pairwise_children hvalid.acyclic
    rw [hchildren] at hapart
    have hfree : ∀ name ∈ p.componentLayerNames, isMetaName layers name = true → ∀ m, Below layers name m →
        placeOf layers m ∉ i :: checked := by
      intro name hname hnameMeta m hm hmark
      have hstep := hchild name hname hnameMeta
      rcases List.mem_cons.1 hmark with hmark | hmark
      · -- back at the layer itself
        obtain rfl := eq_of_placeOf_eq (isMetaName_of_below hnameMeta hm) hmetaName (hmark.trans hplace.symm)
        exact hvalid.acyclic _ .refl (TransGen.head' hstep hm)
      · exact hchecked m (.head hstep hm) hmark
    obtain ⟨hr, hmarks⟩ := verifyComponents_complete hnd ih (hvalid.usable _ .refl p hfind) hself hbelow hapart h hfree
    refine ⟨hr, fun k hk => ?_⟩
    rcases hmarks k hk with hk | ⟨name, hname, hnameMeta, m, hm, hmk⟩
    · rcases List.mem_cons.1 hk with rfl | hk
      · exact Or.inr ⟨p.layerName, .refl, hplace⟩
      · exact Or.inl hk
    · exact Or.inr ⟨m, .head (hchild name hname hnameMeta) hm, hmk⟩

/-- **What the check decides**: a meta-layer passes if it is valid and no meta-layer below it is named twice. -/
theorem verifyMetaLayer_iff (hnd : (layers.map LayerProperties.layerName).Nodup) {i : ℕ} {p : LayerProperties}
    (hp : layers[i]? = some p) (hmeta : p.isMeta = true) :
    verifyMetaLayer layers i = true ↔ MetaValid layers p.layerName ∧ NamedOnce layers p.layerName := by
  refine ⟨valid_of_verifyMetaLayer hnd hp, fun ⟨hvalid, honce⟩ => ?_⟩
  have hsome := verifyMetaLayer_isSome (List.getElem?_eq_some_iff.1 hp).1
  obtain ⟨r, hr⟩ := Option.isSome_iff_exists.1 hsome
  obtain ⟨hpass, -⟩ := verifyMetaLayerComponentLayers_complete hnd _ i [] r hr p hp hmeta hvalid honce nofun
  exact verifyMetaLayer_eq_true.2 ⟨r, hr, hpass⟩

end Complete

/-- The components of a layer are in the list after it, with a version that is high enough. -/
def componentsLater (layers : List LayerProperties) (p : LayerProperties) : Bool :=
  p.componentLayerNames.all fun name =>
    ((loaderFindLayerProperty name layers).any fun c =>
      loaderCheckVersionMeetsRequired (loaderMakeVersion p.specVersion) (loaderMakeVersion c.specVersion)) &&
      decide (placeOf layers p.layerName < placeOf layers name)

/-- Where all components come later every name is valid. -/
theorem metaValid_of_later {layers : List LayerProperties} {name : String}
    (h : layers.all (componentsLater layers) = true) : MetaValid layers name := by
  have hcomponent : ∀ p ∈ layers, ∀ n ∈ p.componentLayerNames,
      (∃ c, loaderFindLayerProperty n layers = some c ∧ VersionAtLeast p c) ∧
        placeOf layers p.layerName < placeOf layers n := by
    intro p hp n hn
    obtain ⟨hfind, hplace⟩ := (Bool.and_eq_true_iff).1 (List.all_eq_true.1 (List.all_eq_true.1 h p hp) n hn)
    obtain ⟨c, hc, hversion⟩ := (Option.any_eq_true _ _).1 hfind
    exact ⟨⟨c, hc, loaderCheckVersionMeetsRequired_iff.1 hversion⟩, of_decide_eq_true hplace⟩
  refine ⟨fun n _ p hp m hm => (hcomponent p (mem_of_loaderFindLayerProperty hp).1 m hm).1, ?_⟩
  refine Lib.acyclicBelow_of_rank (placeOf layers) fun n m hnm => ?_
  unfold Child metaComponents at hnm
  split at hnm
  · cases hnm
  · rename_i p hp
    obtain ⟨hmem, rfl⟩ := mem_of_loaderFindLayerProperty hp
    exact (hcomponent p hmem m (List.mem_filter.1 hnm).1).2

/-- The components of a meta-layer share a component, which is a meta-layer. -/
def diamond : List LayerProperties :=
  [metaOf "M" ["A", "B"], metaOf "A" ["C"], metaOf "B" ["C"], metaOf "C" ["X"],
    { LayerProperties.zero with layerName := "X" }]

theorem metaValid_diamond : MetaValid diamond "M" := metaValid_of_later (by decide)

/-- **The check decides validity** of a meta-layer exactly if no meta-layer below it is named twice, where it is
valid. -/
theorem decidesValidity_iff {layers : List LayerProperties} (hnd : (layers.map LayerProperties.layerName).Nodup) {i : ℕ}
    {p : LayerProperties} (hp : layers[i]? = some p) (hmeta : p.isMeta = true) :
    (verifyMetaLayer layers i = true ↔ MetaValid layers p.layerName) ↔
      (MetaValid layers p.layerName → NamedOnce layers p.layerName) := by
  rw [verifyMetaLayer_iff hnd hp hmeta]
  exact and_iff_left_iff_imp

theorem decidesValidity_iff_diamond :
    (verifyMetaLayer diamond 0 = true ↔ MetaValid diamond "M") ↔ (MetaValid diamond "M" → NamedOnce diamond "M") :=
  decidesValidity_iff (p := metaOf "M" ["A", "B"]) (by decide) rfl rfl

theorem not_decidesValidity :
    (diamond.map LayerProperties.layerName).Nodup ∧ ¬ (verifyMetaLayer diamond 0 = true ↔ MetaValid diamond "M") := by
  refine ⟨by decide, fun h => ?_⟩
  exact absurd (h.2 metaValid_diamond) (by decide)

end VulkanLoader
