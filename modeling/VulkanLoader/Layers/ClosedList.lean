import VulkanLoader.Layers.MetaValidity

/-!
# The list that the check of meta-layers leaves

`verify_all_meta_layers` removes, in one pass, the meta-layers that do not pass the check in the list as it is then.  What
it keeps is closed: a meta-layer that passes has everything below it valid.  It drops valid meta-layers with the check,
those below which a meta-layer is named twice; of the valid ones that it drops, one has all its components kept.
-/

namespace VulkanLoader

open Relation
open Lib (Child AcyclicBelow OnceBelow)

/-- All component names that the layer leads to are names of layers of the list, of a version that is high enough. -/
structure CompleteIn (layers : List LayerProperties) (p : LayerProperties) : Prop where
  components : ComponentsUsable layers p
  below : ∀ n ∈ p.componentLayerNames, isMetaName layers n = true → UsableBelow layers n

/-- The names of the layers. -/
abbrev layerNames (layers : List LayerProperties) : List String := layers.map LayerProperties.layerName

/-- What `verify_all_meta_layers` should leave of a list. -/
structure ClosedPart (l left : List LayerProperties) : Prop where
  closed : ∀ p ∈ left, p.isMeta = true → CompleteIn left p
  nonMeta : (left.filter fun p => !p.isMeta) = l.filter fun p => !p.isMeta
  maximal : ∀ p ∈ l, p.isMeta = true → p.layerName ∉ layerNames left → ¬ CompleteIn left p

/-! ### Two lists that agree on what is in one of them -/

section Agree

variable {layers layers' : List LayerProperties}

theorem specVersion_of_core {p q : LayerProperties} (h : p.core = q.core) : p.specVersion = q.specVersion := by
  have hversion := congrArg (·.specVersion) h
  exact hversion

theorem versionAtLeast_congr {p p' c c' : LayerProperties} (hp : p.core = p'.core) (hc : c.core = c'.core) :
    VersionAtLeast p c ↔ VersionAtLeast p' c' := by
  unfold VersionAtLeast
  rw [specVersion_of_core hp, specVersion_of_core hc]

/-- The cores of the layers of one list are a part of those of the other, whose names are distinct. -/
structure PartOf (layers layers' : List LayerProperties) : Prop where
  sublist : (layers.map (·.core)).Sublist (layers'.map (·.core))
  nodup : (layerNames layers').Nodup

theorem layerNames_eq (layers : List LayerProperties) :
    layerNames layers = (layers.map (·.core)).map LayerProperties.layerName := by
  rw [List.map_map]
  rfl

theorem PartOf.names (h : PartOf layers layers') : (layerNames layers).Sublist (layerNames layers') := by
  rw [layerNames_eq layers, layerNames_eq layers']
  exact h.sublist.map _

theorem PartOf.nodup_left (h : PartOf layers layers') : (layerNames layers).Nodup := h.nodup.sublist h.names

theorem loaderFindLayerProperty_isSome {name : String} :
    (loaderFindLayerProperty name layers).isSome ↔ name ∈ layerNames layers := by
  unfold loaderFindLayerProperty
  rw [List.find?_isSome, List.mem_map]
  exact exists_congr fun p => and_congr_right fun _ => by rw [beq_iff_eq, eq_comm]

/-- A name of the part finds the same layer in both lists. -/
theorem PartOf.find (h : PartOf layers layers') {name : String} (hname : name ∈ layerNames layers) :
    ∃ p p', loaderFindLayerProperty name layers = some p ∧ loaderFindLayerProperty name layers' = some p' ∧
      p.core = p'.core := by
  obtain ⟨p, hp, rfl⟩ := List.mem_map.1 hname
  have hcore : p.core ∈ layers'.map (·.core) := h.sublist.subset (List.mem_map_of_mem hp)
  obtain ⟨p', hp', hcore'⟩ := List.mem_map.1 hcore
  refine ⟨p, p', loaderFindLayerProperty_of_mem h.nodup_left hp, ?_, hcore'.symm⟩
  rw [← layerName_of_core hcore']
  exact loaderFindLayerProperty_of_mem h.nodup hp'

/-- The layer of the name is in the list with all its components. -/
def Inside (layers : List LayerProperties) (name : String) : Prop :=
  ∃ p, loaderFindLayerProperty name layers = some p ∧ ∀ n ∈ p.componentLayerNames, n ∈ layerNames layers

theorem PartOf.isMetaName (h : PartOf layers layers') {name : String} (hname : name ∈ layerNames layers) :
    isMetaName layers name = isMetaName layers' name := by
  obtain ⟨p, p', hp, hp', hcore⟩ := h.find hname
  unfold VulkanLoader.isMetaName
  rw [hp, hp', Option.any_some, Option.any_some, isMeta_of_core hcore]

theorem PartOf.metaComponents (h : PartOf layers layers') {name : String} (hinside : Inside layers name) :
    metaComponents layers name = metaComponents layers' name := by
  obtain ⟨p, hp, hnames⟩ := hinside
  obtain ⟨q, p', hq, hp', hcore⟩ := h.find (loaderFindLayerProperty_isSome.1 (by rw [hp]; rfl))
  obtain rfl := Option.some.inj (hp.symm.trans hq)
  unfold VulkanLoader.metaComponents
  rw [hp, hp']
  dsimp only
  rw [← componentLayerNames_of_core hcore]
  exact List.filter_congr fun n hn => h.isMetaName (hnames n hn)

/-- The components of a layer that is inside are usable in both lists or in none. -/
theorem PartOf.componentsUsable (h : PartOf layers layers') {p p' : LayerProperties} (hcore : p.core = p'.core)
    (hnames : ∀ n ∈ p.componentLayerNames, n ∈ layerNames layers) :
    ComponentsUsable layers p ↔ ComponentsUsable layers' p' := by
  unfold ComponentsUsable
  rw [← componentLayerNames_of_core hcore]
  refine forall₂_congr fun n hn => ?_
  obtain ⟨c, c', hc, hc', hcc⟩ := h.find (hnames n hn)
  rw [hc, hc']
  constructor
  · rintro ⟨d, hd, hversion⟩
    obtain rfl := Option.some.inj hd
    exact ⟨c', rfl, (versionAtLeast_congr hcore hcc).1 hversion⟩
  · rintro ⟨d, hd, hversion⟩
    obtain rfl := Option.some.inj hd
    exact ⟨c, rfl, (versionAtLeast_congr hcore hcc).2 hversion⟩

variable {n : String}

/-- Everything below the name is in the list with all its components. -/
def InsideBelow (layers : List LayerProperties) (n : String) : Prop := ∀ m, Below layers n m → Inside layers m

theorem mem_layerNames_of_isMetaName (h : isMetaName layers n = true) : n ∈ layerNames layers := by
  obtain ⟨p, hp, -⟩ := (Option.any_eq_true _ _).1 h
  exact loaderFindLayerProperty_isSome.1 (by rw [hp]; rfl)

theorem UsableBelow.inside (h : UsableBelow layers n) (hn : n ∈ layerNames layers) : InsideBelow layers n := by
  intro m hm
  have hmem : m ∈ layerNames layers := by
    rcases ReflTransGen.cases_tail hm with rfl | ⟨k, -, hk⟩
    · exact hn
    · exact mem_layerNames_of_isMetaName (isMetaName_of_child hk)
  obtain ⟨p, hp⟩ := Option.isSome_iff_exists.1 (loaderFindLayerProperty_isSome.2 hmem)
  refine ⟨p, hp, fun k hk => ?_⟩
  obtain ⟨c, hc, -⟩ := h m hm p hp k hk
  exact loaderFindLayerProperty_isSome.1 (by rw [hc]; rfl)

/-- What is below a name in the whole list may be looked for in the part. -/
theorem PartOf.insideBelow (h : PartOf layers layers') (hinside : ∀ m, Below layers' n m → Inside layers m) :
    InsideBelow layers n := by
  intro m hm
  exact hinside m ((Lib.below_congr fun k hk => (h.metaComponents (hinside k hk)).symm).2 hm)

section Congr

variable (h : PartOf layers layers') (hinside : InsideBelow layers n)

include h hinside

theorem PartOf.below_iff {m : String} : Below layers n m ↔ Below layers' n m :=
  Lib.below_congr fun k hk => h.metaComponents (hinside k hk)

theorem PartOf.usableBelow_iff : UsableBelow layers n ↔ UsableBelow layers' n := by
  have hat : ∀ m, Below layers n m → ((∀ p, loaderFindLayerProperty m layers = some p → ComponentsUsable layers p) ↔
      ∀ p, loaderFindLayerProperty m layers' = some p → ComponentsUsable layers' p) := by
    intro m hm
    obtain ⟨p, hp, hnames⟩ := hinside m hm
    obtain ⟨q, p', hq, hp', hcore⟩ := h.find (loaderFindLayerProperty_isSome.1 (by rw [hp]; rfl))
    obtain rfl := Option.some.inj (hp.symm.trans hq)
    rw [hp, hp']
    simpa using h.componentsUsable hcore hnames
  unfold UsableBelow
  constructor
  · intro hu m hm
    exact (hat m ((h.below_iff hinside).2 hm)).1 (hu m ((h.below_iff hinside).2 hm))
  · intro hu m hm
    exact (hat m hm).2 (hu m ((h.below_iff hinside).1 hm))

theorem PartOf.metaValid_iff : MetaValid layers n ↔ MetaValid layers' n := by
  have hacyclic := Lib.acyclicBelow_congr fun k hk => h.metaComponents (hinside k hk)
  have husable := h.usableBelow_iff hinside
  exact ⟨fun hv => ⟨husable.1 hv.usable, hacyclic.1 hv.acyclic⟩,
    fun hv => ⟨husable.2 hv.usable, hacyclic.2 hv.acyclic⟩⟩

theorem PartOf.namedOnce_iff : NamedOnce layers n ↔ NamedOnce layers' n :=
  Lib.onceBelow_congr fun k hk => h.metaComponents (hinside k hk)

end Congr

end Agree

/-! ### The pass -/

section Pass

variable (ctx : LayerContext) (req : ℕ → ExtensionRequests)

/-- The loop does not touch the layers that are no meta-layers. -/
theorem verifyAllMetaLayersFrom_nonMeta (kept rest : List LayerProperties) (res : VkResult) (ovr : Bool) :
    ((verifyAllMetaLayersFrom ctx req kept rest res ovr).2.2.filter fun p => !p.isMeta) =
      (kept ++ rest).filter fun p => !p.isMeta := by
  induction rest generalizing kept res ovr with
  | nil => rw [List.append_nil]; rfl
  | cons prop rest ih =>
    unfold verifyAllMetaLayersFrom
    split_ifs with hmeta hverify
    · have hupdated : ((updateMetaLayerExtensionsFromComponentLayers (req kept.length) prop
          (kept ++ prop :: rest)).2).isMeta = true :=
        (isMeta_of_core (core_updateMetaLayerExtensions _ _ prop)).trans hmeta
      rw [ih, List.append_assoc, List.filter_append, List.filter_append, List.filter_append,
        List.filter_cons_of_neg (by simp [hupdated]), List.filter_cons_of_neg (by simp [hmeta])]
      rfl
    · rw [ih, List.filter_append, List.filter_append, List.filter_cons_of_neg (by simp [hmeta])]
    · rw [ih, List.append_assoc]
      rfl

/-- A layer is left in the list, or it did not pass the check in a list that held all that is left. -/
theorem verifyAllMetaLayersFrom_dropped (kept rest : List LayerProperties) (res : VkResult) (ovr : Bool)
    {p : LayerProperties} (hp : p ∈ rest) :
    p.core ∈ (verifyAllMetaLayersFrom ctx req kept rest res ovr).2.2.map (·.core) ∨
      ∃ stage i, stage[i]? = some p ∧ verifyMetaLayer stage i = false ∧
        ((verifyAllMetaLayersFrom ctx req kept rest res ovr).2.2.map (·.core)).Sublist (stage.map (·.core)) ∧
        (stage.map (·.core)).Sublist ((kept ++ rest).map (·.core)) := by
  induction rest generalizing kept res ovr with
  | nil => cases hp
  | cons prop rest ih =>
    -- the layer goes to the end of what is kept, with other extensions maybe
    have hkeep : ∀ q : LayerProperties, q.core = prop.core → ∀ res ovr,
        p.core ∈ (verifyAllMetaLayersFrom ctx req (kept ++ [q]) rest res ovr).2.2.map (·.core) ∨
          ∃ stage i, stage[i]? = some p ∧ verifyMetaLayer stage i = false ∧
            ((verifyAllMetaLayersFrom ctx req (kept ++ [q]) rest res ovr).2.2.map (·.core)).Sublist
              (stage.map (·.core)) ∧
            (stage.map (·.core)).Sublist ((kept ++ prop :: rest).map (·.core)) := by
      intro q hq res ovr
      rcases List.mem_cons.1 hp with rfl | hp
      · obtain ⟨kept', hlist, -, -⟩ := verifyAllMetaLayersFrom_kept ctx req (kept ++ [q]) rest res ovr
        left
        rw [hlist, List.map_append, List.map_append, List.map_singleton, hq]
        simp
      · refine (ih (kept ++ [q]) res ovr hp).imp_right ?_
        rintro ⟨stage, i, hi, hverify, hfirst, hlast⟩
        refine ⟨stage, i, hi, hverify, hfirst, ?_⟩
        rw [List.map_append, List.map_append, List.map_cons, List.map_nil, hq, List.append_assoc] at hlast
        simpa using hlast
    unfold verifyAllMetaLayersFrom
    split_ifs with hprop hverify
    · exact hkeep _ (core_updateMetaLayerExtensions _ _ prop) _ _
    · have hdrop : ((kept ++ rest).map (·.core)).Sublist ((kept ++ prop :: rest).map (·.core)) :=
        ((List.sublist_cons_self prop rest).append_left kept).map _
      rcases List.mem_cons.1 hp with rfl | hp
      · right
        obtain ⟨kept', hlist, hsub, -⟩ := verifyAllMetaLayersFrom_kept ctx req kept rest res ovr
        refine ⟨kept ++ p :: rest, kept.length, by simp, by simpa using hverify, ?_, List.Sublist.refl _⟩
        refine List.Sublist.trans ?_ hdrop
        rw [hlist, List.map_append, List.map_append]
        exact hsub.append_left _
      · refine (ih kept res ovr hp).imp_right ?_
        rintro ⟨stage, i, hi, hverify, hfirst, hlast⟩
        exact ⟨stage, i, hi, hverify, hfirst, hlast.trans hdrop⟩
    · exact hkeep prop rfl _ _

end Pass

/-! ### What is left -/

section Left

variable {layers : List LayerProperties} {name : String} {p : LayerProperties}

theorem CompleteIn.usableBelow (hnd : (layerNames layers).Nodup) (hp : p ∈ layers) (h : CompleteIn layers p) :
    UsableBelow layers p.layerName := by
  intro n hn q hq
  rcases ReflTransGen.cases_head hn with rfl | ⟨m, hchild, hmn⟩
  · obtain rfl := Option.some.inj (hq.symm.trans (loaderFindLayerProperty_of_mem hnd hp))
    exact h.components
  · unfold Child at hchild
    rw [metaComponents_of_mem hnd hp] at hchild
    obtain ⟨hm, hmeta⟩ := List.mem_filter.1 hchild
    exact h.below m hm hmeta n hmn q hq

theorem UsableBelow.completeIn (hnd : (layerNames layers).Nodup) (hp : p ∈ layers)
    (h : UsableBelow layers p.layerName) : CompleteIn layers p := by
  refine ⟨h _ .refl p (loaderFindLayerProperty_of_mem hnd hp), fun n hn hmeta m hm => h m (.head ?_ hm)⟩
  unfold Child
  rw [metaComponents_of_mem hnd hp]
  exact List.mem_filter.2 ⟨hn, hmeta⟩

theorem MetaValid.below (h : MetaValid layers name) {n : String} (hn : Below layers name n) : MetaValid layers n :=
  ⟨fun m hm => h.usable m (hn.trans hm), h.acyclic.below hn⟩

end Left

section Closed

variable {ctx : LayerContext} {req : ℕ → ExtensionRequests} {l left : List LayerProperties}

/-- What is known of a list that `verify_all_meta_layers` leaves of another. -/
structure LeftOf (l left : List LayerProperties) : Prop where
  part : PartOf left l
  nonMeta : (left.filter fun p => !p.isMeta) = l.filter fun p => !p.isMeta
  kept : ∀ p ∈ left, p.isMeta = true → MetaValid l p.layerName ∧ NamedOnce l p.layerName
  dropped : ∀ p ∈ l, p.isMeta = true → p.layerName ∉ layerNames left → ∃ stage i, stage[i]? = some p ∧
    verifyMetaLayer stage i = false ∧ PartOf left stage ∧ PartOf stage l

/-- What passes the check in a part of a list is valid in the list. -/
theorem PartOf.valid_of_verifyMetaLayer (h : PartOf left l) {i : ℕ} {p : LayerProperties} (hp : left[i]? = some p)
    (hmeta : p.isMeta = true) (hpass : verifyMetaLayer left i = true) :
    MetaValid l p.layerName ∧ NamedOnce l p.layerName := by
  obtain ⟨hvalid, honce⟩ := (verifyMetaLayer_iff h.nodup_left hp hmeta).1 hpass
  have hinside := hvalid.usable.inside (List.mem_map_of_mem (List.mem_of_getElem? hp))
  exact ⟨(h.metaValid_iff hinside).1 hvalid, (h.namedOnce_iff hinside).1 honce⟩

/-- **What is left**: meta-layers that are valid, with nothing below them named twice, and all that did pass. -/
theorem leftOf_verifyAllMetaLayers (hnd : (layerNames l).Nodup) : LeftOf l (verifyAllMetaLayers ctx req l).2.2 := by
  have hpart : PartOf (verifyAllMetaLayers ctx req l).2.2 l := by
    obtain ⟨kept', hlist, hsub, -⟩ := verifyAllMetaLayersFrom_kept ctx req [] l .success false
    refine ⟨?_, hnd⟩
    unfold verifyAllMetaLayers
    rw [hlist]
    exact hsub
  refine ⟨hpart, verifyAllMetaLayersFrom_nonMeta ctx req [] l .success false, fun p hp hmeta => ?_,
    fun p hp hmeta hname => ?_⟩
  · obtain ⟨stage, ⟨i, p', hi, hcore, hpass⟩, -, hlast⟩ := verifyAllMetaLayers_kept ctx req l hp hmeta
    have hstage : PartOf stage l := ⟨hlast, hnd⟩
    rw [← layerName_of_core hcore]
    exact hstage.valid_of_verifyMetaLayer hi ((isMeta_of_core hcore).trans hmeta) hpass
  · rcases verifyAllMetaLayersFrom_dropped ctx req [] l .success false hp with hin | hdropped
    · obtain ⟨q, hq, hcore⟩ := List.mem_map.1 hin
      exact absurd (List.mem_map.2 ⟨q, hq, layerName_of_core hcore⟩) hname
    · obtain ⟨stage, i, hi, hverify, hfirst, hlast⟩ := hdropped
      have hstage : PartOf stage l := ⟨hlast, hnd⟩
      exact ⟨stage, i, hi, hverify, ⟨hfirst, hstage.nodup_left⟩, hstage⟩

variable {b : String} {p : LayerProperties}

/-- The components of what is below a valid name are left, if the meta-layers among them are. -/
theorem LeftOf.components (h : LeftOf l left) (hvalid : MetaValid l b)
    (hbelow : ∀ c, TransGen (Child (metaComponents l)) b c → c ∈ layerNames left) {m : String} (hm : Below l b m)
    (hp : loaderFindLayerProperty m l = some p) : ∀ n ∈ p.componentLayerNames, n ∈ layerNames left := by
  intro n hn
  obtain ⟨c, hc, -⟩ := hvalid.usable m hm p hp n hn
  obtain ⟨hcl, hname⟩ := mem_of_loaderFindLayerProperty hc
  by_cases hmeta : c.isMeta = true
  · refine hbelow n (TransGen.tail' hm ?_)
    unfold Child metaComponents
    rw [hp]
    refine List.mem_filter.2 ⟨hn, ?_⟩
    simp [isMetaName, hc, hmeta]
  · have hleft : c ∈ left.filter fun p => !p.isMeta := by
      rw [h.nonMeta]
      exact List.mem_filter.2 ⟨hcl, by simpa using hmeta⟩
    exact hname ▸ List.mem_map_of_mem (List.mem_filter.1 hleft).1

/-- A meta-layer that should pass is left if the meta-layers below it are. -/
theorem LeftOf.mem_of_below (h : LeftOf l left) (hp : p ∈ l) (hmeta : p.isMeta = true)
    (hvalid : MetaValid l p.layerName) (honce : NamedOnce l p.layerName)
    (hbelow : ∀ c, TransGen (Child (metaComponents l)) p.layerName c → c ∈ layerNames left) :
    p.layerName ∈ layerNames left := by
  by_contra hname
  obtain ⟨stage, i, hi, hverify, hfirst, hstage⟩ := h.dropped p hp hmeta hname
  have hmem : p.layerName ∈ layerNames stage := List.mem_map_of_mem (List.mem_of_getElem? hi)
  have hinside : ∀ m, Below l p.layerName m → Inside stage m := by
    intro m hm
    have hm' : m ∈ layerNames stage := by
      rcases reflTransGen_iff_eq_or_transGen.1 hm with rfl | hm
      · exact hmem
      · exact hfirst.names.subset (hbelow m hm)
    obtain ⟨q, q', hq, hq', hcore⟩ := hstage.find hm'
    refine ⟨q, hq, fun n hn => ?_⟩
    rw [componentLayerNames_of_core hcore] at hn
    exact hfirst.names.subset (h.components hvalid hbelow hm hq' n hn)
  have hinside := hstage.insideBelow hinside
  have hpass := (verifyMetaLayer_iff hstage.nodup_left hi hmeta).2
    ⟨(hstage.metaValid_iff hinside).2 hvalid, (hstage.namedOnce_iff hinside).2 honce⟩
  rw [hverify] at hpass
  cases hpass

/-- Of the valid meta-layers that are not left there is one below which all are. -/
theorem LeftOf.exists_last (hvalid : MetaValid l b) (hmeta : isMetaName l b = true) (hb : b ∉ layerNames left) :
    ∃ p ∈ l, p.isMeta = true ∧ Below l b p.layerName ∧ p.layerName ∉ layerNames left ∧
      ∀ c, TransGen (Child (metaComponents l)) p.layerName c → c ∈ layerNames left := by
  have hacc := hvalid.acyclic.acc (l := layerNames l) fun _ _ hchild =>
    mem_layerNames_of_isMetaName (isMetaName_of_child hchild)
  obtain ⟨c, hbc, hc, hlast⟩ := Lib.exists_minimal (P := fun n => n ∉ layerNames left) hacc hb
  obtain ⟨p, hp, hpmeta⟩ := (Option.any_eq_true _ _).1 (isMetaName_of_below hmeta hbc)
  obtain ⟨hpl, rfl⟩ := mem_of_loaderFindLayerProperty hp
  exact ⟨p, hpl, hpmeta, hbc, hc, fun d hd => not_not.1 (hlast d hd)⟩

theorem isMetaName_of_mem (hnd : (layerNames l).Nodup) (hp : p ∈ l) (hmeta : p.isMeta = true) :
    isMetaName l p.layerName = true := by
  unfold isMetaName
  rw [loaderFindLayerProperty_of_mem hnd hp]
  exact hmeta

/-- A dropped meta-layer that is complete in what is left is valid in the list. -/
theorem LeftOf.metaValid_of_completeIn (h : LeftOf l left) (hp : p ∈ l) (hcomplete : CompleteIn left p) :
    MetaValid l p.layerName := by
  have hnames : ∀ n ∈ p.componentLayerNames, n ∈ layerNames left := by
    intro n hn
    obtain ⟨c, hc, -⟩ := hcomplete.components n hn
    exact loaderFindLayerProperty_isSome.1 (by rw [hc]; rfl)
  have hchild : ∀ n, Child (metaComponents l) p.layerName n → MetaValid l n := by
    intro n hn
    unfold Child at hn
    rw [metaComponents_of_mem h.part.nodup hp] at hn
    obtain ⟨hn, hmeta⟩ := List.mem_filter.1 hn
    rw [← h.part.isMetaName (hnames n hn)] at hmeta
    obtain ⟨q, hq, hqmeta⟩ := (Option.any_eq_true _ _).1 hmeta
    obtain ⟨hql, rfl⟩ := mem_of_loaderFindLayerProperty hq
    exact (h.kept q hql hqmeta).1
  have hcomponents : ComponentsUsable l p := (h.part.componentsUsable rfl hnames).1 hcomplete.components
  refine ⟨fun m hm q hq => ?_, Lib.acyclicBelow_of_children fun n hn => (hchild n hn).acyclic⟩
  rcases ReflTransGen.cases_head hm with rfl | ⟨n, hn, hnm⟩
  · obtain rfl := Option.some.inj (hq.symm.trans (loaderFindLayerProperty_of_mem h.part.nodup hp))
    exact hcomponents
  · exact (hchild n hn).usable m hnm q hq

/-- A valid meta-layer is left if nothing below it is named twice. -/
theorem LeftOf.mem_of_valid (h : LeftOf l left) (hmeta : isMetaName l b = true) (hvalid : MetaValid l b)
    (honce : NamedOnce l b) : b ∈ layerNames left := by
  by_contra hname
  obtain ⟨p, hp, hpmeta, hbelow, hdropped, hrest⟩ := LeftOf.exists_last hvalid hmeta hname
  exact hdropped (h.mem_of_below hp hpmeta (hvalid.below hbelow) (honce.below hbelow) hrest)

/-- Everything below a meta-layer that is left is left. -/
theorem LeftOf.insideBelow (h : LeftOf l left) (hp : p ∈ left) (hmeta : p.isMeta = true) :
    InsideBelow left p.layerName := by
  obtain ⟨hvalid, honce⟩ := h.kept p hp hmeta
  have hbelow : ∀ c, Below l p.layerName c → c ∈ layerNames left := by
    intro c hc
    rcases reflTransGen_iff_eq_or_transGen.1 hc with rfl | hc'
    · exact List.mem_map_of_mem hp
    · obtain ⟨d, -, hdc⟩ := TransGen.tail'_iff.1 hc'
      exact h.mem_of_valid (isMetaName_of_child hdc) (hvalid.below hc) (honce.below hc)
  refine h.part.insideBelow fun m hm => ?_
  obtain ⟨r, r', hr, hr', hcore⟩ := h.part.find (hbelow m hm)
  refine ⟨r, hr, fun n hn => ?_⟩
  rw [componentLayerNames_of_core hcore] at hn
  exact h.components hvalid (fun c hc => hbelow c hc.to_reflTransGen) hm hr' n hn

/-- The list is closed if every valid meta-layer should pass. -/
theorem LeftOf.closedPart (h : LeftOf l left)
    (honce : ∀ p ∈ l, p.isMeta = true → MetaValid l p.layerName → NamedOnce l p.layerName) : ClosedPart l left := by
  refine ⟨fun p hp hmeta => ?_, h.nonMeta, fun p hp hmeta hname hcomplete => ?_⟩
  · have husable := (h.part.usableBelow_iff (h.insideBelow hp hmeta)).2 (h.kept p hp hmeta).1.usable
    exact husable.completeIn h.part.nodup_left hp
  · have hvalid := h.metaValid_of_completeIn hp hcomplete
    exact hname (h.mem_of_valid (isMetaName_of_mem h.part.nodup hp hmeta) hvalid (honce p hp hmeta hvalid))

/-- In a closed list no valid meta-layer was dropped. -/
theorem LeftOf.namedOnce (h : LeftOf l left) (hclosed : ClosedPart l left) (hp : p ∈ l) (hmeta : p.isMeta = true)
    (hvalid : MetaValid l p.layerName) : NamedOnce l p.layerName := by
  by_cases hname : p.layerName ∈ layerNames left
  · obtain ⟨q, hq, hqname⟩ := List.mem_map.1 hname
    obtain ⟨q', p', hq', hp', hcore⟩ := h.part.find hname
    rw [← hqname, loaderFindLayerProperty_of_mem h.part.nodup_left hq] at hq'
    obtain rfl := Option.some.inj hq'
    obtain rfl := Option.some.inj (hp'.symm.trans (loaderFindLayerProperty_of_mem h.part.nodup hp))
    exact hqname ▸ (h.kept q hq ((isMeta_of_core hcore).trans hmeta)).2
  · obtain ⟨b, hb, hbmeta, hbelow, hdropped, hrest⟩ :=
      LeftOf.exists_last hvalid (isMetaName_of_mem h.part.nodup hp hmeta) hname
    have hbvalid := hvalid.below hbelow
    have hfind := loaderFindLayerProperty_of_mem h.part.nodup hb
    have hnames := h.components hbvalid hrest .refl hfind
    refine absurd ⟨?_, fun n hn hnmeta => ?_⟩ (hclosed.maximal b hb hbmeta hdropped)
    · exact (h.part.componentsUsable rfl hnames).2 (hbvalid.usable _ .refl b hfind)
    · obtain ⟨c, hc, hcmeta⟩ := (Option.any_eq_true _ _).1 hnmeta
      obtain ⟨hcl, rfl⟩ := mem_of_loaderFindLayerProperty hc
      exact (hclosed.closed c hcl hcmeta).usableBelow h.part.nodup_left hcl

end Closed

/-- **The pass leaves a closed list** exactly if no meta-layer below a valid one is named twice. -/
theorem closedPart_verifyAllMetaLayers_iff (ctx : LayerContext) (req : ℕ → ExtensionRequests)
    {l : List LayerProperties} (hnd : (layerNames l).Nodup) :
    ClosedPart l (verifyAllMetaLayers ctx req l).2.2 ↔
      ∀ p ∈ l, p.isMeta = true → MetaValid l p.layerName → NamedOnce l p.layerName := by
  have hleft : LeftOf l (verifyAllMetaLayers ctx req l).2.2 := leftOf_verifyAllMetaLayers hnd
  exact ⟨fun hclosed p hp hmeta => hleft.namedOnce hclosed hp hmeta, hleft.closedPart⟩

/-- Every request succeeds. -/
def allGranted (_ : ℕ) : ExtensionRequests := ⟨fun _ => true, fun _ _ => true⟩

theorem closedPart_verifyAllMetaLayers_iff_diamond :
    ClosedPart diamond (verifyAllMetaLayers plainContext allGranted diamond).2.2 ↔
      ∀ p ∈ diamond, p.isMeta = true → MetaValid diamond p.layerName → NamedOnce diamond p.layerName :=
  closedPart_verifyAllMetaLayers_iff plainContext allGranted (by decide)

theorem not_closedPart :
    (layerNames diamond).Nodup ∧ ¬ ClosedPart diamond (verifyAllMetaLayers plainContext allGranted diamond).2.2 := by
  have hnd : (layerNames diamond).Nodup := by decide
  refine ⟨hnd, fun hclosed => ?_⟩
  have hmem : metaOf "M" ["A", "B"] ∈ diamond := List.mem_cons_self
  have honce := (leftOf_verifyAllMetaLayers hnd).namedOnce hclosed hmem rfl metaValid_diamond
  have hpass := (verifyMetaLayer_iff hnd (i := 0) (p := metaOf "M" ["A", "B"]) rfl rfl).2 ⟨metaValid_diamond, honce⟩
  exact absurd hpass (by decide)

end VulkanLoader
