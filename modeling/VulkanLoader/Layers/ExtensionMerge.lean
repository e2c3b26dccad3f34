import VulkanLoader.Layers.ClosedList
import VulkanLoader.Lib.Lists

/-!
# The extensions of meta-layers

`verify_all_meta_layers` adds the extensions of the components of a meta-layer to its own when it comes to it in the
list.  A component that is a meta-layer has those of its components by then only if it stands before.  So a meta-layer
gets the extensions of a layer at a depth only through nested meta-layers each of which stands before the one that names
it (`Gathered`).

A request for memory that is refused is never reported: the result that would say so is passed through a `bool`, and
that of `loader_add_to_dev_ext_list` is not looked at.
-/

namespace VulkanLoader

open Relation
open Lib (Child addMissing mem_addMissing nodup_addMissing)

/-- The two kinds of extensions of a layer. -/
inductive ExtensionKind where
  | ofInstance
  | ofDevice

/-- The names of the extensions of a layer. -/
def LayerProperties.extensionNames (p : LayerProperties) : ExtensionKind → List String
  | .ofInstance => p.instanceExtensionList.list.map (·.extensionName)
  | .ofDevice => p.deviceExtensionList.list.map (·.props.extensionName)

/-! ### Requests that are refused -/

/-- A request for the device extensions of a component is refused. -/
def deviceRefused (grow : ℕ → Bool) : List DevExtProps → DeviceExtensionList → Bool
  | [], _ => false
  | ext :: exts, list =>
    if !hasVkDevExtProperty ext.props list then
      let r := loaderAddToDevExtList (fun _ => grow exts.length) list ext.props none
      decide (r.1 = .errorOutOfHostMemory) || deviceRefused grow exts r.2
    else deviceRefused grow exts list

/-- A request of `update_meta_layer_extensions_from_component_layers` is refused. -/
def mergeRefused (req : ExtensionRequests) : List LayerProperties → LayerProperties → Bool
  | [], _ => false
  | compProp :: comps, prop =>
    let r := addInstanceExtensions req.instanceExtensions compProp.instanceExtensionList.list prop.instanceExtensionList
    let grow := req.deviceExtensions comps.length
    r.1 || deviceRefused grow compProp.deviceExtensionList.list prop.deviceExtensionList ||
      mergeRefused req comps { prop with
        instanceExtensionList := r.2
        deviceExtensionList :=
          addDeviceExtensions grow compProp.deviceExtensionList.list prop.deviceExtensionList }

/-- A request of the loop of `verify_all_meta_layers` is refused. -/
def verifyRefusedFrom (req : ℕ → ExtensionRequests) : List LayerProperties → List LayerProperties → Bool
  | _, [] => false
  | kept, prop :: rest =>
    if prop.isMeta then
      if verifyMetaLayer (kept ++ prop :: rest) kept.length then
        mergeRefused (req kept.length)
            (prop.componentLayerNames.filterMap (loaderFindLayerProperty · (kept ++ prop :: rest))) prop ||
          verifyRefusedFrom req
            (kept ++ [(updateMetaLayerExtensionsFromComponentLayers (req kept.length) prop (kept ++ prop :: rest)).2]) rest
      else verifyRefusedFrom req kept rest
    else verifyRefusedFrom req (kept ++ [prop]) rest

/-- A request of `verify_all_meta_layers` is refused. -/
def verifyRefused (req : ℕ → ExtensionRequests) (instanceLayers : List LayerProperties) : Bool :=
  verifyRefusedFrom req [] instanceLayers

/-! ### What is asked of the pass -/

/-- The components of the layer of a name. -/
def componentsOf (layers : List LayerProperties) (name : String) : List String :=
  ((loaderFindLayerProperty name layers).map LayerProperties.componentLayerNames).getD []

/-- The name is reached from another through component names, at any depth. -/
def Reaches (layers : List LayerProperties) (a n : String) : Prop := ∃ k, Below layers a k ∧ n ∈ componentsOf layers k

/-- The extensions of each meta-layer that is kept are all that there are at any depth, each once, and a request that is
refused is reported. -/
structure MergesEveryLevel (ctx : LayerContext) (req : ℕ → ExtensionRequests) (l : List LayerProperties) : Prop where
  merged : (verifyAllMetaLayers ctx req l).1 = .success → ∀ m ∈ (verifyAllMetaLayers ctx req l).2.2, m.isMeta = true →
    ∀ q ∈ (verifyAllMetaLayers ctx req l).2.2, Reaches (verifyAllMetaLayers ctx req l).2.2 m.layerName q.layerName →
      ∀ kind, q.extensionNames kind ⊆ m.extensionNames kind
  once : (verifyAllMetaLayers ctx req l).1 = .success → ∀ m ∈ (verifyAllMetaLayers ctx req l).2.2, m.isMeta = true →
    ∀ kind, (m.extensionNames kind).Nodup
  reported : verifyRefused req l = true → (verifyAllMetaLayers ctx req l).1 = .errorOutOfHostMemory

/-- The layer of the name has the extension itself. -/
def Owns (layers : List LayerProperties) (kind : ExtensionKind) (name e : String) : Prop :=
  ∃ p, loaderFindLayerProperty name layers = some p ∧ e ∈ p.extensionNames kind

/-- The second name is that of a meta-layer that is a component of the first one and stands before it. -/
def Earlier (layers : List LayerProperties) (a b : String) : Prop :=
  b ∈ componentsOf layers a ∧ isMetaName layers b = true ∧ placeOf layers b < placeOf layers a

/-- The layer of the name has the extension itself, or a layer has it that it reaches through meta-layers each of which
stands before the one that names it. -/
def Gathered (layers : List LayerProperties) (kind : ExtensionKind) (a e : String) : Prop :=
  Owns layers kind a e ∨
    ∃ k, ReflTransGen (Earlier layers) a k ∧ ∃ n ∈ componentsOf layers k, Owns layers kind n e

/-- Each meta-layer that passes the check has distinct extensions of its own, and gathers all that there are at any
depth. -/
def GathersAll (l : List LayerProperties) : Prop :=
  ∀ m ∈ l, m.isMeta = true → MetaValid l m.layerName → NamedOnce l m.layerName → ∀ kind,
    (m.extensionNames kind).Nodup ∧
      ∀ q ∈ l, Reaches l m.layerName q.layerName → ∀ e ∈ q.extensionNames kind, Gathered l kind m.layerName e

/-- Lists without memory are empty. -/
def SoundLists (p : LayerProperties) : Prop :=
  (p.instanceExtensionList.capacity = 0 → p.instanceExtensionList.list = []) ∧
    (p.deviceExtensionList.capacity = 0 → p.deviceExtensionList.list = [])

/-! ### One merge -/

section Merge

theorem hasVkDevExtProperty_iff {ext : VkExtensionProperties} {list : DeviceExtensionList} :
    hasVkDevExtProperty ext list = true ↔ ext.extensionName ∈ list.list.map (·.props.extensionName) := by
  simp [hasVkDevExtProperty, List.any_eq_true, List.mem_map]

variable {grow : ℕ → Bool}

/-- A new instance extension goes to the end of the list, if there is memory. -/
theorem loaderAddToExtList_new {ext : VkExtensionProperties} {list : ExtensionList}
    (hsound : list.capacity = 0 → list.list = []) (hnew : hasVkExtensionProperty ext list = false)
    (hok : (loaderAddToExtList grow list [ext]).1 ≠ .errorOutOfHostMemory) :
    (loaderAddToExtList grow list [ext]).2.list = list.list ++ [ext] ∧
      (loaderAddToExtList grow list [ext]).2.capacity ≠ 0 := by
  unfold loaderAddToExtList at hok ⊢
  by_cases hcapacity : list.capacity = 0
  · rw [if_pos hcapacity] at hok ⊢
    unfold loaderInitExtensionList at hok ⊢
    split_ifs at hok ⊢ with hgrow
    · simp [loaderAddToExtList.go, addExtension, hasVkExtensionProperty, hsound hcapacity]
    · exact absurd rfl hok
  · rw [if_neg hcapacity] at hok ⊢
    simp only [loaderAddToExtList.go, addExtension, hnew, Bool.false_eq_true, if_false] at hok ⊢
    split_ifs at hok ⊢ with hfull hgrow
    · exact ⟨rfl, by simpa using hcapacity⟩
    · exact absurd rfl hok
    · exact ⟨rfl, hcapacity⟩

theorem addInstanceExtensions_names (exts : List VkExtensionProperties) {list : ExtensionList}
    (hsound : list.capacity = 0 → list.list = []) (hok : (addInstanceExtensions grow exts list).1 = false) :
    (addInstanceExtensions grow exts list).2.list.map (·.extensionName) =
        addMissing (exts.map (·.extensionName)) (list.list.map (·.extensionName)) ∧
      ((addInstanceExtensions grow exts list).2.capacity = 0 → (addInstanceExtensions grow exts list).2.list = []) := by
  induction exts generalizing list with
  | nil => exact ⟨rfl, hsound⟩
  | cons ext exts ih =>
    unfold addInstanceExtensions at hok ⊢
    by_cases hhas : hasVkExtensionProperty ext list = true
    · rw [if_neg (by simpa using hhas)] at hok ⊢
      rw [List.map_cons, Lib.addMissing_cons_of_mem (hasVkExtensionProperty_iff.1 hhas)]
      exact ih hsound hok
    · have hnew : hasVkExtensionProperty ext list = false := by simpa using hhas
      rw [if_pos (by simpa using hnew)] at hok ⊢
      dsimp only at hok ⊢
      split_ifs at hok ⊢ with hoom
      obtain ⟨hlist, hcapacity⟩ := loaderAddToExtList_new hsound hnew hoom
      rw [List.map_cons, Lib.addMissing_cons_of_not_mem fun hmem => hhas (hasVkExtensionProperty_iff.2 hmem)]
      have hrest := ih (fun hzero => absurd hzero hcapacity) hok
      rw [hlist, List.map_append] at hrest
      exact hrest

/-- A new device extension goes to the end of the list, if there is memory. -/
theorem loaderAddToDevExtList_new {ext : VkExtensionProperties} {list : DeviceExtensionList}
    (hsound : list.capacity = 0 → list.list = []) (hnew : hasVkDevExtProperty ext list = false)
    (hok : (loaderAddToDevExtList grow list ext none).1 ≠ .errorOutOfHostMemory) :
    (loaderAddToDevExtList grow list ext none).2.list = list.list ++ [⟨ext, []⟩] ∧
      (loaderAddToDevExtList grow list ext none).2.capacity ≠ 0 := by
  unfold loaderAddToDevExtList at hok ⊢
  by_cases hcapacity : list.capacity = 0
  · rw [if_pos hcapacity] at hok ⊢
    by_cases hgrow : grow 0 = true
    · rw [if_pos hgrow]
      simp [hasVkDevExtProperty, hsound hcapacity]
    · rw [if_neg hgrow] at hok
      exact absurd rfl hok
  · rw [if_neg hcapacity] at hok ⊢
    dsimp only at hok ⊢
    rw [if_neg (by simp [hnew])] at hok ⊢
    split_ifs at hok ⊢ with hrefused hfull
    · exact absurd rfl hok
    · exact ⟨rfl, by simpa using hcapacity⟩
    · exact ⟨rfl, hcapacity⟩

theorem addDeviceExtensions_names (exts : List DevExtProps) {list : DeviceExtensionList}
    (hsound : list.capacity = 0 → list.list = []) (hok : deviceRefused grow exts list = false) :
    (addDeviceExtensions grow exts list).list.map (·.props.extensionName) =
        addMissing (exts.map (·.props.extensionName)) (list.list.map (·.props.extensionName)) ∧
      ((addDeviceExtensions grow exts list).capacity = 0 → (addDeviceExtensions grow exts list).list = []) := by
  induction exts generalizing list with
  | nil => exact ⟨rfl, hsound⟩
  | cons ext exts ih =>
    unfold addDeviceExtensions
    unfold deviceRefused at hok
    by_cases hhas : hasVkDevExtProperty ext.props list = true
    · rw [if_neg (by simpa using hhas)] at hok ⊢
      rw [List.map_cons, Lib.addMissing_cons_of_mem (hasVkDevExtProperty_iff.1 hhas)]
      exact ih hsound hok
    · have hnew : hasVkDevExtProperty ext.props list = false := by simpa using hhas
      rw [if_pos (by simpa using hnew)] at hok ⊢
      dsimp only at hok
      obtain ⟨hoom, hrest⟩ := Bool.or_eq_false_iff.1 hok
      obtain ⟨hlist, hcapacity⟩ := loaderAddToDevExtList_new hsound hnew (of_decide_eq_false hoom)
      rw [List.map_cons, Lib.addMissing_cons_of_not_mem fun hmem => hhas (hasVkDevExtProperty_iff.2 hmem)]
      have hrest := ih (fun hzero => absurd hzero hcapacity) hrest
      rw [hlist, List.map_append] at hrest
      exact hrest

/-- **One merge** without a request that is refused. -/
theorem updateMetaLayerExtensions_names {req : ExtensionRequests} (comps : List LayerProperties) {prop : LayerProperties}
    (hsound : SoundLists prop) (hok : mergeRefused req comps prop = false) :
    (updateMetaLayerExtensions req comps prop).1 = false ∧ ∀ kind,
      (updateMetaLayerExtensions req comps prop).2.extensionNames kind =
        addMissing (comps.flatMap fun c => c.extensionNames kind) (prop.extensionNames kind) := by
  induction comps generalizing prop with
  | nil => exact ⟨rfl, fun _ => rfl⟩
  | cons comp comps ih =>
    unfold mergeRefused at hok
    dsimp only at hok
    obtain ⟨hboth, hrest⟩ := Bool.or_eq_false_iff.1 hok
    obtain ⟨hinstance, hdevice⟩ := Bool.or_eq_false_iff.1 hboth
    obtain ⟨hinames, hisound⟩ := addInstanceExtensions_names _ hsound.1 hinstance
    obtain ⟨hdnames, hdsound⟩ := addDeviceExtensions_names _ hsound.2 hdevice
    obtain ⟨hres, hnames⟩ := ih ⟨hisound, hdsound⟩ hrest
    unfold updateMetaLayerExtensions
    dsimp only
    rw [if_neg (by simp [hinstance])]
    refine ⟨hres, fun kind => ?_⟩
    rw [hnames, List.flatMap_cons, Lib.addMissing_append]
    cases kind with
    | ofInstance => exact congrArg (addMissing _) hinames
    | ofDevice => exact congrArg (addMissing _) hdnames

end Merge

/-! ### What is gathered -/

section Gathered

variable {l : List LayerProperties} {kind : ExtensionKind} {a e : String}

/-- What a layer gathers, by its components. -/
theorem gathered_iff : Gathered l kind a e ↔ Owns l kind a e ∨
    ∃ n ∈ componentsOf l a, Owns l kind n e ∨ (Earlier l a n ∧ Gathered l kind n e) := by
  constructor
  · rintro (hown | ⟨k, hk, n, hn, hown⟩)
    · exact Or.inl hown
    · rcases ReflTransGen.cases_head hk with rfl | ⟨c, hac, hck⟩
      · exact Or.inr ⟨n, hn, Or.inl hown⟩
      · exact Or.inr ⟨c, hac.1, Or.inr ⟨hac, Or.inr ⟨k, hck, n, hn, hown⟩⟩⟩
  · rintro (hown | ⟨n, hn, hown | ⟨hearlier, hown | ⟨k, hk, m, hm, hown⟩⟩⟩)
    · exact Or.inl hown
    · exact Or.inr ⟨a, .refl, n, hn, hown⟩
    · exact Or.inr ⟨a, .refl, n, hn, hown⟩
    · exact Or.inr ⟨k, .head hearlier hk, m, hm, hown⟩

theorem owns_iff {p : LayerProperties} (hfind : loaderFindLayerProperty a l = some p) :
    Owns l kind a e ↔ e ∈ p.extensionNames kind := by
  unfold Owns
  rw [hfind]
  simp

theorem componentsOf_eq {p : LayerProperties} (hfind : loaderFindLayerProperty a l = some p) :
    componentsOf l a = p.componentLayerNames := by
  unfold componentsOf
  rw [hfind]
  rfl

/-- A layer stands in the front part of the list if its place is before the rest. -/
theorem placeOf_lt_iff {done rest : List LayerProperties} (hl : l = done ++ rest) (hnd : (layerNames l).Nodup)
    {p : LayerProperties} (hp : p ∈ l) : placeOf l p.layerName < done.length ↔ p ∈ done := by
  have hplace : ∀ i, l[i]? = some p → placeOf l p.layerName = i := fun i hi => by
    rw [placeOf, placeOf_of_getElem? hnd hi]
    rfl
  constructor
  · intro hlt
    obtain ⟨i, hi⟩ := List.mem_iff_getElem?.1 hp
    rw [hplace i hi] at hlt
    rw [hl, List.getElem?_append_left hlt] at hi
    exact List.mem_of_getElem? hi
  · intro hmem
    obtain ⟨i, hi⟩ := List.mem_iff_getElem?.1 hmem
    have hlt := (List.getElem?_eq_some_iff.1 hi).1
    rw [hplace i (by rw [hl, List.getElem?_append_left hlt, hi])]
    exact hlt

theorem placeOf_middle {done rest : List LayerProperties} {p : LayerProperties} (hl : l = done ++ p :: rest)
    (hnd : (layerNames l).Nodup) : placeOf l p.layerName = done.length := by
  rw [placeOf, placeOf_of_getElem? hnd (i := done.length) (by simp [hl])]
  rfl

end Gathered

/-! ### The pass -/

/-- A layer that the pass keeps: a meta-layer has what it gathers, another layer is as it was. -/
structure KeptOf (l : List LayerProperties) (p p₀ : LayerProperties) : Prop where
  mem : p₀ ∈ l
  core : p.core = p₀.core
  nonMeta : p.isMeta = false → p = p₀
  gathers : p.isMeta = true → ∀ kind, ((p.extensionNames kind).Nodup ↔ (p₀.extensionNames kind).Nodup) ∧
    ∀ e, e ∈ p.extensionNames kind ↔ Gathered l kind p₀.layerName e

section Pass

variable {l done rest kept : List LayerProperties} {prop : LayerProperties}

/-- What the components of a meta-layer have when the pass comes to it. -/
theorem mem_extensionNames_stage (hnd : (layerNames l).Nodup) (hl : l = done ++ prop :: rest)
    (hdone : ∀ p ∈ kept, ∃ p₀ ∈ done, KeptOf l p p₀) {n : String} (hn : n ∈ componentsOf l prop.layerName)
    {c c₀ : LayerProperties} (hc : loaderFindLayerProperty n (kept ++ prop :: rest) = some c)
    (hc₀ : loaderFindLayerProperty n l = some c₀) {kind : ExtensionKind} {e : String} :
    e ∈ c.extensionNames kind ↔ Owns l kind n e ∨ (Earlier l prop.layerName n ∧ Gathered l kind n e) := by
  obtain ⟨hmem, hname⟩ := mem_of_loaderFindLayerProperty hc
  obtain ⟨hmem₀, hname₀⟩ := mem_of_loaderFindLayerProperty hc₀
  have hplace : placeOf l n < placeOf l prop.layerName ↔ c₀ ∈ done := by
    rw [placeOf_middle hl hnd, ← hname₀]
    exact placeOf_lt_iff hl hnd hmem₀
  have hearlier : Earlier l prop.layerName n ↔ c₀.isMeta = true ∧ c₀ ∈ done := by
    unfold Earlier
    rw [and_iff_right hn, hplace, isMetaName, hc₀]
    rfl
  rw [owns_iff hc₀, hearlier]
  rcases List.mem_append.1 hmem with hkept | hrest
  · obtain ⟨p₀, hp₀, hof⟩ := hdone c hkept
    have hsame : c₀ = p₀ :=
      List.inj_on_of_nodup_map hnd hmem₀ hof.mem (hname₀.trans (hname.symm.trans (layerName_of_core hof.core)))
    subst hsame
    rcases hmeta : c.isMeta with _ | _
    · rw [hof.nonMeta hmeta, ← isMeta_of_core hof.core, hmeta]
      simp
    · rw [(hof.gathers hmeta kind).2 e, hname₀, and_iff_right ⟨(isMeta_of_core hof.core).symm.trans hmeta, hp₀⟩]
      refine (or_iff_right_of_imp fun hown => Or.inl ?_).symm
      exact (owns_iff hc₀).2 hown
  · have hcl : c ∈ l := hl ▸ List.mem_append_right _ hrest
    obtain rfl : c = c₀ := List.inj_on_of_nodup_map hnd hcl hmem₀ (hname.trans hname₀.symm)
    have hlnd : (done ++ prop :: rest).Nodup := hl ▸ hnd.of_map _
    have hnot : c ∉ done := fun hdone => List.disjoint_of_nodup_append hlnd hdone hrest
    simp [hnot]

variable {req : ℕ → ExtensionRequests}

/-- **One step of the pass**: a meta-layer that passes the check has what it gathers. -/
theorem keptOf_update (hnd : (layerNames l).Nodup) (hl : l = done ++ prop :: rest)
    (hdone : ∀ p ∈ kept, ∃ p₀ ∈ done, KeptOf l p p₀) (hpart : PartOf (kept ++ prop :: rest) l)
    (hmeta : prop.isMeta = true) (hverify : verifyMetaLayer (kept ++ prop :: rest) kept.length = true)
    (hsound : SoundLists prop) {r : ExtensionRequests}
    (hok : mergeRefused r (prop.componentLayerNames.filterMap (loaderFindLayerProperty · (kept ++ prop :: rest))) prop =
      false) :
    KeptOf l (updateMetaLayerExtensionsFromComponentLayers r prop (kept ++ prop :: rest)).2 prop := by
  have hprop : prop ∈ l := hl ▸ List.mem_append_right _ List.mem_cons_self
  have hfind := loaderFindLayerProperty_of_mem hnd hprop
  have hcore := core_updateMetaLayerExtensions r
    (prop.componentLayerNames.filterMap (loaderFindLayerProperty · (kept ++ prop :: rest))) prop
  refine ⟨hprop, hcore, fun hnot => ?_, fun _ kind => ?_⟩
  · have hmeta' := (isMeta_of_core hcore).trans hmeta
    exact absurd (hnot.symm.trans hmeta') (by decide)
  · have hnames := (updateMetaLayerExtensions_names _ hsound hok).2 kind
    unfold updateMetaLayerExtensionsFromComponentLayers
    rw [hnames, nodup_addMissing]
    refine ⟨Iff.rfl, fun e => ?_⟩
    rw [mem_addMissing, gathered_iff, owns_iff hfind]
    refine or_congr_right ?_
    -- every component is in the list, which the check saw
    have hstage : (kept ++ prop :: rest)[kept.length]? = some prop := by simp
    obtain ⟨hvalid, -⟩ := (verifyMetaLayer_iff hpart.nodup_left hstage hmeta).1 hverify
    have hfindStage := loaderFindLayerProperty_of_mem hpart.nodup_left (List.mem_of_getElem? hstage)
    have hcomponent : ∀ n ∈ prop.componentLayerNames, ∃ c, loaderFindLayerProperty n (kept ++ prop :: rest) = some c ∧
        (e ∈ c.extensionNames kind ↔ Owns l kind n e ∨ (Earlier l prop.layerName n ∧ Gathered l kind n e)) := by
      intro n hn
      obtain ⟨c, hc, -⟩ := hvalid.usable _ .refl prop hfindStage n hn
      obtain ⟨c', c₀, hc', hc₀, -⟩ := hpart.find (loaderFindLayerProperty_isSome.1 (by rw [hc]; rfl))
      obtain rfl := Option.some.inj (hc.symm.trans hc')
      refine ⟨c, hc, mem_extensionNames_stage hnd hl hdone ?_ hc hc₀⟩
      rw [componentsOf_eq hfind]
      exact hn
    rw [componentsOf_eq hfind]
    simp only [List.mem_flatMap, List.mem_filterMap]
    constructor
    · rintro ⟨c, ⟨n, hn, hc⟩, he⟩
      obtain ⟨c', hc', hiff⟩ := hcomponent n hn
      obtain rfl := Option.some.inj (hc.symm.trans hc')
      exact ⟨n, hn, hiff.1 he⟩
    · rintro ⟨n, hn, he⟩
      obtain ⟨c, hc, hiff⟩ := hcomponent n hn
      exact ⟨c, ⟨n, hn, hc⟩, hiff.2 he⟩

/-- **The run of the pass**, if no request is refused. -/
theorem keptOf_verifyAllMetaLayersFrom (ctx : LayerContext) (done : List LayerProperties) (hnd : (layerNames l).Nodup)
    (hsound : ∀ p ∈ l, p.isMeta = true → SoundLists p) (hl : l = done ++ rest)
    (hcores : (kept.map (·.core)).Sublist (done.map (·.core))) (hdone : ∀ p ∈ kept, ∃ p₀ ∈ done, KeptOf l p p₀)
    (hok : verifyRefusedFrom req kept rest = false) (ovr : Bool) :
    (verifyAllMetaLayersFrom ctx req kept rest .success ovr).1 = .success ∧
      ∀ p ∈ (verifyAllMetaLayersFrom ctx req kept rest .success ovr).2.2, ∃ p₀, KeptOf l p p₀ := by
  induction rest generalizing kept done ovr with
  | nil => exact ⟨rfl, fun p hp => (hdone p hp).imp fun _ h => h.2⟩
  | cons prop rest ih =>
    have hl' : l = (done ++ [prop]) ++ rest := by rw [hl, List.append_assoc]; rfl
    have hprop : prop ∈ l := hl ▸ List.mem_append_right _ List.mem_cons_self
    -- the layer goes to the end of what is kept
    have hkeep : ∀ q, KeptOf l q prop → (∀ p ∈ kept ++ [q], ∃ p₀ ∈ done ++ [prop], KeptOf l p p₀) ∧
        ((kept ++ [q]).map (·.core)).Sublist ((done ++ [prop]).map (·.core)) := by
      intro q hq
      constructor
      · intro p hp
        rcases List.mem_append.1 hp with hp | hp
        · obtain ⟨p₀, hp₀, hof⟩ := hdone p hp
          exact ⟨p₀, List.mem_append_left _ hp₀, hof⟩
        · obtain rfl := List.mem_singleton.1 hp
          exact ⟨prop, by simp, hq⟩
      · rw [List.map_append, List.map_append, List.map_singleton, List.map_singleton, hq.core]
        exact hcores.append_right _
    unfold verifyRefusedFrom at hok
    unfold verifyAllMetaLayersFrom
    split_ifs at hok ⊢ with hmeta hverify
    · obtain ⟨hmerge, hrest⟩ := Bool.or_eq_false_iff.1 hok
      have hpart : PartOf (kept ++ prop :: rest) l := by
        refine ⟨?_, hnd⟩
        rw [hl, List.map_append, List.map_append]
        exact hcores.append_right _
      have hq := keptOf_update hnd hl hdone hpart hmeta hverify (hsound prop hprop hmeta) hmerge
      obtain ⟨hkept, hcores'⟩ := hkeep _ hq
      have hres : (updateMetaLayerExtensionsFromComponentLayers (req kept.length) prop (kept ++ prop :: rest)).1 = false :=
        (updateMetaLayerExtensions_names _ (hsound prop hprop hmeta) hmerge).1
      dsimp only
      rw [hres]
      exact ih _ hl' hcores' hkept hrest _
    · refine ih _ hl' ?_ ?_ hok _
      · rw [List.map_append]
        exact hcores.trans (List.sublist_append_left _ _)
      · intro p hp
        obtain ⟨p₀, hp₀, hof⟩ := hdone p hp
        exact ⟨p₀, List.mem_append_left _ hp₀, hof⟩
    · have hq : KeptOf l prop prop := ⟨hprop, rfl, fun _ => rfl, fun h => absurd h hmeta⟩
      obtain ⟨hkept, hcores'⟩ := hkeep _ hq
      exact ih _ hl' hcores' hkept hok _

/-- A request that is refused never comes out as out of memory. -/
theorem verifyAllMetaLayersFrom_ne_errorOutOfHostMemory (ctx : LayerContext) {res : VkResult}
    (hres : res ≠ .errorOutOfHostMemory) (ovr : Bool) :
    (verifyAllMetaLayersFrom ctx req kept rest res ovr).1 ≠ .errorOutOfHostMemory := by
  induction rest generalizing kept res ovr with
  | nil => exact hres
  | cons prop rest ih =>
    unfold verifyAllMetaLayersFrom
    dsimp only
    split_ifs
    · exact ih (by decide) _
    · exact ih (by decide) _
    · exact ih hres _
    · exact ih hres _

end Pass

/-! ### What is reached -/

section Reached

variable {l left : List LayerProperties} {p q : LayerProperties} {n : String}

/-- What is reached from a meta-layer that is left is the same in both lists. -/
theorem LeftOf.reaches_iff (h : LeftOf l left) (hp : p ∈ left) (hmeta : p.isMeta = true) :
    Reaches left p.layerName n ↔ Reaches l p.layerName n := by
  have hinside := h.insideBelow hp hmeta
  unfold Reaches
  refine exists_congr fun k => ?_
  rw [← h.part.below_iff hinside]
  refine and_congr_right fun hk => ?_
  obtain ⟨c, hc, -⟩ := hinside k hk
  obtain ⟨c', c₀, hc', hc₀, hcore⟩ := h.part.find (loaderFindLayerProperty_isSome.1 (by rw [hc]; rfl))
  rw [componentsOf_eq hc', componentsOf_eq hc₀, componentLayerNames_of_core hcore]

/-- And it is left. -/
theorem LeftOf.mem_of_reaches (h : LeftOf l left) (hp : p ∈ left) (hmeta : p.isMeta = true)
    (hreach : Reaches left p.layerName n) : n ∈ layerNames left := by
  obtain ⟨k, hk, hn⟩ := hreach
  obtain ⟨c, hc, hnames⟩ := h.insideBelow hp hmeta k hk
  rw [componentsOf_eq hc] at hn
  exact hnames n hn

/-- What is reached from what is reached. -/
theorem reaches_of_gathered {kind : ExtensionKind} {a e : String} (hnd : (layerNames l).Nodup) (hq : q ∈ l)
    (hqmeta : q.isMeta = true) (hreach : Reaches l a q.layerName) (hgathered : Gathered l kind q.layerName e) :
    ∃ y ∈ l, Reaches l a y.layerName ∧ e ∈ y.extensionNames kind := by
  have hfind := loaderFindLayerProperty_of_mem hnd hq
  rcases hgathered with hown | ⟨k, hk, n, hn, y, hy, he⟩
  · exact ⟨q, hq, hreach, (owns_iff hfind).1 hown⟩
  · obtain ⟨hyl, rfl⟩ := mem_of_loaderFindLayerProperty hy
    refine ⟨y, hyl, ⟨k, ?_, hn⟩, he⟩
    -- a component that is a meta-layer is a step down
    have hchild : ∀ {b c : String}, c ∈ componentsOf l b → isMetaName l c = true → Child (metaComponents l) b c := by
      intro b c hc hcmeta
      unfold componentsOf at hc
      unfold Child metaComponents
      split
      · rename_i hb
        rw [hb] at hc
        cases hc
      · rename_i r hb
        rw [hb] at hc
        exact List.mem_filter.2 ⟨hc, hcmeta⟩
    obtain ⟨b, hb, hqb⟩ := hreach
    refine (hb.tail (hchild hqb (isMetaName_of_mem hnd hq hqmeta))).trans ?_
    exact ReflTransGen.mono (fun c d hcd => hchild hcd.1 hcd.2.1) _ _ hk

/-- A layer of the input whose name is left, as the pass left it. -/
theorem exists_keptOf (hnd : (layerNames l).Nodup) (hkept : ∀ p ∈ left, ∃ p₀, KeptOf l p p₀) (hp : p ∈ l)
    (hname : p.layerName ∈ layerNames left) : ∃ q ∈ left, q.layerName = p.layerName ∧ KeptOf l q p := by
  obtain ⟨q, hq, hqname⟩ := List.mem_map.1 hname
  obtain ⟨p', hof⟩ := hkept q hq
  obtain rfl : p' = p := List.inj_on_of_nodup_map hnd hof.mem hp ((layerName_of_core hof.core).symm.trans hqname)
  exact ⟨q, hq, hqname, hof⟩

/-- The pass takes no extension from a layer. -/
theorem KeptOf.keeps (hof : KeptOf l q p) (hnd : (layerNames l).Nodup) {kind : ExtensionKind} {e : String}
    (he : e ∈ p.extensionNames kind) : e ∈ q.extensionNames kind := by
  rcases hmeta : q.isMeta with _ | _
  · rw [hof.nonMeta hmeta]
    exact he
  · rw [(hof.gathers hmeta kind).2]
    exact Or.inl ((owns_iff (loaderFindLayerProperty_of_mem hnd hof.mem)).2 he)

/-- An extension of a layer that is reached is one of a layer of the input that is reached. -/
theorem KeptOf.reached (hof : KeptOf l q p) (hnd : (layerNames l).Nodup) {kind : ExtensionKind} {a e : String}
    (hreach : Reaches l a p.layerName) (he : e ∈ q.extensionNames kind) :
    ∃ y ∈ l, Reaches l a y.layerName ∧ e ∈ y.extensionNames kind := by
  rcases hmeta : q.isMeta with _ | _
  · rw [hof.nonMeta hmeta] at he
    exact ⟨p, hof.mem, hreach, he⟩
  · rw [(hof.gathers hmeta kind).2] at he
    exact reaches_of_gathered hnd hof.mem ((isMeta_of_core hof.core).symm.trans hmeta) hreach he

/-- If what is left has the extensions of what it reaches, each meta-layer that passes the check gathers them. -/
theorem LeftOf.gathersAll (hleft : LeftOf l left) (hnd : (layerNames l).Nodup)
    (hkept : ∀ p ∈ left, ∃ p₀, KeptOf l p p₀)
    (hmerged : ∀ m ∈ left, m.isMeta = true → ∀ q ∈ left, Reaches left m.layerName q.layerName →
      ∀ kind, q.extensionNames kind ⊆ m.extensionNames kind)
    (honce : ∀ m ∈ left, m.isMeta = true → ∀ kind, (m.extensionNames kind).Nodup) : GathersAll l := by
  intro m₀ hm₀ hmeta hvalid hnamed kind
  obtain ⟨m, hm, hname, hof⟩ :=
    exists_keptOf hnd hkept hm₀ (hleft.mem_of_valid (isMetaName_of_mem hnd hm₀ hmeta) hvalid hnamed)
  have hmeta' := (isMeta_of_core hof.core).trans hmeta
  obtain ⟨hdistinct, hgathers⟩ := hof.gathers hmeta' kind
  refine ⟨hdistinct.1 (honce m hm hmeta' kind), fun q₀ hq₀ hreach e he => ?_⟩
  rw [← hgathers]
  rw [← hname, ← hleft.reaches_iff hm hmeta'] at hreach
  obtain ⟨q, hq, hqname, hqof⟩ := exists_keptOf hnd hkept hq₀ (hleft.mem_of_reaches hm hmeta' hreach)
  exact hmerged m hm hmeta' q hq (hqname ▸ hreach) kind (hqof.keeps hnd he)

/-- A meta-layer that is left has what it gathers. -/
theorem LeftOf.gathered (hleft : LeftOf l left) (hkept : ∀ p ∈ left, ∃ p₀, KeptOf l p p₀) (hall : GathersAll l)
    {m : LayerProperties} (hm : m ∈ left) (hmeta : m.isMeta = true) (kind : ExtensionKind) :
    (m.extensionNames kind).Nodup ∧ ∀ q ∈ l, Reaches l m.layerName q.layerName →
      ∀ e ∈ q.extensionNames kind, e ∈ m.extensionNames kind := by
  obtain ⟨m₀, hof⟩ := hkept m hm
  obtain ⟨hvalid, hnamed⟩ := hleft.kept m hm hmeta
  rw [layerName_of_core hof.core] at hvalid hnamed ⊢
  obtain ⟨hdistinct, hin⟩ := hof.gathers hmeta kind
  obtain ⟨hnodup, hgathered⟩ := hall m₀ hof.mem ((isMeta_of_core hof.core).symm.trans hmeta) hvalid hnamed kind
  exact ⟨hdistinct.2 hnodup, fun q hq hreach e he => (hin e).2 (hgathered q hq hreach e he)⟩

end Reached

/-- **The merging reaches every level** exactly if no request is refused and each meta-layer that passes the check
gathers what there is at any depth. -/
theorem mergesEveryLevel_iff (ctx : LayerContext) (req : ℕ → ExtensionRequests) {l : List LayerProperties}
    (hnd : (layerNames l).Nodup) (hsound : ∀ p ∈ l, p.isMeta = true → SoundLists p) :
    MergesEveryLevel ctx req l ↔ verifyRefused req l = false ∧ GathersAll l := by
  have hleft : LeftOf l (verifyAllMetaLayers ctx req l).2.2 := leftOf_verifyAllMetaLayers hnd
  have hrun : verifyRefused req l = false → (verifyAllMetaLayers ctx req l).1 = .success ∧
      ∀ p ∈ (verifyAllMetaLayers ctx req l).2.2, ∃ p₀, KeptOf l p p₀ := fun hok =>
    keptOf_verifyAllMetaLayersFrom ctx [] hnd hsound rfl (List.Sublist.refl _) (List.forall_mem_nil _) hok false
  have hne : (verifyAllMetaLayers ctx req l).1 ≠ .errorOutOfHostMemory :=
    verifyAllMetaLayersFrom_ne_errorOutOfHostMemory ctx (by decide) false
  constructor
  · rintro ⟨hmerged, honce, hreported⟩
    have hok : verifyRefused req l = false := Bool.eq_false_iff.2 fun h => hne (hreported h)
    obtain ⟨hres, hkept⟩ := hrun hok
    exact ⟨hok, hleft.gathersAll hnd hkept (hmerged hres) (honce hres)⟩
  · rintro ⟨hok, hall⟩
    obtain ⟨-, hkept⟩ := hrun hok
    refine ⟨fun _ m hm hmeta q hq hreach kind e he => ?_,
      fun _ m hm hmeta kind => (hleft.gathered hkept hall hm hmeta kind).1, fun h => ?_⟩
    · rw [hleft.reaches_iff hm hmeta] at hreach
      obtain ⟨q₀, hqof⟩ := hkept q hq
      rw [layerName_of_core hqof.core] at hreach
      obtain ⟨y, hy, hyreach, hye⟩ := hqof.reached hnd hreach he
      exact (hleft.gathered hkept hall hm hmeta kind).2 y hy hyreach e hye
    · rw [hok] at h
      cases h

/-! ### A nested meta-layer that comes later -/

/-- Meta-layers, and a layer with an instance extension. -/
def withExtension (metas : List LayerProperties) : List LayerProperties :=
  metas ++ [{ LayerProperties.zero with layerName := "X", instanceExtensionList := ⟨[⟨"VK_EXT_x", 1⟩], 32⟩ }]

/-- A meta-layer that stands before the one which it names. -/
def outerFirst : List LayerProperties := withExtension [metaOf "M" ["N"], metaOf "N" ["X"]]

theorem mergesEveryLevel_iff_outerFirst :
    MergesEveryLevel plainContext allGranted outerFirst ↔
      verifyRefused allGranted outerFirst = false ∧ GathersAll outerFirst := by
  refine mergesEveryLevel_iff plainContext allGranted (by decide) fun p hp _ => ?_
  simp only [outerFirst, withExtension, List.cons_append, List.nil_append, List.mem_cons, List.not_mem_nil,
    or_false] at hp
  rcases hp with rfl | rfl | rfl
  · exact ⟨fun _ => rfl, fun _ => rfl⟩
  · exact ⟨fun _ => rfl, fun _ => rfl⟩
  · exact ⟨fun h => absurd h (by decide), fun _ => rfl⟩

/-- The outer meta-layer does not get the extension. -/
theorem not_mergesEveryLevel :
    (layerNames outerFirst).Nodup ∧ verifyRefused allGranted outerFirst = false ∧
      ¬ MergesEveryLevel plainContext allGranted outerFirst := by
  refine ⟨by decide, by decide, fun h => ?_⟩
  have hleft : ∃ n x, (verifyAllMetaLayers plainContext allGranted outerFirst).2.2 = [metaOf "M" ["N"], n, x] ∧
      n.layerName = "N" ∧ n.componentLayerNames = ["X"] ∧ n.isMeta = true ∧ x.layerName = "X" ∧
      x.extensionNames .ofInstance = ["VK_EXT_x"] := ⟨_, _, rfl, rfl, rfl, rfl, rfl, rfl⟩
  obtain ⟨n, x, hleft, hn, hnames, hmeta, hx, hextensions⟩ := hleft
  have hmerged := h.merged rfl (metaOf "M" ["N"])
  rw [hleft] at hmerged
  have hreach : Reaches [metaOf "M" ["N"], n, x] "M" x.layerName := by
    refine ⟨"N", .single ?_, ?_⟩
    · simp [Child, metaComponents, isMetaName, loaderFindLayerProperty, metaOf, hn, hmeta]
    · simp [componentsOf, loaderFindLayerProperty, metaOf, hn, hnames, hx]
  have hsub := hmerged List.mem_cons_self rfl x (by simp) hreach .ofInstance
  rw [hextensions] at hsub
  have hmem := hsub List.mem_cons_self
  cases hmem

end VulkanLoader
