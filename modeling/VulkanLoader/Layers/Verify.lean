import VulkanLoader.Layers.Properties
import Mathlib.Data.List.Perm.Subperm
import Mathlib.Logic.Relation

/-!
# The check of meta-layers

`verify_meta_layer_component_layers` walks the components of a meta-layer depth first and refuses one that it meets a
second time; `verify_all_meta_layers` removes what is refused.  The walk is bounded by the layers not yet met, so the
number of layers is fuel enough.

The check finds a component by its name as the expansion does, the first layer of that name, but goes on with the last
one.  `Checks` is the graph it walks.
-/

namespace VulkanLoader

open Relation

/-- The loop that looks for the index of a component: the last layer of the name. -/
def lastIndexOf (name : String) : List LayerProperties → Option ℕ
  | [] => none
  | item :: items =>
    match lastIndexOf name items with
    | some i => some (i + 1)
    | none => if name == item.layerName then some 0 else none

/-- The loop of `verify_meta_layer_component_layers` over the component names; `checked` are the indices that are set in
`already_checked_meta_layers`. -/
def verifyComponents (verify : ℕ → List ℕ → Option (Bool × List ℕ)) (layers : List LayerProperties)
    (prop : LayerProperties) : List String → List ℕ → Option (Bool × List ℕ)
  | [], checked => some (true, checked)
  | name :: names, checked =>
    match loaderFindLayerProperty name layers with
    | none => some (false, checked)
    | some compProp =>
      if !loaderCheckVersionMeetsRequired (loaderMakeVersion prop.specVersion) (loaderMakeVersion compProp.specVersion) then
        some (false, checked)
      else if prop.layerName == name then some (false, checked)
      else if compProp.isMeta then
        (lastIndexOf compProp.layerName layers).bind fun compPropIndex =>
          if compPropIndex ∈ checked then some (false, checked)
          else
            (verify compPropIndex checked).bind fun r =>
              if !r.1 then some (false, r.2) else verifyComponents verify layers prop names r.2
      else verifyComponents verify layers prop names checked

/-- `verify_meta_layer_component_layers`, with calls nested as deep as `fuel` allows. -/
def verifyMetaLayerComponentLayers (layers : List LayerProperties) : ℕ → ℕ → List ℕ → Option (Bool × List ℕ)
  | 0, _, _ => none
  | fuel + 1, propIndex, checked =>
    (layers[propIndex]?).bind fun prop =>
      verifyComponents (verifyMetaLayerComponentLayers layers fuel) layers prop prop.componentLayerNames
        (propIndex :: checked)

/-- The call from outside, which makes the array. -/
def verifyMetaLayer (layers : List LayerProperties) (propIndex : ℕ) : Bool :=
  ((verifyMetaLayerComponentLayers layers (layers.length + 1) propIndex []).map Prod.fst).getD false

/-- The graph of the check: from a layer to the layers it goes on with. -/
def Checks (layers : List LayerProperties) (i j : ℕ) : Prop :=
  ∃ prop, layers[i]? = some prop ∧ ∃ name ∈ prop.componentLayerNames, ∃ compProp,
    loaderFindLayerProperty name layers = some compProp ∧ compProp.isMeta = true ∧
      lastIndexOf compProp.layerName layers = some j

section Walk

variable {layers : List LayerProperties} {verify : ℕ → List ℕ → Option (Bool × List ℕ)}

theorem lastIndexOf_spec {name : String} {l : List LayerProperties} {j : ℕ} (h : lastIndexOf name l = some j) :
    ∃ p, l[j]? = some p ∧ p.layerName = name := by
  induction l generalizing j with
  | nil => cases h
  | cons item items ih =>
    unfold lastIndexOf at h
    split at h
    · rename_i i hi
      obtain rfl := Option.some.inj h
      exact ih hi
    · split_ifs at h with hname
      obtain rfl := Option.some.inj h
      exact ⟨item, rfl, (beq_iff_eq.1 hname).symm⟩

theorem exists_lastIndexOf {name : String} {l : List LayerProperties} {p : LayerProperties} (hp : p ∈ l)
    (hname : p.layerName = name) : ∃ j, lastIndexOf name l = some j := by
  induction l with
  | nil => cases hp
  | cons item items ih =>
    unfold lastIndexOf
    rcases hi : lastIndexOf name items with _ | i
    · rcases List.mem_cons.1 hp with rfl | hp
      · exact ⟨0, by simp [hname]⟩
      · obtain ⟨j, hj⟩ := ih hp
        rw [hi] at hj
        cases hj
    · exact ⟨i + 1, rfl⟩

/-- The loop only adds to what is checked, if the calls do. -/
theorem verifyComponents_subset (hverify : ∀ i c r, verify i c = some r → c ⊆ r.2) {prop : LayerProperties}
    {names : List String} {checked : List ℕ} {r : Bool × List ℕ}
    (h : verifyComponents verify layers prop names checked = some r) : checked ⊆ r.2 := by
  induction names generalizing checked with
  | nil =>
    obtain rfl := Option.some.inj h
    exact List.Subset.refl _
  | cons name names ih =>
    unfold verifyComponents at h
    split at h
    · obtain rfl := Option.some.inj h
      exact List.Subset.refl _
    · split_ifs at h
      · obtain rfl := Option.some.inj h
        exact List.Subset.refl _
      · obtain rfl := Option.some.inj h
        exact List.Subset.refl _
      · obtain ⟨j, -, h⟩ := Option.bind_eq_some_iff.1 h
        split_ifs at h
        · obtain rfl := Option.some.inj h
          exact List.Subset.refl _
        · obtain ⟨q, hq, h⟩ := Option.bind_eq_some_iff.1 h
          have hsub := hverify j checked q hq
          split_ifs at h
          · obtain rfl := Option.some.inj h
            exact hsub
          · exact List.Subset.trans hsub (ih h)
      · exact ih h

theorem verifyMetaLayerComponentLayers_subset {fuel i : ℕ} {checked : List ℕ} {r : Bool × List ℕ}
    (h : verifyMetaLayerComponentLayers layers fuel i checked = some r) : i :: checked ⊆ r.2 := by
  induction fuel generalizing i checked r with
  | zero => cases h
  | succ fuel ih =>
    obtain ⟨prop, -, h⟩ := Option.bind_eq_some_iff.1 h
    apply verifyComponents_subset _ h
    intro j c q hq
    exact List.Subset.trans (List.subset_cons_self j c) (ih hq)

/-- A loop that passes has found each component that is a meta-layer unchecked, and its check passed. -/
theorem verifyComponents_true (hverify : ∀ i c r, verify i c = some r → c ⊆ r.2) {prop : LayerProperties}
    {names : List String} {checked : List ℕ} {r : Bool × List ℕ}
    (h : verifyComponents verify layers prop names checked = some r) (hr : r.1 = true) {name : String}
    (hname : name ∈ names) {compProp : LayerProperties} (hfind : loaderFindLayerProperty name layers = some compProp)
    (hmeta : compProp.isMeta = true) {j : ℕ} (hj : lastIndexOf compProp.layerName layers = some j) :
    ∃ c q, checked ⊆ c ∧ j ∉ c ∧ verify j c = some q ∧ q.1 = true := by
  induction names generalizing checked with
  | nil => cases hname
  | cons n names ih =>
    unfold verifyComponents at h
    split at h
    · obtain rfl := Option.some.inj h
      cases hr
    · rename_i compProp' hfind'
      split_ifs at h with hversion hself hmeta'
      · obtain rfl := Option.some.inj h
        cases hr
      · obtain rfl := Option.some.inj h
        cases hr
      · obtain ⟨k, hk, h⟩ := Option.bind_eq_some_iff.1 h
        split_ifs at h with hchecked
        · obtain rfl := Option.some.inj h
          cases hr
        · obtain ⟨q, hq, h⟩ := Option.bind_eq_some_iff.1 h
          split_ifs at h with hpass
          · obtain rfl := Option.some.inj h
            cases hr
          · rcases List.mem_cons.1 hname with rfl | hname
            · obtain rfl := Option.some.inj (hfind.symm.trans hfind')
              obtain rfl := Option.some.inj (hj.symm.trans hk)
              exact ⟨checked, q, List.Subset.refl _, hchecked, hq, by simpa using hpass⟩
            · obtain ⟨c, q', hc, hjc, hq', hpass'⟩ := ih h hname
              exact ⟨c, q', List.Subset.trans (hverify k checked q hq) hc, hjc, hq', hpass'⟩
      · rcases List.mem_cons.1 hname with rfl | hname
        · obtain rfl := Option.some.inj (hfind.symm.trans hfind')
          exact absurd hmeta hmeta'
        · exact ih h hname

/-- **A check that passes** meets no layer that was checked before, itself included. -/
theorem not_mem_checked_of_pass {fuel i j : ℕ} {checked : List ℕ} {r : Bool × List ℕ}
    (h : verifyMetaLayerComponentLayers layers fuel i checked = some r) (hr : r.1 = true)
    (hpath : TransGen (Checks layers) i j) : j ∉ i :: checked := by
  induction fuel generalizing i checked r with
  | zero => cases h
  | succ fuel ih =>
    have hsub : ∀ k c q, verifyMetaLayerComponentLayers layers fuel k c = some q → c ⊆ q.2 := fun k c q hq =>
      List.Subset.trans (List.subset_cons_self k c) (verifyMetaLayerComponentLayers_subset hq)
    obtain ⟨k, hik, hkj⟩ := TransGen.head'_iff.1 hpath
    obtain ⟨prop, hprop, name, hname, compProp, hfind, hmeta, hk⟩ := hik
    obtain ⟨prop', hprop', h⟩ := Option.bind_eq_some_iff.1 h
    obtain rfl := Option.some.inj (hprop.symm.trans hprop')
    obtain ⟨c, q, hc, hkc, hq, hpass⟩ := verifyComponents_true hsub h hr hname hfind hmeta hk
    rcases reflTransGen_iff_eq_or_transGen.1 hkj with rfl | hkj
    · exact fun hj => hkc (hc hj)
    · exact fun hj => ih hq hpass hkj (List.mem_cons_of_mem _ (hc hj))

/-- A layer passes if the check has a result, and it is that the layer is valid. -/
theorem verifyMetaLayer_eq_true {i : ℕ} : verifyMetaLayer layers i = true ↔
    ∃ r, verifyMetaLayerComponentLayers layers (layers.length + 1) i [] = some r ∧ r.1 = true := by
  unfold verifyMetaLayer
  constructor
  · intro h
    rcases hrun : verifyMetaLayerComponentLayers layers (layers.length + 1) i [] with _ | r
    · rw [hrun] at h
      cases h
    · rw [hrun] at h
      exact ⟨r, rfl, h⟩
  · rintro ⟨r, hrun, hpass⟩
    rw [hrun]
    exact hpass

/-- A layer that passes is not on a cycle of the check. -/
theorem not_transGen_of_verifyMetaLayer {i : ℕ} (h : verifyMetaLayer layers i = true) :
    ¬ TransGen (Checks layers) i i := by
  obtain ⟨r, hrun, hpass⟩ := verifyMetaLayer_eq_true.1 h
  exact fun hpath => not_mem_checked_of_pass hrun hpass hpath List.mem_cons_self

/-! ### The fuel is enough -/

/-- The indices of an array that are set, at least `n` of them. -/
structure IndexSet (layers : List LayerProperties) (n : ℕ) (checked : List ℕ) : Prop where
  nodup : checked.Nodup
  lt_length : ∀ k ∈ checked, k < layers.length
  card : n ≤ checked.length

theorem IndexSet.le_length {n : ℕ} {checked : List ℕ} (h : IndexSet layers n checked) : n ≤ layers.length := by
  have hsub : checked ⊆ List.range layers.length := fun k hk => List.mem_range.2 (h.lt_length k hk)
  have hle := (h.nodup.subperm hsub).length_le
  rw [List.length_range] at hle
  exact Nat.le_trans h.card hle

theorem verifyComponents_isSome {n : ℕ}
    (hverify : ∀ j c, j < layers.length → j ∉ c → IndexSet layers n c →
      ∃ r, verify j c = some r ∧ IndexSet layers n r.2) (prop : LayerProperties) (names : List String)
    {checked : List ℕ} (hchecked : IndexSet layers n checked) :
    ∃ r, verifyComponents verify layers prop names checked = some r ∧ IndexSet layers n r.2 := by
  induction names generalizing checked with
  | nil => exact ⟨_, rfl, hchecked⟩
  | cons name names ih =>
    unfold verifyComponents
    split
    · exact ⟨_, rfl, hchecked⟩
    · rename_i compProp hfind
      split_ifs
      · exact ⟨_, rfl, hchecked⟩
      · exact ⟨_, rfl, hchecked⟩
      · obtain ⟨j, hj⟩ := exists_lastIndexOf (mem_of_loaderFindLayerProperty hfind).1 rfl
        rw [hj, Option.bind_some]
        split_ifs with hmem
        · exact ⟨_, rfl, hchecked⟩
        · obtain ⟨p, hp, -⟩ := lastIndexOf_spec hj
          obtain ⟨hlt, -⟩ := List.getElem?_eq_some_iff.1 hp
          obtain ⟨r, hr, hset⟩ := hverify j checked hlt hmem hchecked
          rw [hr, Option.bind_some]
          split_ifs
          · exact ⟨_, rfl, hset⟩
          · exact ih hset
      · exact ih hchecked

theorem verifyMetaLayerComponentLayers_isSome {fuel i n : ℕ} {checked : List ℕ} (hi : i < layers.length)
    (hnew : i ∉ checked) (hchecked : IndexSet layers n checked) (hfuel : layers.length < fuel + n) :
    ∃ r, verifyMetaLayerComponentLayers layers fuel i checked = some r ∧ IndexSet layers n r.2 := by
  induction fuel generalizing i n checked with
  | zero =>
    have hle := hchecked.le_length
    omega
  | succ fuel ih =>
    have hset : IndexSet layers (n + 1) (i :: checked) := by
      refine ⟨List.nodup_cons.2 ⟨hnew, hchecked.nodup⟩, fun k hk => ?_, Nat.succ_le_succ hchecked.card⟩
      rcases List.mem_cons.1 hk with rfl | hk
      · exact hi
      · exact hchecked.lt_length k hk
    obtain ⟨r, hr, hr'⟩ := verifyComponents_isSome
      (fun j c hj hjc hc => ih hj hjc hc (by omega)) layers[i] layers[i].componentLayerNames hset
    refine ⟨r, ?_, hr'.nodup, hr'.lt_length, Nat.le_trans (Nat.le_succ n) hr'.card⟩
    unfold verifyMetaLayerComponentLayers
    rw [List.getElem?_eq_getElem hi, Option.bind_some]
    exact hr

/-- **The check ends**: as much fuel as there are layers, and one more, is enough. -/
theorem verifyMetaLayer_isSome {i : ℕ} (hi : i < layers.length) :
    (verifyMetaLayerComponentLayers layers (layers.length + 1) i []).isSome := by
  have hempty : IndexSet layers 0 [] := ⟨List.nodup_nil, by simp, Nat.zero_le _⟩
  have hfuel : layers.length < layers.length + 1 + 0 := by omega
  obtain ⟨r, hr, -⟩ := verifyMetaLayerComponentLayers_isSome hi List.not_mem_nil hempty hfuel
  rw [hr]
  rfl

end Walk

/-! ### `verify_all_meta_layers` -/

/-- `has_vk_dev_ext_property`. -/
def hasVkDevExtProperty (extProp : VkExtensionProperties) (extList : DeviceExtensionList) : Bool :=
  extList.list.any fun e => e.props.extensionName == extProp.extensionName

/-- `loader_add_to_dev_ext_list`; `grow` says for each capacity whether the request made there succeeds. -/
def loaderAddToDevExtList (grow : ℕ → Bool) (extList : DeviceExtensionList) (props : VkExtensionProperties)
    (entrys : Option (List String)) : VkResult × DeviceExtensionList :=
  match if extList.capacity = 0 then if grow 0 then some ⟨[], 32⟩ else none else some extList with
  | none => (.errorOutOfHostMemory, extList)
  | some extList =>
    if hasVkDevExtProperty props extList then (.success, extList)
    else if extList.list.length ≥ extList.capacity ∧ !grow extList.capacity then (.errorOutOfHostMemory, extList)
    else
      (.success,
        { list := extList.list ++ [⟨props, entrys.getD []⟩]
          capacity := if extList.list.length ≥ extList.capacity then extList.capacity * 2 else extList.capacity })

/-- The loop over the instance extensions of a component; `true` is out of memory. -/
def addInstanceExtensions (grow : ℕ → Bool) : List VkExtensionProperties → ExtensionList → Bool × ExtensionList
  | [], list => (false, list)
  | ext :: exts, list =>
    if !hasVkExtensionProperty ext list then
      let r := loaderAddToExtList grow list [ext]
      if r.1 = .errorOutOfHostMemory then (true, r.2) else addInstanceExtensions grow exts r.2
    else addInstanceExtensions grow exts list

/-- The loop over the device extensions of a component, which does not look at the result of
`loader_add_to_dev_ext_list`; a request is named by how many extensions come after the one it is for. -/
def addDeviceExtensions (grow : ℕ → Bool) : List DevExtProps → DeviceExtensionList → DeviceExtensionList
  | [], list => list
  | ext :: exts, list =>
    if !hasVkDevExtProperty ext.props list then
      addDeviceExtensions grow exts (loaderAddToDevExtList (fun _ => grow exts.length) list ext.props none).2
    else addDeviceExtensions grow exts list

/-- The requests for the two extension lists of a layer.  Those for device extensions go on after one was refused, so
they are named by how many components and how many extensions come after. -/
structure ExtensionRequests where
  instanceExtensions : ℕ → Bool
  deviceExtensions : ℕ → ℕ → Bool

/-- The loop of `update_meta_layer_extensions_from_component_layers` over the components.  Its result is a `bool` made
of a `VkResult`; `true` is out of memory. -/
def updateMetaLayerExtensions (req : ExtensionRequests) : List LayerProperties → LayerProperties → Bool × LayerProperties
  | [], prop => (false, prop)
  | compProp :: comps, prop =>
    let r := addInstanceExtensions req.instanceExtensions compProp.instanceExtensionList.list prop.instanceExtensionList
    let prop := { prop with instanceExtensionList := r.2 }
    if r.1 then (true, prop)
    else
      updateMetaLayerExtensions req comps { prop with
        deviceExtensionList :=
          addDeviceExtensions (req.deviceExtensions comps.length) compProp.deviceExtensionList.list
            prop.deviceExtensionList }

/-- `update_meta_layer_extensions_from_component_layers`, for a layer whose components are all in the list. -/
def updateMetaLayerExtensionsFromComponentLayers (req : ExtensionRequests) (prop : LayerProperties)
    (instanceLayers : List LayerProperties) : Bool × LayerProperties :=
  updateMetaLayerExtensions req (prop.componentLayerNames.filterMap (loaderFindLayerProperty · instanceLayers)) prop

/-- The loop of `verify_all_meta_layers`, its list being `kept ++ rest`; what it leaves is the result,
`override_layer_present` and the list.  Out of memory comes back as `true`, which is the code `1`, and so the loop goes
on. -/
def verifyAllMetaLayersFrom (ctx : LayerContext) (req : ℕ → ExtensionRequests) :
    List LayerProperties → List LayerProperties → VkResult → Bool → VkResult × Bool × List LayerProperties
  | kept, [], res, overrideLayerPresent => (res, overrideLayerPresent, kept)
  | kept, prop :: rest, res, overrideLayerPresent =>
    if prop.isMeta then
      if verifyMetaLayer (kept ++ prop :: rest) kept.length then
        let r := updateMetaLayerExtensionsFromComponentLayers (req kept.length) prop (kept ++ prop :: rest)
        verifyAllMetaLayersFrom ctx req (kept ++ [r.2]) rest (if r.1 then .other 1 else .success)
          (overrideLayerPresent || (r.2.isOverride && loaderImplicitLayerIsEnabled ctx r.2))
      else verifyAllMetaLayersFrom ctx req kept rest res overrideLayerPresent
    else verifyAllMetaLayersFrom ctx req (kept ++ [prop]) rest res overrideLayerPresent

/-- `verify_all_meta_layers`. -/
def verifyAllMetaLayers (ctx : LayerContext) (req : ℕ → ExtensionRequests) (instanceLayers : List LayerProperties) :
    VkResult × Bool × List LayerProperties :=
  verifyAllMetaLayersFrom ctx req [] instanceLayers .success false

/-! ### What is kept -/

/-- A layer without the two lists that the check changes. -/
def LayerProperties.core (p : LayerProperties) : LayerProperties :=
  { p with instanceExtensionList := ⟨[], 0⟩, deviceExtensionList := ⟨[], 0⟩ }

theorem layerName_of_core {p q : LayerProperties} (h : p.core = q.core) : p.layerName = q.layerName := by
  have hname := congrArg (·.layerName) h
  exact hname

theorem componentLayerNames_of_core {p q : LayerProperties} (h : p.core = q.core) :
    p.componentLayerNames = q.componentLayerNames := by
  have hnames := congrArg (·.componentLayerNames) h
  exact hnames

theorem isMeta_of_core {p q : LayerProperties} (h : p.core = q.core) : p.isMeta = q.isMeta := by
  have hflags := congrArg (·.isMeta) h
  exact hflags

theorem core_updateMetaLayerExtensions (req : ExtensionRequests) (comps : List LayerProperties)
    (prop : LayerProperties) : (updateMetaLayerExtensions req comps prop).2.core = prop.core := by
  induction comps generalizing prop with
  | nil => rfl
  | cons comp comps ih =>
    unfold updateMetaLayerExtensions
    dsimp only
    split_ifs
    · rfl
    · rw [ih]
      rfl

/-- The layer passed the check in the list `stage`. -/
def PassedIn (stage : List LayerProperties) (p : LayerProperties) : Prop :=
  ∃ i p', stage[i]? = some p' ∧ p'.core = p.core ∧ verifyMetaLayer stage i = true

/-- The loop keeps layers of its list, and each meta-layer among them passed the check in a list that held all that is
kept at the end. -/
theorem verifyAllMetaLayersFrom_kept (ctx : LayerContext) (req : ℕ → ExtensionRequests)
    (kept rest : List LayerProperties) (res : VkResult) (ovr : Bool) :
    ∃ kept', (verifyAllMetaLayersFrom ctx req kept rest res ovr).2.2 = kept ++ kept' ∧
      (kept'.map (·.core)).Sublist (rest.map (·.core)) ∧
      ∀ p ∈ kept', p.isMeta = true → ∃ stage, PassedIn stage p ∧
        ((kept ++ kept').map (·.core)).Sublist (stage.map (·.core)) ∧
        (stage.map (·.core)).Sublist ((kept ++ rest).map (·.core)) := by
  induction rest generalizing kept res ovr with
  | nil => exact ⟨[], (List.append_nil kept).symm, List.Sublist.refl _, by simp⟩
  | cons prop rest ih =>
    -- the layer goes to the end of what is kept, with other extensions maybe
    have hkeep : ∀ q : LayerProperties, q.core = prop.core → (q.isMeta = true → PassedIn (kept ++ prop :: rest) q) →
        ∀ res ovr, ∃ kept', (verifyAllMetaLayersFrom ctx req (kept ++ [q]) rest res ovr).2.2 = kept ++ kept' ∧
          (kept'.map (·.core)).Sublist ((prop :: rest).map (·.core)) ∧
          ∀ p ∈ kept', p.isMeta = true → ∃ stage, PassedIn stage p ∧
            ((kept ++ kept').map (·.core)).Sublist (stage.map (·.core)) ∧
            (stage.map (·.core)).Sublist ((kept ++ prop :: rest).map (·.core)) := by
      intro q hq hpassed res ovr
      obtain ⟨kept', hlist, hsub, hstage⟩ := ih (kept ++ [q]) res ovr
      have hrest : ((q :: kept').map (·.core)).Sublist ((prop :: rest).map (·.core)) := by
        rw [List.map_cons, List.map_cons, hq]
        exact hsub.cons_cons _
      refine ⟨q :: kept', by rw [hlist, List.append_assoc]; rfl, hrest, fun p hp hmeta => ?_⟩
      rcases List.mem_cons.1 hp with rfl | hp
      · refine ⟨kept ++ prop :: rest, hpassed hmeta, ?_, List.Sublist.refl _⟩
        rw [List.map_append, List.map_append]
        exact List.Sublist.append (List.Sublist.refl _) hrest
      · obtain ⟨stage, hpass, hfirst, hlast⟩ := hstage p hp hmeta
        refine ⟨stage, hpass, by simpa using hfirst, ?_⟩
        rw [List.map_append, List.map_append, List.map_cons, List.map_nil, hq, List.append_assoc] at hlast
        simpa using hlast
    unfold verifyAllMetaLayersFrom
    split_ifs with hmeta hverify
    · apply hkeep
      · exact core_updateMetaLayerExtensions _ _ prop
      · intro _
        refine ⟨kept.length, prop, by simp, ?_, hverify⟩
        exact (core_updateMetaLayerExtensions _ _ prop).symm
    · obtain ⟨kept', hlist, hsub, hstage⟩ := ih kept res ovr
      have hdrop : ((kept ++ rest).map (·.core)).Sublist ((kept ++ prop :: rest).map (·.core)) := by
        apply List.Sublist.map
        exact List.Sublist.append (List.Sublist.refl _) (List.sublist_cons_self _ _)
      refine ⟨kept', hlist, hsub.trans ((List.sublist_cons_self prop rest).map _), fun p hp hmeta => ?_⟩
      obtain ⟨stage, hpass, hfirst, hlast⟩ := hstage p hp hmeta
      exact ⟨stage, hpass, hfirst, hlast.trans hdrop⟩
    · exact hkeep prop rfl (fun h => absurd h hmeta) _ _

/-- **What `verify_all_meta_layers` keeps.** -/
theorem verifyAllMetaLayers_kept (ctx : LayerContext) (req : ℕ → ExtensionRequests) (l : List LayerProperties)
    {p : LayerProperties} (hp : p ∈ (verifyAllMetaLayers ctx req l).2.2) (hmeta : p.isMeta = true) :
    ∃ stage, PassedIn stage p ∧ ((verifyAllMetaLayers ctx req l).2.2.map (·.core)).Sublist (stage.map (·.core)) ∧
      (stage.map (·.core)).Sublist (l.map (·.core)) := by
  obtain ⟨kept', hlist, -, hstage⟩ := verifyAllMetaLayersFrom_kept ctx req [] l .success false
  unfold verifyAllMetaLayers at hp ⊢
  rw [hlist] at hp ⊢
  exact hstage p hp hmeta

end VulkanLoader
