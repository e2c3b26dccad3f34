import VulkanLoader.Lib.Reorderings
import VulkanLoader.Manifests.AddLayers

/-!
# The order of the keys of a layer manifest

Behind `layer` all members are read as layers, whatever their keys.  So it matters where the key stands: from version
1.0.1 on nothing is read where anything stands behind it.
-/

namespace VulkanLoader

open Lib

/-- A key, without regard to case. -/
def foldKey (key : String) : List Char := key.toList.map Char.toLower

/-- The key of a member. -/
def keyOf (member : String × CJson) : List Char := foldKey member.1

/-- The manifest is accepted. -/
def AcceptedManifest (source : ManifestSource) (members : List (String × CJson)) : Prop :=
  (addManifest source members .zero).1 = .success

/-- The members with a key. -/
def membersOf (key : String) (members : List (String × CJson)) : List (String × CJson) :=
  members.filter fun member => keyOf member = foldKey key

/-- **The order of the keys does not matter**: the records that are appended are the same in each order; a single
`layer` gives one record in each of them; and of `layers` each element is read once. -/
structure ReadsInAnyOrder (source : ManifestSource) (members : List (String × CJson)) : Prop where
  records : ∀ members' layerList, SameByKey keyOf members members' →
    (addManifest source members' layerList).2.list = (addManifest source members layerList).2.list
  single : (membersOf "layers" members).length = 0 → (membersOf "layer" members).length = 1 →
    ∀ members' layerList, SameByKey keyOf members members' →
      (addManifest source members' layerList).2.list.length = layerList.list.length + 1
  elements : ∀ items fileVers, (CJson.object members).getObjectItem "layers" = some (.array items) →
    layerNodes (source.layerFile fileVers).version (.object members) = items

/-- There is an array `layers`, of objects only, or a value of another type.  Or there is none, no other member would be
accepted as a layer, and either the version is so old that all of them are read, or there are as many members of the
key `layer` that the count of them ends at zero, with one other member. -/
def ReadsAllAsMeant (source : ManifestSource) (members : List (String × CJson)) : Prop :=
  match (CJson.object members).getObjectItem "layers" with
  | some layersNode => ∀ items, layersNode = .array items → ∀ item ∈ items, item.isObject
  | none => ∀ fileVers, (CJson.object members).stringItem "file_format_version" = some fileVers →
      (∀ member ∈ members, keyOf member ≠ foldKey "layer" → ¬ AcceptedLayer (source.layerFile fileVers) member.2) ∧
        (loaderCheckVersionMeetsRequired ⟨1, 0, 1⟩ (source.layerFile fileVers).version →
          (membersOf "layer" members).length % 65536 = 0 ∧
            members.length = (membersOf "layer" members).length + 1)

section Members

variable {source : ManifestSource} {members members' : List (String × CJson)} {fileVers : String}

theorem sameKey_eq (key : String) (member : String × CJson) :
    sameKey key member.1 = decide (keyOf member = foldKey key) := by
  rw [sameKey, keyOf, foldKey, foldKey, beq_eq_decide, decide_eq_decide]
  exact eq_comm

theorem itemsFrom_eq (key : String) (members : List (String × CJson)) : (CJson.object members).itemsFrom key =
    (members.dropWhile fun member => keyOf member ≠ foldKey key).map Prod.snd := by
  simp only [CJson.itemsFrom, sameKey_eq, decide_not]

theorem getObjectItem_eq (key : String) (members : List (String × CJson)) :
    (CJson.object members).getObjectItem key = ((membersOf key members).head?).map Prod.snd := by
  rw [CJson.getObjectItem, itemsFrom_eq, List.head?_map, membersOf, List.head?_filter,
    List.find?_eq_head?_dropWhile_not]
  simp

theorem getObjectItem_of_sameByKey (h : SameByKey keyOf members members') (key : String) :
    (CJson.object members').getObjectItem key = (CJson.object members).getObjectItem key := by
  rw [getObjectItem_eq, getObjectItem_eq, membersOf, h (foldKey key)]
  rfl

theorem addManifest_records (hvers : (CJson.object members).stringItem "file_format_version" = some fileVers)
    (layerList : LayerList) :
    (addManifest source members layerList).2.list = layerList.list ++
      (layerNodes (source.layerFile fileVers).version (.object members)).flatMap
        (layerRecords (source.layerFile fileVers)) := by
  unfold addManifest loaderAddLayerProperties
  rw [hvers, if_neg (by simp [CJson.isObject])]
  exact readLayerNodes_records 0 _ _ layerList

/-- An accepted manifest has a version, and a node that is accepted. -/
theorem exists_of_accepted (h : AcceptedManifest source members) :
    ∃ fileVers, (CJson.object members).stringItem "file_format_version" = some fileVers ∧
      ∃ node ∈ layerNodes (source.layerFile fileVers).version (.object members),
        AcceptedLayer (source.layerFile fileVers) node := by
  unfold AcceptedManifest addManifest loaderAddLayerProperties at h
  rw [if_neg (by simp [CJson.isObject])] at h
  rcases hvers : (CJson.object members).stringItem "file_format_version" with _ | fileVers
  · rw [hvers] at h
    cases h
  · rw [hvers] at h
    exact ⟨fileVers, rfl, exists_accepted_of_success (show VkResult.errorInitializationFailed ≠ .success by nofun) h⟩

/-! ### With `layers` -/

/-- With `layers` the order does not matter. -/
theorem layerNodes_of_sameByKey {layersNode : CJson} (h : SameByKey keyOf members members') (version : ApiVersion)
    (hlayers : (CJson.object members).getObjectItem "layers" = some layersNode) :
    layerNodes version (.object members') = layerNodes version (.object members) := by
  unfold layerNodes
  rw [getObjectItem_of_sameByKey h, hlayers]

/-! ### With `layer` -/

/-- The members of another key than `layer`. -/
def otherMembers (members : List (String × CJson)) : List (String × CJson) :=
  members.filter fun member => keyOf member ≠ foldKey "layer"

/-- The records of members. -/
def memberRecords (file : LayerFile) (members : List (String × CJson)) : List ManifestLayer :=
  members.flatMap fun member => layerRecords file member.2

theorem layerNodes_of_layer {version : ApiVersion}
    (hlayers : (CJson.object members).getObjectItem "layers" = none) :
    layerNodes version (.object members) =
      if ((CJson.object members).itemsFrom "layer").length % 65536 > 1 ∧
        loaderCheckVersionMeetsRequired ⟨1, 0, 1⟩ version then []
      else (CJson.object members).itemsFrom "layer" := by
  unfold layerNodes
  rw [hlayers]

theorem itemsFrom_gather (h : membersOf "layer" members ≠ []) (i : ℕ) :
    (CJson.object (gather keyOf (foldKey "layer") i members)).itemsFrom "layer" =
      (membersOf "layer" members ++ (otherMembers members).drop i).map Prod.snd := by
  rw [itemsFrom_eq, dropWhile_gather h]
  rfl

theorem length_members : (membersOf "layer" members).length + (otherMembers members).length = members.length := by
  have hperm := List.filter_append_perm (fun member => decide (keyOf member = foldKey "layer")) members
  rw [← hperm.length_eq, List.length_append]
  simp only [membersOf, otherMembers, ne_eq, decide_not]

/-- The node that is accepted is chained behind a `layer`. -/
theorem membersOf_ne_nil {version : ApiVersion} {node : CJson}
    (hlayers : (CJson.object members).getObjectItem "layers" = none)
    (hnode : node ∈ layerNodes version (.object members)) : membersOf "layer" members ≠ [] := by
  intro hnil
  have hnone : (CJson.object members).itemsFrom "layer" = [] := by
    have hitem := getObjectItem_eq "layer" members
    rw [hnil] at hitem
    exact List.head?_eq_none_iff.1 hitem
  rw [layerNodes_of_layer hlayers, hnone] at hnode
  simp at hnode

/-- What is read of the manifest with its `layer` members behind the first `i` of the others. -/
theorem addManifest_gather (hvers : (CJson.object members).stringItem "file_format_version" = some fileVers)
    (hlayers : (CJson.object members).getObjectItem "layers" = none) (hlayer : membersOf "layer" members ≠ []) (i : ℕ)
    (layerList : LayerList) :
    (addManifest source (gather keyOf (foldKey "layer") i members) layerList).2.list =
      layerList.list ++
        if ((membersOf "layer" members).length + ((otherMembers members).length - i)) % 65536 > 1 ∧
          loaderCheckVersionMeetsRequired ⟨1, 0, 1⟩ (source.layerFile fileVers).version then []
        else memberRecords (source.layerFile fileVers) (membersOf "layer" members) ++
          memberRecords (source.layerFile fileVers) ((otherMembers members).drop i) := by
  have hsame := sameByKey_gather keyOf (foldKey "layer") i members
  have hvers' : (CJson.object (gather keyOf (foldKey "layer") i members)).stringItem "file_format_version" =
      some fileVers := by rw [CJson.stringItem, getObjectItem_of_sameByKey hsame]; exact hvers
  have hlayers' : (CJson.object (gather keyOf (foldKey "layer") i members)).getObjectItem "layers" = none := by
    rw [getObjectItem_of_sameByKey hsame, hlayers]
  rw [addManifest_records hvers', layerNodes_of_layer hlayers', itemsFrom_gather hlayer]
  simp only [List.length_map, List.length_append, List.length_drop]
  split_ifs
  · rfl
  · rw [List.flatMap_map, List.flatMap_append]
    rfl

/-- The member of the version is one of the others. -/
theorem otherMembers_ne_nil (hvers : (CJson.object members).stringItem "file_format_version" = some fileVers) :
    otherMembers members ≠ [] := by
  obtain ⟨value, hvalue, -⟩ := Option.bind_eq_some_iff.1 hvers
  rw [getObjectItem_eq] at hvalue
  obtain ⟨member, hhead, -⟩ := Option.map_eq_some_iff.1 hvalue
  obtain ⟨hmember, hkey⟩ := List.mem_filter.1 (List.mem_of_head? hhead)
  have hother : keyOf member ≠ foldKey "layer" := by
    rw [of_decide_eq_true hkey]
    decide
  exact List.ne_nil_of_mem (List.mem_filter.2 ⟨hmember, by simpa using hother⟩)

/-- Where all is as meant, only the `layer` members count. -/
theorem addManifest_of_meant (h : ReadsAllAsMeant source members)
    (hvers : (CJson.object members).stringItem "file_format_version" = some fileVers)
    (hlayers : (CJson.object members).getObjectItem "layers" = none) (hsame : SameByKey keyOf members members')
    (layerList : LayerList) :
    (addManifest source members' layerList).2.list =
      layerList.list ++ memberRecords (source.layerFile fileVers) (membersOf "layer" members) := by
  unfold ReadsAllAsMeant at h
  rw [hlayers] at h
  obtain ⟨hrejected, hcount⟩ := h fileVers hvers
  have hvers' : (CJson.object members').stringItem "file_format_version" = some fileVers := by
    rw [CJson.stringItem, getObjectItem_of_sameByKey hsame]
    exact hvers
  have hlayers' : (CJson.object members').getObjectItem "layers" = none := by
    rw [getObjectItem_of_sameByKey hsame, hlayers]
  have hperm := hsame.perm
  have hfilter := filter_dropWhile keyOf (foldKey "layer") members'
  have hlower : (membersOf "layer" members).length ≤ ((CJson.object members').itemsFrom "layer").length := by
    rw [itemsFrom_eq, List.length_map, membersOf, ← hsame (foldKey "layer"), ← hfilter]
    exact List.length_filter_le _ _
  have hupper : ((CJson.object members').itemsFrom "layer").length ≤ members.length := by
    rw [itemsFrom_eq, List.length_map, ← hperm.length_eq]
    exact (List.dropWhile_sublist _).length_le
  rw [addManifest_records hvers', layerNodes_of_layer hlayers', if_neg fun hnone => ?_]
  · rw [itemsFrom_eq, List.flatMap_map, flatMap_dropWhile fun member hmember hkey =>
      layerRecords_eq_nil.2 (hrejected member (hperm.subset hmember) hkey), hsame (foldKey "layer")]
    rfl
  · obtain ⟨hzero, hlength⟩ := hcount hnone.2
    have hmany := hnone.1
    omega

/-- An accepted manifest adds something. -/
theorem addManifest_ne (h : AcceptedManifest source members) (layerList : LayerList) :
    (addManifest source members layerList).2.list ≠ layerList.list := by
  obtain ⟨fileVers, hvers, node, hnode, haccepted⟩ := exists_of_accepted h
  intro hsame
  rw [addManifest_records hvers, List.append_right_eq_self, List.flatMap_eq_nil_iff] at hsame
  exact layerRecords_eq_nil.1 (hsame node hnode) haccepted

/-- With `layers` the order of the keys does not matter, and it is read as it is meant unless it is an array that holds
other things than objects. -/
theorem readsInAnyOrder_of_layers (hvers : (CJson.object members).stringItem "file_format_version" = some fileVers)
    {layersNode : CJson} (hlayers : (CJson.object members).getObjectItem "layers" = some layersNode) :
    ReadsInAnyOrder source members ↔ ∀ items, layersNode = .array items → ∀ item ∈ items, item.isObject := by
  have hnodes : ∀ version items, layersNode = .array items →
      layerNodes version (.object members) = items.takeWhile CJson.isObject := by
    rintro version items rfl
    unfold layerNodes
    rw [hlayers]
    rfl
  constructor
  · rintro hreads items rfl item hitem
    have hall := hreads.elements items fileVers hlayers
    rw [hnodes _ items rfl, List.takeWhile_eq_self_iff] at hall
    exact hall item hitem
  · intro hmeant
    refine ⟨fun members' layerList hsame => ?_, fun hnone => ?_, fun items fileVers' hitems => ?_⟩
    · have hvers' : (CJson.object members').stringItem "file_format_version" = some fileVers := by
        rw [CJson.stringItem, getObjectItem_of_sameByKey hsame]
        exact hvers
      rw [addManifest_records hvers', addManifest_records hvers, layerNodes_of_sameByKey hsame _ hlayers]
    · rw [getObjectItem_eq, List.length_eq_zero_iff.1 hnone] at hlayers
      cases hlayers
    · obtain rfl : layersNode = .array items := Option.some.inj (hlayers.symm.trans hitems)
      rw [hnodes _ items rfl, List.takeWhile_eq_self_iff]
      exact fun item hitem => hmeant items rfl item hitem

/-- Without `layers`, records that do not depend on the order come from the `layer` members only, and nothing is counted
that stands behind them. -/
theorem meant_of_readsInAnyOrder (h : AcceptedManifest source members)
    (hvers : (CJson.object members).stringItem "file_format_version" = some fileVers)
    (hlayers : (CJson.object members).getObjectItem "layers" = none) (hlayer : membersOf "layer" members ≠ [])
    (hreads : ReadsInAnyOrder source members) :
    (∀ member ∈ members, keyOf member ≠ foldKey "layer" → ¬ AcceptedLayer (source.layerFile fileVers) member.2) ∧
      (loaderCheckVersionMeetsRequired ⟨1, 0, 1⟩ (source.layerFile fileVers).version →
        (membersOf "layer" members).length % 65536 = 0 ∧
          members.length = (membersOf "layer" members).length + 1) := by
  -- the records with the `layer` members behind the first `i` of the others are the same for all `i`
  have hgather := fun i => (addManifest_gather hvers hlayers hlayer i .zero).symm.trans
    (hreads.records _ .zero (sameByKey_gather keyOf (foldKey "layer") i members))
  have hcount : ∀ i, ¬ (((membersOf "layer" members).length + ((otherMembers members).length - i)) % 65536 > 1 ∧
      loaderCheckVersionMeetsRequired ⟨1, 0, 1⟩ (source.layerFile fileVers).version) := by
    intro i hmany
    have hnone := hgather i
    rw [if_pos hmany] at hnone
    exact addManifest_ne h _ hnone.symm
  have hothers : memberRecords (source.layerFile fileVers) (otherMembers members) = [] := by
    have hfirst := hgather 0
    have hlast := hgather (otherMembers members).length
    rw [if_neg (hcount 0)] at hfirst
    rw [if_neg (hcount _), List.drop_length] at hlast
    have heq := hfirst.trans hlast.symm
    rw [List.append_cancel_left_eq, List.append_cancel_left_eq] at heq
    exact heq
  refine ⟨fun member hmember hkey => ?_, fun hmeets => ?_⟩
  · have hmem : member ∈ otherMembers members := List.mem_filter.2 ⟨hmember, by simpa using hkey⟩
    exact layerRecords_eq_nil.1 (List.flatMap_eq_nil_iff.1 hothers member hmem)
  · have hfew : ∀ i, ((membersOf "layer" members).length + ((otherMembers members).length - i)) % 65536 ≤ 1 :=
      fun i => Nat.le_of_not_lt fun hmany => hcount i ⟨hmany, hmeets⟩
    have hpos := List.length_pos_iff.2 (otherMembers_ne_nil hvers)
    have hlength := @length_members members
    have h0 := hfew (otherMembers members).length
    have h1 := hfew ((otherMembers members).length - 1)
    have h2 := hfew ((otherMembers members).length - 2)
    omega

/-- **When the order of the keys does not matter**: exactly when everything is read as it is meant. -/
theorem readsInAnyOrder_iff (h : AcceptedManifest source members) :
    ReadsInAnyOrder source members ↔ ReadsAllAsMeant source members := by
  obtain ⟨fileVers, hvers, node, hnode, -⟩ := exists_of_accepted h
  rcases hlayers : (CJson.object members).getObjectItem "layers" with _ | layersNode
  · constructor
    · intro hreads
      unfold ReadsAllAsMeant
      rw [hlayers]
      intro fileVers' hvers'
      exact meant_of_readsInAnyOrder h hvers' hlayers (membersOf_ne_nil hlayers hnode) hreads
    · intro hmeant
      have hrecords := addManifest_of_meant hmeant hvers hlayers (SameByKey.refl keyOf members)
      refine ⟨fun members' layerList hsame => ?_, fun _ hone members' layerList hsame => ?_, fun items _ hitems => ?_⟩
      · rw [addManifest_of_meant hmeant hvers hlayers hsame, hrecords]
      · obtain ⟨member, hmember⟩ := List.length_eq_one_iff.1 hone
        have hne := addManifest_ne h layerList
        rw [hrecords, hmember] at hne
        rw [addManifest_of_meant hmeant hvers hlayers hsame, hmember]
        by_cases haccepts : AcceptedLayer (source.layerFile fileVers) member.2
        · simp [memberRecords, layerRecords_of_accepted haccepts]
        · simp [memberRecords, layerRecords_eq_nil.2 haccepts] at hne
      · rw [hlayers] at hitems
        cases hitems
  · unfold ReadsAllAsMeant
    rw [hlayers]
    exact readsInAnyOrder_of_layers hvers hlayers

end Members

/-- A manifest of one layer, as they are written. -/
def singleLayerManifest : List (String × CJson) :=
  [("file_format_version", .string "1.2.0"), ("layer", completeLayer)]

theorem acceptedManifest_single : AcceptedManifest ⟨"/layers/a.json", false, 8⟩ singleLayerManifest := by
  have hvers : (CJson.object singleLayerManifest).stringItem "file_format_version" = some "1.2.0" := by decide
  have hnodes : layerNodes (loaderMakeFullVersion (loaderParseVersionString "1.2.0")) (.object singleLayerManifest) =
    [completeLayer] := rfl
  unfold AcceptedManifest addManifest loaderAddLayerProperties
  rw [hvers, if_neg (by simp [CJson.isObject])]
  dsimp only [ManifestSource.layerFile]
  rw [hnodes, readLayerNodes, readLayerNodes]
  exact (@loaderReadLayerJson_granted ⟨_, _, false, _⟩ completeLayer _ (.inl (completeLayer_isComplete rfl))).1

theorem readsInAnyOrder_iff_single :
    AcceptedManifest ⟨"/layers/a.json", false, 8⟩ singleLayerManifest ∧
      (ReadsInAnyOrder ⟨"/layers/a.json", false, 8⟩ singleLayerManifest ↔
        ReadsAllAsMeant ⟨"/layers/a.json", false, 8⟩ singleLayerManifest) :=
  ⟨acceptedManifest_single, readsInAnyOrder_iff acceptedManifest_single⟩

/-- With its keys the other way round nothing is read of it. -/
theorem not_readsInAnyOrder : AcceptedManifest ⟨"/layers/a.json", false, 8⟩ singleLayerManifest ∧
    ¬ ReadsInAnyOrder ⟨"/layers/a.json", false, 8⟩ singleLayerManifest := by
  refine ⟨acceptedManifest_single, fun hreads => ?_⟩
  have hsingle := hreads.single (by decide) (by decide) _ .zero
    (sameByKey_gather keyOf (foldKey "layer") 0 singleLayerManifest)
  exact absurd hsingle (by decide)

end VulkanLoader
