import VulkanLoader.Lib.Lists
import VulkanLoader.Manifests.ReadLayer

/-!
# How the reading of a layer ends

The blocks that are allocated are those of the record all the time, whichever field ends the reading: the fields are
filled in one after the other, and none is written twice.  A reading that comes to its end has found what each field has
to say; one that ends early does so with an error, but for the two versions.
-/

namespace VulkanLoader.LayerReader

open Lib

variable {req : LayerRequests} {file : LayerFile} {node : CJson} {k k' j n : ℕ} {m : Bool} {s : State} {h : Prop}
  {write : ManifestLayer → ManifestLayer}

/-! ### The ledger -/

/-- What is written to a record changes the blocks of the `j`-th field only, to `n`, and the flags not at all. -/
def Writes (j : ℕ) (write : ManifestLayer → ManifestLayer) (n : ℕ) : Prop :=
  ∀ props, (write props).blocks = props.blocks.set j n ∧ (write props).typeFlags = props.typeFlags

/-- What is allocated is what the record owns, and its fields from the `k`-th on are not filled in. -/
structure Filled (k : ℕ) (m : Bool) (s : State) : Prop where
  live : s.live = s.props.blocks.sum
  rest : ∀ i, k ≤ i → s.props.blocks.getD i 0 = 0
  metaLayer : s.props.typeFlags.metaLayer = m

/-- The reading ends early: with what the record owns allocated, and with a success only if `h`. -/
def Exits (h : Prop) (e : VkResult) (s : State) : Prop := s.live = s.props.blocks.sum ∧ (e = .success → h)

theorem Filled.mono (hs : Filled k m s) (hk : k ≤ k') : Filled k' m s :=
  ⟨hs.live, fun i hi => hs.rest i (hk.trans hi), hs.metaLayer⟩

theorem Filled.exits {e : VkResult} (hs : Filled k m s) (he : e ≠ .success) : Exits h e s :=
  ⟨hs.live, fun hsuccess => absurd hsuccess he⟩

/-- A field is written: its blocks are allocated, and those it had before are not any more. -/
theorem Filled.of_writes {live : ℤ} (hs : Filled k m s) (hw : Writes j write n) (hj : j < 18) (hjk : j < k)
    (hlive : live + s.props.blocks.getD j 0 = s.live + n) : Filled k m ⟨write s.props, live⟩ := by
  obtain ⟨hblocks, hflags⟩ := hw s.props
  have hsum : (s.props.blocks.set j n).sum + s.props.blocks.getD j 0 = s.props.blocks.sum + n := sum_set_add_getD hj n
  have hledger := hs.live
  refine ⟨?_, fun i hi => ?_, by rw [hflags, hs.metaLayer]⟩
  · change live = _
    rw [hblocks]
    omega
  · rw [hblocks, List.getD_eq_getElem?_getD, List.getElem?_set_ne (by omega), ← List.getD_eq_getElem?_getD]
    exact hs.rest i hi

/-- A field that has not been filled in is. -/
theorem Filled.fill {live : ℤ} (hs : Filled k m s) (hw : Writes j write n) (hj : j < 18) (hk : k ≤ j)
    (hlive : live = s.live + n) : Filled (j + 1) m ⟨write s.props, live⟩ :=
  (hs.mono (hk.trans (Nat.le_succ j))).of_writes hw hj (Nat.lt_succ_self j) (by rw [hs.rest j hk, hlive]; simp)

/-! ### Strings and lists of strings -/

theorem keepString_ends {parsed : VkResult × Option String} {write : Option String → ManifestLayer → ManifestLayer}
    (hk : k ≤ j) (hj : j < 18) (hw : ∀ str, Writes j (write (some str)) 1) :
    Ends (Filled k m) (keepString parsed write) (fun _ => Filled (j + 1) m) (Exits h) := by
  unfold keepString
  split
  · next str => exact fun s hs => hs.fill (hw str) hj hk rfl
  · exact .of_throw fun s hs => hs.exits nofun
  · exact .of_pure fun s hs => hs.mono (hk.trans (Nat.le_succ j))

theorem keepStrings_ends {parsed : VkResult × StringList} {write : StringList → ManifestLayer → ManifestLayer}
    (hk : k ≤ j) (hj : j < 18) (hw : ∀ l, Writes j (write l) l.blocks) :
    Ends (Filled k m) (keepStrings parsed write)
      (fun _ s => parsed.1 ≠ .errorOutOfHostMemory ∧ Filled (j + 1) m s) (Exits h) := by
  have hfill : ∀ s, Filled k m s → Filled (j + 1) m ⟨write parsed.2 s.props, s.live + parsed.2.blocks⟩ :=
    fun s hs => hs.fill (hw parsed.2) hj hk rfl
  unfold keepStrings
  by_cases hmemory : parsed.1 = .errorOutOfHostMemory
  · rw [if_pos hmemory]
    exact fun s hs => (hfill s hs).exits nofun
  · rw [if_neg hmemory]
    exact fun s hs => ⟨hmemory, hfill s hs⟩

theorem keepStrings_fills {parsed : VkResult × StringList} {write : StringList → ManifestLayer → ManifestLayer}
    (hk : k ≤ j) (hj : j < 18) (hw : ∀ l, Writes j (write l) l.blocks) :
    Ends (Filled k m) (keepStrings parsed write) (fun _ => Filled (j + 1) m) (Exits h) :=
  (keepStrings_ends hk hj hw).weaken (fun _ hs => hs) (fun _ _ hs => hs.2) fun _ _ he => he

/-- What is written has no blocks. -/
theorem store_ends (hblocks : ∀ props, (write props).blocks = props.blocks)
    (hflags : ∀ props, (write props).typeFlags = props.typeFlags) :
    Ends (Filled k m) (store write) (fun _ => Filled k m) (Exits h) := by
  refine .of_modify fun s hs => ⟨?_, fun i hi => ?_, ?_⟩
  · rw [hblocks]
    exact hs.live
  · rw [hblocks]
    exact hs.rest i hi
  · rw [hflags]
    exact hs.metaLayer

/-! ### The fields -/

theorem readManifestFileName_ends :
    Ends (Filled 0 m) (readManifestFileName req file) (fun _ => Filled 1 m) (Exits h) :=
  keepString_ends le_rfl (by decide) fun _ _ => ⟨rfl, rfl⟩

theorem readName_ends : Ends (Filled k m) (readName node)
    (fun _ s => (loaderParseJsonStringToExistingStr node "name" vkMaxExtensionNameSize).isSome ∧ Filled k m s)
    (Exits h) := by
  unfold readName
  rcases loaderParseJsonStringToExistingStr node "name" vkMaxExtensionNameSize with _ | layerName
  · exact .of_throw fun s hs => hs.exits nofun
  · exact fun s hs => ⟨rfl, hs.live, hs.rest, hs.metaLayer⟩

theorem readType_ends : Ends (Filled k false) (readType file node)
    (fun _ s => (node.stringItem "type" = some "INSTANCE" ∨ node.stringItem "type" = some "GLOBAL") ∧ Filled k false s)
    (Exits h) := by
  unfold readType
  rcases node.stringItem "type" with _ | type
  · exact .of_throw fun s hs => hs.exits nofun
  dsimp only
  split_ifs with hdevice hinstance
  · exact .of_throw fun s hs => hs.exits nofun
  · exact fun s hs => ⟨hinstance.imp (congrArg some) (congrArg some), hs.live, hs.rest, rfl⟩
  · exact .of_throw fun s hs => hs.exits nofun

/-- There is an API version, without a variant. -/
def HasApiVersion (node : CJson) : Prop :=
  ∃ apiVersion, node.stringItem "api_version" = some apiVersion ∧
    vkApiVersionVariant (loaderParseVersionString apiVersion) = 0

theorem readApiVersion_ends (hnone : node.stringItem "api_version" = none → h) :
    Ends (Filled k m) (readApiVersion node) (fun _ s => HasApiVersion node ∧ Filled k m s) (Exits h) := by
  unfold readApiVersion HasApiVersion
  rcases hversion : node.stringItem "api_version" with _ | apiVersion
  · exact .of_throw fun s hs => ⟨hs.live, fun _ => hnone hversion⟩
  refine .of_bind (store_ends (fun _ => rfl) fun _ => rfl) fun _ => ?_
  split_ifs with hvariant
  · exact .of_throw fun s hs => hs.exits nofun
  · exact .of_pure fun s hs => ⟨⟨apiVersion, rfl, not_not.1 hvariant⟩, hs⟩

theorem readImplementationVersion_ends (hnone : node.stringItem "implementation_version" = none → h) :
    Ends (Filled k m) (readImplementationVersion node)
      (fun _ s => (node.stringItem "implementation_version").isSome ∧ Filled k m s) (Exits h) := by
  unfold readImplementationVersion
  rcases hversion : node.stringItem "implementation_version" with _ | implementationVersion
  · exact .of_throw fun s hs => ⟨hs.live, fun _ => hnone hversion⟩
  · exact fun s hs => ⟨rfl, hs.live, hs.rest, hs.metaLayer⟩

theorem readDescription_ends : Ends (Filled k m) (readDescription node)
    (fun _ s => (loaderParseJsonStringToExistingStr node "description" vkMaxDescriptionSize).isSome ∧ Filled k m s)
    (Exits h) := by
  unfold readDescription
  rcases loaderParseJsonStringToExistingStr node "description" vkMaxDescriptionSize with _ | description
  · exact .of_throw fun s hs => hs.exits nofun
  · exact fun s hs => ⟨rfl, hs.live, hs.rest, hs.metaLayer⟩

/-- The layer is one with a library. -/
def HasLibrary (node : CJson) : Prop :=
  (node.stringItem "library_path").isSome ∧ node.getObjectItem "component_layers" = none

/-- The layer is one of components. -/
def HasComponents (node : CJson) : Prop :=
  node.stringItem "library_path" = none ∧
    ∃ item, node.getObjectItem "component_layers" = some item ∧ item.HasStringsOnly

theorem readLibraryPath_ends : Ends (Filled 1 m) (readLibraryPath req file node)
    (fun hasLibrary s => (if hasLibrary then HasLibrary node else node.stringItem "library_path" = none) ∧ Filled 2 m s)
    (Exits h) := by
  unfold readLibraryPath
  rcases hpath : node.stringItem "library_path" with _ | libraryPath
  · rw [loaderParseJsonString_of_no_string _ hpath]
    exact .of_pure fun s hs => ⟨rfl, hs.mono (by decide)⟩
  rw [loaderParseJsonString_of_string _ hpath]
  rcases req.libraryPath with _ | _
  · exact .of_throw fun s hs => hs.exits nofun
  rw [if_pos rfl]
  dsimp only
  rcases hcomponents : node.getObjectItem "component_layers" with _ | _
  · obtain ⟨path, hcombine⟩ | hcombine := combineManifestDirectoryAndLibraryPath_result req.fullPath
      (CJson.string libraryPath).print file.fileName
    · have hw : Writes 1 (fun props => { props with libName := some path }) 1 := fun _ => ⟨rfl, rfl⟩
      rw [hcombine, if_neg (by simp)]
      exact fun s hs => ⟨⟨by rw [hpath]; rfl, hcomponents⟩, hs.fill hw (by decide) le_rfl rfl⟩
    · rw [hcombine, if_neg (by simp)]
      exact fun s hs => ⟨(Int.add_neg_cancel_right s.live 1).trans hs.live, nofun⟩
  · rw [if_pos (by simp)]
    exact fun s hs => ⟨(Int.add_neg_cancel_right s.live 1).trans hs.live, nofun⟩

/-- The flag of a meta-layer says what the layer is made of. -/
def HasBody (node : CJson) (metaLayer : Bool) : Prop := if metaLayer then HasComponents node else HasLibrary node

theorem readComponentLayers_ends {hasLibrary : Bool}
    (hlibrary : if hasLibrary then HasLibrary node else node.stringItem "library_path" = none) :
    Ends (Filled 2 false) (readComponentLayers req node hasLibrary)
      (fun _ s => HasBody node !hasLibrary ∧ Filled 3 (!hasLibrary) s) (Exits h) := by
  unfold readComponentLayers
  rcases hasLibrary with _ | _
  · have hparsed := loaderParseJsonArrayOfStrings_ends req.componentLayers node "component_layers"
    generalize loaderParseJsonArrayOfStrings req.componentLayers node "component_layers" = parsed at hparsed
    dsimp only at hparsed ⊢
    rw [if_neg (by decide)]
    refine .of_bind (keepStrings_ends (j := 2) le_rfl (by decide) fun _ _ => ⟨rfl, rfl⟩) fun _ =>
      .of_and fun hmemory => ?_
    rcases hparsed with ⟨hsuccess, hitem⟩ | ⟨hoom, -⟩ | hfailed
    · rw [if_neg (by rw [hsuccess]; nofun)]
      exact fun s hs => ⟨⟨hlibrary, hitem⟩, hs.live, hs.rest, rfl⟩
    · exact absurd hoom hmemory
    · rw [if_pos hfailed]
      exact fun s hs => hs.exits nofun
  · exact .of_pure fun s hs => ⟨hlibrary, hs.mono (by decide)⟩

theorem readBlacklistedLayers_ends :
    Ends (Filled 3 m) (readBlacklistedLayers req node) (fun _ => Filled 4 m) (Exits h) := by
  unfold readBlacklistedLayers
  refine .of_bind (.of_get (Q := fun _ => Filled 3 m) fun s hs => hs) fun s => ?_
  split_ifs
  · exact keepStrings_fills (j := 3) le_rfl (by decide) fun _ _ => ⟨rfl, rfl⟩
  · exact .of_pure fun s hs => hs.mono (by decide)

theorem readOverridePaths_ends :
    Ends (Filled 4 m) (readOverridePaths req node) (fun _ => Filled 5 m) (Exits h) :=
  keepStrings_fills (j := 4) le_rfl (by decide) fun _ _ => ⟨rfl, rfl⟩

/-- An implicit layer says how it is disabled. -/
def CanBeDisabled (file : LayerFile) (node : CJson) : Prop :=
  file.isImplicit → ((node.getObjectItem "disable_environment").bind firstString).isSome

theorem readDisableEnvironment_ends : Ends (Filled 5 m) (readDisableEnvironment req file node)
    (fun _ s => CanBeDisabled file node ∧ Filled 7 m s) (Exits h) := by
  unfold readDisableEnvironment CanBeDisabled
  split_ifs with himplicit
  · exact .of_pure fun s hs => ⟨fun himp => by simp [himp] at himplicit, hs.mono (by decide)⟩
  rcases (node.getObjectItem "disable_environment").bind firstString with _ | ⟨string, valuestring⟩
  · exact .of_throw fun s hs => hs.exits nofun
  refine .of_bind (keepString_ends (j := 5) le_rfl (by decide) fun _ _ => ⟨rfl, rfl⟩) fun _ => ?_
  exact (keepString_ends (j := 6) le_rfl (by decide) fun _ _ => ⟨rfl, rfl⟩).weaken (fun _ hs => hs)
    (fun _ _ hs => ⟨fun _ => rfl, hs⟩) fun _ _ he => he

theorem readFunctions_ends :
    Ends (Filled 7 m) (readFunctions req file node) (fun _ => Filled 10 m) (Exits h) := by
  unfold readFunctions
  rcases node.getObjectItem "functions" with _ | functions
  · exact .of_pure fun s hs => hs.mono (by decide)
  dsimp only
  split_ifs
  · refine .of_bind (keepString_ends (j := 7) le_rfl (by decide) fun _ _ => ⟨rfl, rfl⟩) fun _ => ?_
    refine .of_bind (keepString_ends (j := 8) le_rfl (by decide) fun _ _ => ⟨rfl, rfl⟩) fun _ => ?_
    exact keepString_ends (j := 9) le_rfl (by decide) fun _ _ => ⟨rfl, rfl⟩
  · refine .of_bind (keepString_ends (j := 8) (by decide) (by decide) fun _ _ => ⟨rfl, rfl⟩) fun _ => ?_
    exact keepString_ends (j := 9) le_rfl (by decide) fun _ _ => ⟨rfl, rfl⟩

/-! ### Extensions -/

theorem parseExtension_ends (granted : Bool) (extItem : CJson) :
    Ends (Filled k m) (parseExtension granted extItem) (fun _ => Filled k m) (Exits h) := by
  unfold parseExtension
  split_ifs
  · exact .of_pure fun s hs => hs
  rcases loaderParseJsonStringToExistingStr extItem "name" vkMaxExtensionNameSize with _ | extensionName
  · exact .of_pure fun s hs => hs
  dsimp only
  split
  · exact .of_throw fun s hs => hs.exits nofun
  · exact .of_pure fun s hs => hs

/-- A loop of which no round changes what there is to say. -/
theorem forEach_ends {P : State → Prop} {E : VkResult → State → Prop} {body : ℕ → CJson → Reader Unit}
    (hbody : ∀ i item, Ends P (body i item) (fun _ => P) E) (i : ℕ) (items : List CJson) :
    Ends P (forEach body i items) (fun _ => P) E := by
  induction items generalizing i with
  | nil => exact .of_pure fun s hs => hs
  | cons item items ih => exact .of_bind (hbody i item) fun _ => ih (i + 1)

theorem capacity_addExtension {grow : ℕ → Bool} {l l' : ExtensionList} {extProp : VkExtensionProperties}
    (hadd : addExtension grow l extProp = some l') (hl : l.capacity ≠ 0) : l'.capacity ≠ 0 := by
  unfold addExtension at hadd
  split_ifs at hadd <;> cases hadd
  · exact hl
  · exact Nat.mul_ne_zero hl (by decide)
  · exact hl

/-- After an extension was added the list has an array, if it had one or there was memory for it. -/
theorem capacity_loaderAddToExtList (grow : ℕ → Bool) (l : ExtensionList) (extProp : VkExtensionProperties) :
    (loaderAddToExtList grow l [extProp]).2.capacity = 0 ↔ l.capacity = 0 ∧ ¬ grow 0 := by
  have hgo : ∀ start : ExtensionList, start.capacity ≠ 0 →
      (loaderAddToExtList.go grow start [extProp]).2.capacity ≠ 0 := by
    intro start hstart
    unfold loaderAddToExtList.go
    rcases hadd : addExtension grow start extProp with _ | start'
    · exact hstart
    · exact capacity_addExtension hadd hstart
  unfold loaderAddToExtList loaderInitExtensionList
  by_cases hzero : l.capacity = 0
  · rw [if_pos hzero]
    by_cases hgrow : grow 0 = true
    · rw [if_pos hgrow]
      exact iff_of_false (hgo ⟨[], 32⟩ (by decide)) fun hand => hand.2 hgrow
    · rw [if_neg hgrow]
      exact iff_of_true hzero ⟨hzero, hgrow⟩
  · rw [if_neg hzero]
    exact iff_of_false (hgo l hzero) fun hand => hzero hand.1

/-- Only a refused request ends the reading. -/
theorem throwIfMemory_ends (res : VkResult) :
    Ends (Filled k m) (do if res = .errorOutOfHostMemory then throw res) (fun _ => Filled k m) (Exits h) := by
  split_ifs with hres
  · exact .of_throw fun s hs => hs.exits (by rw [hres]; nofun)
  · exact .of_pure fun s hs => hs

theorem addInstanceExtension_ends (extProp : VkExtensionProperties) :
    Ends (Filled 11 m) (addInstanceExtension req extProp) (fun _ => Filled 11 m) (Exits h) := by
  unfold addInstanceExtension
  refine .of_bind (R := fun a s => a = s ∧ Filled 11 m a) (.of_get fun s hs => ⟨rfl, hs⟩) fun s => ?_
  have hcapacity := capacity_loaderAddToExtList req.growInstance s.props.instanceExtensionList extProp
  have hold : s.props.blocks.getD 10 0 = if s.props.instanceExtensionList.capacity = 0 then 0 else 1 := rfl
  generalize loaderAddToExtList req.growInstance s.props.instanceExtensionList [extProp] = added at hcapacity ⊢
  have hw : Writes 10 (fun props => { props with instanceExtensionList := added.2 })
      (if added.2.capacity = 0 then 0 else 1) := fun _ => ⟨rfl, rfl⟩
  by_cases hnew : s.props.instanceExtensionList.capacity = 0 ∧ req.growInstance 0
  · dsimp only
    rw [if_pos hnew]
    refine .of_bind (R := fun _ s' => s' = ⟨s.props, s.live + 1⟩ ∧ Filled 11 m s) ?_ fun _ => ?_
    · rintro _ ⟨rfl, hs⟩
      exact ⟨rfl, hs⟩
    refine .of_bind (R := fun _ => Filled 11 m) ?_ fun _ => throwIfMemory_ends added.1
    rintro _ ⟨rfl, hs⟩
    refine hs.of_writes hw (by decide) (by decide) ?_
    rw [hold, if_pos hnew.1, if_neg fun hzero => (hcapacity.1 hzero).2 hnew.2]
    exact Int.add_zero (s.live + 1)
  · dsimp only
    rw [if_neg hnew]
    refine .of_bind (R := fun _ => Filled 11 m) ?_ fun _ => throwIfMemory_ends added.1
    rintro _ ⟨rfl, hs⟩
    refine hs.of_writes hw (by decide) (by decide) ?_
    by_cases hzero : s.props.instanceExtensionList.capacity = 0
    · rw [hold, if_pos hzero, if_pos (hcapacity.2 ⟨hzero, fun hgrow => hnew ⟨hzero, hgrow⟩⟩)]
    · rw [hold, if_neg hzero, if_neg fun hnone => hzero (hcapacity.1 hnone).1]

theorem readInstanceExtension_ends (i : ℕ) (extItem : CJson) :
    Ends (Filled 11 m) (readInstanceExtension req i extItem) (fun _ => Filled 11 m) (Exits h) := by
  unfold readInstanceExtension
  refine .of_bind (parseExtension_ends _ extItem) fun parsed => ?_
  rcases parsed with _ | extProp
  · exact .of_pure fun s hs => hs
  dsimp only
  split_ifs
  · exact addInstanceExtension_ends extProp
  · exact .of_pure fun s hs => hs

theorem readInstanceExtensions_ends :
    Ends (Filled 10 m) (readInstanceExtensions req node) (fun _ => Filled 11 m) (Exits h) :=
  (forEach_ends readInstanceExtension_ends 0 _).weaken (fun _ hs => hs.mono (by decide)) (fun _ _ hs => hs)
    fun _ _ he => he

/-! ### Device extensions -/

/-- So many blocks are allocated besides those of the record. -/
def FilledBut (n : ℕ) (k : ℕ) (m : Bool) (s : State) : Prop := Filled k m ⟨s.props, s.live - n⟩

theorem filledBut_zero : FilledBut 0 k m s ↔ Filled k m s := by simp [FilledBut]

theorem initDeviceExtensions_ends (entrys : Option StringList) :
    Ends (FilledBut (entrys.elim 0 StringList.blocks) 12 m) (initDeviceExtensions req entrys)
      (fun _ s => s.props.deviceExtensionList.capacity ≠ 0 ∧ FilledBut (entrys.elim 0 StringList.blocks) 12 m s)
      (Exits h) := by
  unfold initDeviceExtensions
  generalize entrys.elim 0 StringList.blocks = n
  refine .of_bind (R := fun a s => a = s ∧ FilledBut n 12 m a) (.of_get fun s hs => ⟨rfl, hs⟩) fun s => ?_
  split_ifs with hzero hgrow
  · rintro _ ⟨rfl, hs⟩
    have hw : Writes 11 (fun props => { props with deviceExtensionList := ⟨[], 32⟩ }) 1 := fun _ => ⟨rfl, rfl⟩
    have hold : s.props.blocks.getD 11 0 = 0 := if_pos hzero
    refine ⟨show 32 ≠ 0 by decide, hs.of_writes hw (by decide) (by decide) ?_⟩
    change s.live + 1 - n + (s.props.blocks.getD 11 0 : ℕ) = s.live - n + (1 : ℕ)
    omega
  · rintro _ ⟨rfl, hs⟩
    exact ⟨hs.live, nofun⟩
  · rintro _ ⟨rfl, hs⟩
    exact ⟨hzero, hs⟩

theorem devExtBlocks_push {l : RecordDevExtList} (hl : l.capacity ≠ 0) (ext : RecordDevExt) :
    ManifestLayer.devExtBlocks (l.push ext) = ManifestLayer.devExtBlocks l + ext.entrypoints.blocks := by
  have hpush : (l.push ext).capacity ≠ 0 := by
    unfold RecordDevExtList.push
    dsimp only
    split_ifs
    · exact Nat.mul_ne_zero hl (by decide)
    · exact hl
  rw [ManifestLayer.devExtBlocks, ManifestLayer.devExtBlocks, if_neg hpush, if_neg hl]
  simp [RecordDevExtList.push, Nat.add_assoc]

theorem loaderAddToDevExtList_ends (extProp : VkExtensionProperties) (entrys : Option StringList) :
    Ends (FilledBut (entrys.elim 0 StringList.blocks) 12 m) (loaderAddToDevExtList req extProp entrys)
      (fun _ => Filled 12 m) (Exits h) := by
  have hblocks : entrys.elim 0 StringList.blocks = (entrys.getD .zero).blocks := by
    rcases entrys with _ | entrys <;> rfl
  unfold loaderAddToDevExtList
  refine .of_bind (initDeviceExtensions_ends entrys) fun _ => ?_
  generalize entrys.elim 0 StringList.blocks = n at hblocks
  refine .of_bind (R := fun a s => a = s ∧ a.props.deviceExtensionList.capacity ≠ 0 ∧ FilledBut n 12 m a)
    (.of_get fun s hs => ⟨rfl, hs⟩) fun s => ?_
  dsimp only
  split_ifs
  · rintro _ ⟨rfl, hcapacity, hs⟩
    exact hs
  · rintro _ ⟨rfl, hcapacity, hs⟩
    exact ⟨hs.live, nofun⟩
  · rintro _ ⟨rfl, hcapacity, hs⟩
    have hw : Writes 11 (fun record => { record with
        deviceExtensionList := s.props.deviceExtensionList.push ⟨extProp, entrys.getD .zero⟩ })
        (ManifestLayer.devExtBlocks (s.props.deviceExtensionList.push ⟨extProp, entrys.getD .zero⟩)) :=
      fun _ => ⟨rfl, rfl⟩
    refine hs.of_writes hw (by decide) (by decide) ?_
    change s.live + (ManifestLayer.devExtBlocks s.props.deviceExtensionList : ℕ) = s.live - n + _
    rw [devExtBlocks_push hcapacity, hblocks]
    dsimp only
    omega

theorem readDeviceExtension_ends (i : ℕ) (extItem : CJson) :
    Ends (Filled 12 m) (readDeviceExtension req i extItem) (fun _ => Filled 12 m) (Exits h) := by
  unfold readDeviceExtension
  refine .of_bind (parseExtension_ends _ extItem) fun parsed => ?_
  rcases parsed with _ | extProp
  · exact .of_pure fun s hs => hs
  dsimp only
  rcases extItem.getObjectItem "entrypoints" with _ | _
  · exact (loaderAddToDevExtList_ends extProp none).weaken (fun _ hs => filledBut_zero.2 hs) (fun _ _ hs => hs)
      fun _ _ he => he
  have hparsed := loaderParseJsonArrayOfStrings_ends (req.entrypoints i) extItem "entrypoints"
  generalize loaderParseJsonArrayOfStrings (req.entrypoints i) extItem "entrypoints" = parsed at hparsed
  dsimp only at hparsed ⊢
  refine .of_bind (R := fun _ => FilledBut parsed.2.blocks 12 m) ?_ fun _ => ?_
  · intro s hs
    have hback : (⟨s.props, s.live + parsed.2.blocks - parsed.2.blocks⟩ : State) = s := by simp
    exact (congrArg (Filled 12 m) hback).mpr hs
  by_cases hmemory : parsed.1 = .errorOutOfHostMemory
  · have hnone : parsed.2 = .zero := by
      rcases hparsed with ⟨hsuccess, -⟩ | ⟨-, hnone⟩ | hfailed
      · rw [hsuccess] at hmemory; cases hmemory
      · exact hnone
      · rw [hfailed] at hmemory; cases hmemory
    rw [if_pos hmemory, hnone]
    exact .of_throw fun s hs => (filledBut_zero.1 hs).exits nofun
  · rw [if_neg hmemory]
    exact loaderAddToDevExtList_ends extProp (some parsed.2)

theorem readDeviceExtensions_ends :
    Ends (Filled 11 m) (readDeviceExtensions req node) (fun _ => Filled 12 m) (Exits h) :=
  (forEach_ends readDeviceExtension_ends 0 _).weaken (fun _ hs => hs.mono (by decide)) (fun _ _ hs => hs)
    fun _ _ he => he

/-! ### The fields at the end -/

theorem readEnableEnvironment_ends :
    Ends (Filled 12 m) (readEnableEnvironment req file node) (fun _ => Filled 14 m) (Exits h) := by
  unfold readEnableEnvironment
  split_ifs
  · exact .of_pure fun s hs => hs.mono (by decide)
  rcases (node.getObjectItem "enable_environment").bind firstString with _ | ⟨string, valuestring⟩
  · exact .of_pure fun s hs => hs.mono (by decide)
  refine .of_bind (keepString_ends (j := 12) le_rfl (by decide) fun _ _ => ⟨rfl, rfl⟩) fun _ => ?_
  exact keepString_ends (j := 13) le_rfl (by decide) fun _ _ => ⟨rfl, rfl⟩

theorem readPreInstanceFunctions_ends :
    Ends (Filled 14 m) (readPreInstanceFunctions req file node) (fun _ => Filled 17 m) (Exits h) := by
  unfold readPreInstanceFunctions
  rcases node.getObjectItem "pre_instance_functions" with _ | preInstance
  · exact .of_pure fun s hs => hs.mono (by decide)
  dsimp only
  split_ifs
  · exact .of_pure fun s hs => hs.mono (by decide)
  · exact .of_pure fun s hs => hs.mono (by decide)
  refine .of_bind (keepString_ends (j := 14) le_rfl (by decide) fun _ _ => ⟨rfl, rfl⟩) fun _ => ?_
  refine .of_bind (keepString_ends (j := 15) le_rfl (by decide) fun _ _ => ⟨rfl, rfl⟩) fun _ => ?_
  exact keepString_ends (j := 16) le_rfl (by decide) fun _ _ => ⟨rfl, rfl⟩

theorem readAppKeys_ends : Ends (Filled 17 m) (readAppKeys req node) (fun _ => Filled 18 m) (Exits h) := by
  unfold readAppKeys
  split_ifs
  · exact keepStrings_fills (j := 17) le_rfl (by decide) fun _ _ => ⟨rfl, rfl⟩
  · exact .of_pure fun s hs => hs.mono (by decide)

/-- A stated architecture is the one of the loader. -/
def ArchitectureMatches (file : LayerFile) (node : CJson) : Prop :=
  ∀ libraryArch, node.stringItem "library_arch" = some libraryArch → libraryArchMatches file.pointerSize libraryArch

theorem readLibraryArch_ends : Ends (Filled k m) (readLibraryArch file node)
    (fun _ s => ArchitectureMatches file node ∧ Filled k m s) (Exits h) := by
  unfold readLibraryArch ArchitectureMatches
  rcases node.stringItem "library_arch" with _ | libraryArch
  · exact .of_pure fun s hs => ⟨nofun, hs⟩
  dsimp only
  split_ifs with hmatch
  · exact .of_pure fun s hs => ⟨fun _ heq => Option.some.inj heq ▸ hmatch, hs⟩
  · exact .of_throw fun s hs => hs.exits nofun

/-! ### The layer -/

/-- The name fits and the type is one of a layer. -/
structure FitsNameAndType (node : CJson) : Prop where
  name : (loaderParseJsonStringToExistingStr node "name" vkMaxExtensionNameSize).isSome
  type : node.stringItem "type" = some "INSTANCE" ∨ node.stringItem "type" = some "GLOBAL"

/-- One of the versions is missing, and nothing is wrong with what is read before it. -/
def IsHalfFilled (node : CJson) : Prop :=
  FitsNameAndType node ∧ (node.stringItem "api_version" = none ∨
    (HasApiVersion node ∧ node.stringItem "implementation_version" = none))

/-- Every field says what it has to. -/
structure IsComplete (file : LayerFile) (node : CJson) : Prop extends FitsNameAndType node where
  apiVersion : HasApiVersion node
  implementationVersion : (node.stringItem "implementation_version").isSome
  description : (loaderParseJsonStringToExistingStr node "description" vkMaxDescriptionSize).isSome
  body : HasLibrary node ∨ HasComponents node
  disableEnvironment : CanBeDisabled file node
  libraryArch : ArchitectureMatches file node

/-- What is found of the layer when its fields have been read. -/
def Found (file : LayerFile) (node : CJson) (s : State) : Prop :=
  IsComplete file node ∧ ∃ m, HasBody node m ∧ Filled 18 m s

theorem HasBody.or (hbody : HasBody node m) : HasLibrary node ∨ HasComponents node := by
  rcases m with _ | _
  · exact .inl hbody
  · exact .inr hbody

/-- **How a reading ends**, whatever is granted: with all that the fields have to say, or early. -/
theorem readLayer_ends : Ends (Filled 0 false) (readLayer req file node) (fun _ => Found file node)
    (Exits (IsHalfFilled node)) := by
  refine .of_bind readManifestFileName_ends fun _ => ?_
  refine .of_bind readName_ends fun _ => .of_and fun hname => ?_
  refine .of_bind readType_ends fun _ => .of_and fun htype => ?_
  have hfits : FitsNameAndType node := ⟨hname, htype⟩
  refine .of_bind (readApiVersion_ends fun hnone => ⟨hfits, .inl hnone⟩) fun _ => .of_and fun happ => ?_
  refine .of_bind (readImplementationVersion_ends fun hnone => ⟨hfits, .inr ⟨happ, hnone⟩⟩) fun _ =>
    .of_and fun himplementation => ?_
  refine .of_bind readDescription_ends fun _ => .of_and fun hdescription => ?_
  refine .of_bind readLibraryPath_ends fun hasLibrary => .of_and fun hlibrary => ?_
  refine .of_bind (readComponentLayers_ends hlibrary) fun _ => .of_and fun hbody => ?_
  refine .of_bind readBlacklistedLayers_ends fun _ => ?_
  refine .of_bind readOverridePaths_ends fun _ => ?_
  refine .of_bind readDisableEnvironment_ends fun _ => .of_and fun hdisable => ?_
  refine .of_bind readFunctions_ends fun _ => ?_
  refine .of_bind readInstanceExtensions_ends fun _ => ?_
  refine .of_bind readDeviceExtensions_ends fun _ => ?_
  refine .of_bind readEnableEnvironment_ends fun _ => ?_
  refine .of_bind readPreInstanceFunctions_ends fun _ => ?_
  refine .of_bind readAppKeys_ends fun _ => ?_
  exact readLibraryArch_ends.weaken (fun _ hs => hs)
    (fun _ _ hs => ⟨⟨hfits, happ, himplementation, hdescription, hbody.or, hdisable, hs.1⟩, _, hbody, hs.2⟩)
    fun _ _ he => he

end VulkanLoader.LayerReader
