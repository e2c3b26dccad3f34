import VulkanLoader.Manifests.LayerReading

/-!
# Which layers of manifests get into the list

A version that is missing ends the reading with the success of the field before it, and the record is appended as it is
then.  Where all requests are granted, a layer is appended exactly if it is complete or half filled.
-/

namespace VulkanLoader

open Lib

/-- A record of the list is one of an admissible layer. -/
structure AdmissibleLayer (file : LayerFile) (node : CJson) (record : ManifestLayer) : Prop where
  strings : ∀ key ∈ ["name", "type", "api_version", "implementation_version", "description"],
    (node.stringItem key).isSome
  either : (node.getObjectItem "library_path").isSome ≠ (node.getObjectItem "component_layers").isSome
  metaLayer : record.typeFlags.metaLayer = (node.getObjectItem "component_layers").isSome
  disableEnvironment : file.isImplicit → ∃ members, node.getObjectItem "disable_environment" = some (.object members)
  libraryArch : LayerReader.ArchitectureMatches file node

/-- What a layer may do to the list: it adds a record if it is admissible, and nothing otherwise; and no memory is left
that no record of the list owns. -/
structure AdmitsOnly (file : LayerFile) (node : CJson) : Prop where
  appended : ∀ req layerList, let outcome := loaderReadLayerJson req file node layerList
    (∃ record, outcome.layerList.list = layerList.list ++ [record] ∧ AdmissibleLayer file node record) ∨
      outcome.layerList.list = layerList.list
  released : ∀ req layerList, (loaderReadLayerJson req file node layerList).leaked = 0

/-- The layer gets into the list without having said all: a version is missing and nothing is wrong with what is read
before it; or nothing is wrong but that a library path stands beside the components, and is no string. -/
def LayerSlipsThrough (file : LayerFile) (node : CJson) : Prop :=
  LayerReader.IsHalfFilled node ∨ (LayerReader.IsComplete file node ∧ HasOtherKind node "library_path")

/-! ### With all requests granted -/

namespace LayerReader

variable {file : LayerFile} {node : CJson} {α β : Type}

/-- The computation comes to its end. -/
abbrev Proceeds (c : Reader α) : Prop := Ends (fun _ => True) c (fun _ _ => True) (fun _ _ => False)

theorem Proceeds.bind {c : Reader α} {f : α → Reader β} {Q : β → State → Prop} {E : VkResult → State → Prop}
    (hc : Proceeds c) (hf : ∀ a, Ends (fun _ => True) (f a) Q E) : Ends (fun _ => True) (c >>= f) Q E :=
  .of_bind (hc.weaken (fun _ hs => hs) (fun _ _ hs => hs) fun _ _ he => he.elim) hf

/-- What comes behind an exit is not read. -/
theorem ends_bind_exit {c : Reader α} {f : α → Reader β} {Q : β → State → Prop} {E : VkResult → State → Prop}
    (hc : Ends (fun _ => True) c (fun _ _ => False) E) : Ends (fun _ => True) (c >>= f) Q E :=
  .of_bind hc fun _ _ hs => hs.elim

theorem proceeds_keepString {parsed : VkResult × Option String}
    {write : Option String → ManifestLayer → ManifestLayer} (h : parsed.1 ≠ .errorOutOfHostMemory) :
    Proceeds (keepString parsed write) := by
  unfold keepString
  split
  · exact fun _ _ => trivial
  · exact absurd rfl h
  · exact fun _ _ => trivial

theorem proceeds_keepStrings {parsed : VkResult × StringList} {write : StringList → ManifestLayer → ManifestLayer}
    (h : parsed.1 ≠ .errorOutOfHostMemory) : Proceeds (keepStrings parsed write) := by
  unfold keepStrings
  rw [if_neg h]
  exact fun _ _ => trivial

theorem loaderParseJsonString_granted (object : CJson) (key : String) :
    (loaderParseJsonString true object key).1 ≠ .errorOutOfHostMemory := by
  rcases hstring : object.stringItem key with _ | valuestring
  · rw [loaderParseJsonString_of_no_string true hstring]
    nofun
  · rw [loaderParseJsonString_of_string true hstring, if_pos rfl]
    nofun

theorem loaderCopyToNewStr_granted (str : String) : (loaderCopyToNewStr true str).1 ≠ .errorOutOfHostMemory := by
  rw [loaderCopyToNewStr, if_pos rfl]
  nofun

theorem proceeds_readManifestFileName : Proceeds (readManifestFileName .granted file) :=
  proceeds_keepString (loaderCopyToNewStr_granted file.fileName)

theorem proceeds_readName (h : (loaderParseJsonStringToExistingStr node "name" vkMaxExtensionNameSize).isSome) :
    Proceeds (readName node) := by
  obtain ⟨layerName, h⟩ := Option.isSome_iff_exists.1 h
  unfold readName
  rw [h]
  exact fun _ _ => trivial

theorem proceeds_readType (h : node.stringItem "type" = some "INSTANCE" ∨ node.stringItem "type" = some "GLOBAL") :
    Proceeds (readType file node) := by
  unfold readType
  rcases h with h | h
  · rw [h]
    exact fun _ _ => trivial
  · rw [h]
    exact fun _ _ => trivial

theorem proceeds_readApiVersion (h : HasApiVersion node) : Proceeds (readApiVersion node) := by
  obtain ⟨apiVersion, hstring, hvariant⟩ := h
  unfold readApiVersion
  rw [hstring]
  dsimp only
  rw [if_neg (not_not.2 hvariant)]
  exact fun _ _ => trivial

theorem proceeds_readImplementationVersion (h : (node.stringItem "implementation_version").isSome) :
    Proceeds (readImplementationVersion node) := by
  obtain ⟨implementationVersion, h⟩ := Option.isSome_iff_exists.1 h
  unfold readImplementationVersion
  rw [h]
  exact fun _ _ => trivial

theorem proceeds_readDescription
    (h : (loaderParseJsonStringToExistingStr node "description" vkMaxDescriptionSize).isSome) :
    Proceeds (readDescription node) := by
  obtain ⟨description, h⟩ := Option.isSome_iff_exists.1 h
  unfold readDescription
  rw [h]
  exact fun _ _ => trivial

/-- The library path of a layer that has a library or components. -/
theorem readLibraryPath_granted (h : HasLibrary node ∨ HasComponents node) :
    Ends (fun _ => True) (readLibraryPath .granted file node) (fun hasLibrary _ => HasBody node (!hasLibrary) ∧ True)
      (fun _ _ => False) := by
  unfold readLibraryPath
  rcases h with ⟨hpath, hcomponents⟩ | ⟨hpath, hcomponents⟩
  · obtain ⟨libraryPath, hstring⟩ := Option.isSome_iff_exists.1 hpath
    obtain ⟨path, hcombine⟩ := combineManifestDirectoryAndLibraryPath_granted
      (CJson.string libraryPath).print file.fileName
    have hgranted : LayerRequests.granted.libraryPath = true := rfl
    have hfull : LayerRequests.granted.fullPath = true := rfl
    rw [loaderParseJsonString_of_string _ hstring, if_pos hgranted]
    dsimp only
    rw [hcomponents, if_neg (by simp), hfull, hcombine]
    exact fun _ _ => ⟨⟨hpath, hcomponents⟩, trivial⟩
  · rw [loaderParseJsonString_of_no_string _ hpath]
    exact fun _ _ => ⟨⟨hpath, hcomponents⟩, trivial⟩

theorem proceeds_readComponentLayers {hasLibrary : Bool} (h : HasBody node !hasLibrary) :
    Proceeds (readComponentLayers .granted node hasLibrary) := by
  unfold readComponentLayers
  rcases hasLibrary with _ | _
  · obtain ⟨-, item, hitem, hstrings⟩ := h
    have hsuccess := loaderParseJsonArrayOfStrings_of_strings hitem hstrings
    rw [if_neg (by decide)]
    refine (proceeds_keepStrings (loaderParseJsonArrayOfStrings_granted node "component_layers")).bind fun _ => ?_
    rw [show LayerRequests.granted.componentLayers = .granted from rfl, hsuccess, if_neg nofun]
    exact fun _ _ => trivial
  · exact fun _ _ => trivial

theorem proceeds_readBlacklistedLayers : Proceeds (readBlacklistedLayers .granted node) := by
  unfold readBlacklistedLayers
  refine Proceeds.bind (.of_get fun _ _ => trivial) fun s => ?_
  split_ifs
  · exact proceeds_keepStrings (loaderParseJsonArrayOfStrings_granted node "blacklisted_layers")
  · exact fun _ _ => trivial

theorem proceeds_readOverridePaths : Proceeds (readOverridePaths .granted node) :=
  proceeds_keepStrings (loaderParseJsonArrayOfStrings_granted node "override_paths")

theorem proceeds_readDisableEnvironment (h : CanBeDisabled file node) :
    Proceeds (readDisableEnvironment .granted file node) := by
  unfold readDisableEnvironment
  split_ifs with himplicit
  · exact fun _ _ => trivial
  obtain ⟨⟨string, valuestring⟩, hfirst⟩ := Option.isSome_iff_exists.1 (h (by simpa using himplicit))
  rw [hfirst]
  exact (proceeds_keepString (loaderCopyToNewStr_granted string)).bind fun _ =>
    proceeds_keepString (loaderCopyToNewStr_granted valuestring)

theorem proceeds_readFunctions : Proceeds (readFunctions .granted file node) := by
  have hstring : ∀ functions key write, Proceeds (keepString (loaderParseJsonString true functions key) write) :=
    fun functions key write => proceeds_keepString (loaderParseJsonString_granted functions key)
  unfold readFunctions
  rcases node.getObjectItem "functions" with _ | functions
  · exact fun _ _ => trivial
  dsimp only
  split_ifs
  · exact (hstring _ _ _).bind fun _ => (hstring _ _ _).bind fun _ => hstring _ _ _
  · exact (hstring _ _ _).bind fun _ => hstring _ _ _

theorem proceeds_parseExtension (extItem : CJson) : Proceeds (parseExtension true extItem) := by
  have hmemory := loaderParseJsonString_granted extItem "spec_version"
  unfold parseExtension
  split_ifs
  · exact fun _ _ => trivial
  rcases loaderParseJsonStringToExistingStr extItem "name" vkMaxExtensionNameSize with _ | extensionName
  · exact fun _ _ => trivial
  dsimp only
  split
  · next hparsed => exact absurd (congrArg Prod.fst hparsed) hmemory
  · exact fun _ _ => trivial

theorem proceeds_forEach {body : ℕ → CJson → Reader Unit} (hbody : ∀ i item, Proceeds (body i item)) (i : ℕ)
    (items : List CJson) : Proceeds (forEach body i items) :=
  forEach_ends hbody i items

theorem loaderAddToExtList_granted (l : ExtensionList) (extProp : VkExtensionProperties) :
    (loaderAddToExtList (fun _ => true) l [extProp]).1 = .success := by
  have hadd : ∀ start, ∃ start', addExtension (fun _ => true) start extProp = some start' := by
    intro start
    unfold addExtension
    simp only [↓reduceIte]
    split_ifs <;> exact ⟨_, rfl⟩
  have hgo : ∀ start, (loaderAddToExtList.go (fun _ => true) start [extProp]).1 = .success := by
    intro start
    obtain ⟨start', hstart⟩ := hadd start
    unfold loaderAddToExtList.go
    rw [hstart]
    rfl
  unfold loaderAddToExtList loaderInitExtensionList
  simp only [↓reduceIte]
  split_ifs
  · exact hgo ⟨[], 32⟩
  · exact hgo l

theorem proceeds_addInstanceExtension (extProp : VkExtensionProperties) :
    Proceeds (addInstanceExtension .granted extProp) := by
  unfold addInstanceExtension
  refine Proceeds.bind (.of_get fun _ _ => trivial) fun s => ?_
  have hsuccess := loaderAddToExtList_granted s.props.instanceExtensionList extProp
  rw [show LayerRequests.granted.growInstance = fun _ => true from rfl]
  generalize loaderAddToExtList (fun _ => true) s.props.instanceExtensionList [extProp] = added at hsuccess ⊢
  dsimp only
  rw [hsuccess, if_neg (show ¬ VkResult.success = .errorOutOfHostMemory by nofun)]
  split_ifs
  · exact fun _ _ => trivial
  · exact fun _ _ => trivial

theorem proceeds_readInstanceExtensions : Proceeds (readInstanceExtensions .granted node) := by
  refine proceeds_forEach (fun i extItem => ?_) 0 _
  refine (proceeds_parseExtension extItem).bind fun parsed => ?_
  rcases parsed with _ | extProp
  · exact fun _ _ => trivial
  dsimp only
  split_ifs
  · exact proceeds_addInstanceExtension extProp
  · exact fun _ _ => trivial

theorem proceeds_loaderAddToDevExtList (extProp : VkExtensionProperties) (entrys : Option StringList) :
    Proceeds (loaderAddToDevExtList .granted extProp entrys) := by
  have hinit : Proceeds (initDeviceExtensions .granted entrys) := by
    unfold initDeviceExtensions
    refine Proceeds.bind (.of_get fun _ _ => trivial) fun s => ?_
    split_ifs with hzero hgrow
    · exact fun _ _ => trivial
    · exact absurd rfl hgrow
    · exact fun _ _ => trivial
  unfold loaderAddToDevExtList
  refine hinit.bind fun _ => Proceeds.bind (.of_get fun _ _ => trivial) fun s => ?_
  dsimp only
  split_ifs with hduplicate hgrow
  · exact fun _ _ => trivial
  · exact absurd hgrow.2 (by simp [LayerRequests.granted])
  · exact fun _ _ => trivial

theorem proceeds_readDeviceExtensions : Proceeds (readDeviceExtensions .granted node) := by
  refine proceeds_forEach (fun i extItem => ?_) 0 _
  refine (proceeds_parseExtension extItem).bind fun parsed => ?_
  rcases parsed with _ | extProp
  · exact fun _ _ => trivial
  dsimp only
  rcases extItem.getObjectItem "entrypoints" with _ | _
  · exact proceeds_loaderAddToDevExtList extProp none
  refine Proceeds.bind (.of_modify fun _ _ => trivial) fun _ => ?_
  rw [show LayerRequests.granted.entrypoints i = .granted from rfl,
    if_neg (loaderParseJsonArrayOfStrings_granted extItem "entrypoints")]
  exact proceeds_loaderAddToDevExtList extProp _

theorem proceeds_readEnableEnvironment : Proceeds (readEnableEnvironment .granted file node) := by
  unfold readEnableEnvironment
  split_ifs
  · exact fun _ _ => trivial
  rcases (node.getObjectItem "enable_environment").bind firstString with _ | ⟨string, valuestring⟩
  · exact fun _ _ => trivial
  exact (proceeds_keepString (loaderCopyToNewStr_granted string)).bind fun _ =>
    proceeds_keepString (loaderCopyToNewStr_granted valuestring)

theorem proceeds_readPreInstanceFunctions : Proceeds (readPreInstanceFunctions .granted file node) := by
  have hstring : ∀ preInstance key write, Proceeds (keepString (loaderParseJsonString true preInstance key) write) :=
    fun preInstance key write => proceeds_keepString (loaderParseJsonString_granted preInstance key)
  unfold readPreInstanceFunctions
  rcases node.getObjectItem "pre_instance_functions" with _ | preInstance
  · exact fun _ _ => trivial
  dsimp only
  split_ifs
  · exact fun _ _ => trivial
  · exact fun _ _ => trivial
  · exact (hstring _ _ _).bind fun _ => (hstring _ _ _).bind fun _ => hstring _ _ _

theorem proceeds_readAppKeys : Proceeds (readAppKeys .granted node) := by
  unfold readAppKeys
  split_ifs
  · exact proceeds_keepStrings (loaderParseJsonArrayOfStrings_granted node "app_keys")
  · exact fun _ _ => trivial

theorem proceeds_readLibraryArch (h : ArchitectureMatches file node) : Proceeds (readLibraryArch file node) := by
  unfold readLibraryArch
  rcases harch : node.stringItem "library_arch" with _ | libraryArch
  · exact fun _ _ => trivial
  · dsimp only
    rw [if_pos (h libraryArch harch)]
    exact fun _ _ => trivial

/-- A complete layer is read to its end. -/
theorem readLayer_of_complete (h : IsComplete file node) : Proceeds (readLayer .granted file node) := by
  refine proceeds_readManifestFileName.bind fun _ => ?_
  refine (proceeds_readName h.name).bind fun _ => ?_
  refine (proceeds_readType h.type).bind fun _ => ?_
  refine (proceeds_readApiVersion h.apiVersion).bind fun _ => ?_
  refine (proceeds_readImplementationVersion h.implementationVersion).bind fun _ => ?_
  refine (proceeds_readDescription h.description).bind fun _ => ?_
  refine .of_bind (readLibraryPath_granted h.body) fun hasLibrary => .of_and fun hbody => ?_
  refine (proceeds_readComponentLayers hbody).bind fun _ => ?_
  refine proceeds_readBlacklistedLayers.bind fun _ => ?_
  refine proceeds_readOverridePaths.bind fun _ => ?_
  refine (proceeds_readDisableEnvironment h.disableEnvironment).bind fun _ => ?_
  refine proceeds_readFunctions.bind fun _ => ?_
  refine proceeds_readInstanceExtensions.bind fun _ => ?_
  refine proceeds_readDeviceExtensions.bind fun _ => ?_
  refine proceeds_readEnableEnvironment.bind fun _ => ?_
  refine proceeds_readPreInstanceFunctions.bind fun _ => ?_
  exact proceeds_readAppKeys.bind fun _ => proceeds_readLibraryArch h.libraryArch

/-- A half filled one ends with a success. -/
theorem readLayer_of_halfFilled (h : IsHalfFilled node) :
    Ends (fun _ => True) (readLayer .granted file node) (fun _ _ => False) (fun e _ => e = .success) := by
  obtain ⟨hfits, hversion⟩ := h
  refine proceeds_readManifestFileName.bind fun _ => ?_
  refine (proceeds_readName hfits.name).bind fun _ => ?_
  refine (proceeds_readType hfits.type).bind fun _ => ?_
  rcases hversion with hnone | ⟨happ, hnone⟩
  · refine ends_bind_exit ?_
    unfold readApiVersion
    rw [hnone]
    exact .of_throw fun _ _ => rfl
  · refine (proceeds_readApiVersion happ).bind fun _ => ends_bind_exit ?_
    unfold readImplementationVersion
    rw [hnone]
    exact .of_throw fun _ _ => rfl

end LayerReader

/-! ### The list -/

section List

variable {req : LayerRequests} {file : LayerFile} {node : CJson} {layerList : LayerList} {record : ManifestLayer}

theorem LayerList.append_ends (grow : ℕ → Bool) (layerList : LayerList) (record : ManifestLayer) :
    (layerList.append grow record).2.list = layerList.list ++ [record] ∨
      (layerList.append grow record).2.list = layerList.list := by
  unfold LayerList.append
  split_ifs with hzero
  · exact .inl (by rw [layerList.empty hzero, List.nil_append])
  · exact .inr rfl
  · exact .inl rfl
  · exact .inr rfl
  · exact .inl rfl

theorem LayerList.append_granted (layerList : LayerList) (record : ManifestLayer) :
    (layerList.append (fun _ => true) record).1 = .success ∧
      (layerList.append (fun _ => true) record).2.list = layerList.list ++ [record] := by
  unfold LayerList.append
  simp only [↓reduceIte]
  split_ifs with hzero
  · exact ⟨rfl, by rw [layerList.empty hzero, List.nil_append]⟩
  · exact ⟨rfl, rfl⟩
  · exact ⟨rfl, rfl⟩

theorem filled_zero : LayerReader.Filled 0 false ⟨.zero, 0⟩ where
  live := by decide
  rest i _ := by
    have hzero : ManifestLayer.zero.blocks = List.replicate 18 0 := by decide
    change ManifestLayer.zero.blocks.getD i 0 = 0
    rw [hzero, List.getD_eq_getElem?_getD, List.getElem?_replicate]
    split_ifs <;> rfl
  metaLayer := rfl

/-- A layer that is read leaves no memory behind; and if it is in the list then, it is complete or half filled. -/
theorem loaderReadLayerJson_ends (req : LayerRequests) (file : LayerFile) (node : CJson) (layerList : LayerList) :
    (loaderReadLayerJson req file node layerList).leaked = 0 ∧
      ((loaderReadLayerJson req file node layerList).layerList.list = layerList.list ∨
        ∃ record, (loaderReadLayerJson req file node layerList).layerList.list = layerList.list ++ [record] ∧
          ((LayerReader.IsComplete file node ∧ LayerReader.HasBody node record.typeFlags.metaLayer) ∨
            LayerReader.IsHalfFilled node)) := by
  have hends := @LayerReader.readLayer_ends req file node ⟨.zero, 0⟩ filled_zero
  unfold loaderReadLayerJson
  generalize (LayerReader.readLayer req file node).from ⟨.zero, 0⟩ = final at hends ⊢
  rcases final with ⟨e | _, s⟩
  · obtain ⟨hlive, hsuccess⟩ := hends
    refine ⟨by dsimp only; omega, ?_⟩
    dsimp only
    split_ifs with he
    · rcases layerList.append_ends req.growList s.props with happend | happend
      · exact .inr ⟨s.props, happend, .inr (hsuccess he)⟩
      · exact .inl happend
    · exact .inl rfl
  · obtain ⟨hcomplete, m, hbody, hfilled⟩ := hends
    have hlive := hfilled.live
    refine ⟨by dsimp only; omega, ?_⟩
    dsimp only
    rw [if_pos rfl]
    rcases layerList.append_ends req.growList s.props with happend | happend
    · exact .inr ⟨s.props, happend, .inl ⟨hcomplete, hfilled.metaLayer ▸ hbody⟩⟩
    · exact .inl happend

/-- The record that is read of a layer. -/
def layerRecord (file : LayerFile) (node : CJson) : ManifestLayer :=
  ((LayerReader.readLayer .granted file node).from ⟨.zero, 0⟩).2.props

/-- The layer gets into the list, if there is memory. -/
def AcceptedLayer (file : LayerFile) (node : CJson) : Prop :=
  LayerReader.IsComplete file node ∨ LayerReader.IsHalfFilled node

/-- With all requests granted the layer gets into the list if it is accepted. -/
theorem loaderReadLayerJson_granted (h : AcceptedLayer file node) :
    (loaderReadLayerJson .granted file node layerList).result = .success ∧
      (loaderReadLayerJson .granted file node layerList).layerList.list = layerList.list ++ [layerRecord file node] := by
  unfold loaderReadLayerJson layerRecord
  rcases h with h | h
  · have hends := LayerReader.readLayer_of_complete h ⟨.zero, 0⟩ trivial
    generalize (LayerReader.readLayer .granted file node).from ⟨.zero, 0⟩ = final at hends ⊢
    rcases final with ⟨e | _, s⟩
    · exact hends.elim
    · exact layerList.append_granted s.props
  · have hends := @LayerReader.readLayer_of_halfFilled file node h ⟨.zero, 0⟩ trivial
    generalize (LayerReader.readLayer .granted file node).from ⟨.zero, 0⟩ = final at hends ⊢
    rcases final with ⟨e | _, s⟩
    · obtain rfl : e = .success := hends
      exact layerList.append_granted s.props
    · exact hends.elim

/-- A layer that is not accepted does not change the list, whatever is granted. -/
theorem loaderReadLayerJson_rejected (h : ¬ AcceptedLayer file node) :
    (loaderReadLayerJson req file node layerList).result ≠ .success ∧
      (loaderReadLayerJson req file node layerList).layerList = layerList := by
  have hends := @LayerReader.readLayer_ends req file node ⟨.zero, 0⟩ filled_zero
  unfold loaderReadLayerJson
  generalize (LayerReader.readLayer req file node).from ⟨.zero, 0⟩ = final at hends ⊢
  rcases final with ⟨e | _, s⟩
  · have he : e ≠ .success := fun he => h (.inr (hends.2 he))
    dsimp only
    rw [if_neg he]
    exact ⟨he, rfl⟩
  · exact absurd (.inl hends.1) h

theorem admissible_of_complete (h : LayerReader.IsComplete file node) (hkind : ¬ HasOtherKind node "library_path")
    (hbody : LayerReader.HasBody node record.typeFlags.metaLayer) : AdmissibleLayer file node record := by
  have hlibrary : (node.getObjectItem "library_path").isSome = !record.typeFlags.metaLayer ∧
      (node.getObjectItem "component_layers").isSome = record.typeFlags.metaLayer := by
    rcases hm : record.typeFlags.metaLayer with _ | _
    · rw [hm] at hbody
      obtain ⟨hstring, hnone⟩ := hbody
      exact ⟨getObjectItem_of_string hstring, by rw [hnone]; rfl⟩
    · rw [hm] at hbody
      obtain ⟨hnone, item, hitem, -⟩ := hbody
      exact ⟨by rw [getObjectItem_of_no_string hnone hkind]; rfl, by rw [hitem]; rfl⟩
  obtain ⟨apiVersion, happ, -⟩ := h.apiVersion
  refine ⟨?_, ?_, hlibrary.2.symm, fun himplicit => ?_, h.libraryArch⟩
  · have htype : (node.stringItem "type").isSome := by
      rcases h.type with htype | htype
      · rw [htype]; rfl
      · rw [htype]; rfl
    simp only [List.forall_mem_cons]
    exact ⟨stringItem_of_existingStr h.name, htype, by rw [happ]; rfl, h.implementationVersion,
      stringItem_of_existingStr h.description, nofun⟩
  · rw [hlibrary.1, hlibrary.2]
    cases record.typeFlags.metaLayer <;> decide
  · obtain ⟨first, hfirst⟩ := Option.isSome_iff_exists.1 (h.disableEnvironment himplicit)
    obtain ⟨item, hitem, hstring⟩ := Option.bind_eq_some_iff.1 hfirst
    rcases item with _ | _ | _ | _ | _ | members
    case object => exact ⟨members, hitem⟩
    all_goals cases hstring

theorem not_admissible_of_slips (h : LayerSlipsThrough file node) (record : ManifestLayer) :
    ¬ AdmissibleLayer file node record := by
  intro hadmissible
  have hstrings := hadmissible.strings
  rcases h with ⟨-, hnone | ⟨-, hnone⟩⟩ | ⟨hcomplete, hkind⟩
  · have happ := hstrings "api_version" (by decide)
    rw [hnone] at happ
    cases happ
  · have himplementation := hstrings "implementation_version" (by decide)
    rw [hnone] at himplementation
    cases himplementation
  · obtain ⟨value, hvalue, -⟩ := id hkind
    rcases hcomplete.body with ⟨hstring, -⟩ | ⟨-, item, hitem, -⟩
    · exact not_hasOtherKind_of_string hstring hkind
    · exact hadmissible.either (by rw [hvalue, hitem]; rfl)

theorem accepted_of_slips (h : LayerSlipsThrough file node) : AcceptedLayer file node :=
  h.elim .inr fun hcomplete => .inl hcomplete.1

end List

/-- A layer with a name and a type only. -/
def unversionedLayer : CJson := .object [("name", .string "VK_LAYER_a"), ("type", .string "INSTANCE")]

end VulkanLoader
