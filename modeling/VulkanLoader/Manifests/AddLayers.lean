import VulkanLoader.Manifests.LayerAdmission

/-!
# Reading a layer manifest (`loader_add_layer_properties`)

The layers of a manifest are the elements of `layers`, or else the value of `layer` and all that is chained behind it.
The result is the one of the layer that is read last.
-/

namespace VulkanLoader

open Lib

/-- Where a manifest comes from: its file, whether its layers are implicit, and the bytes of a pointer. -/
structure ManifestSource where
  fileName : String
  isImplicit : Bool
  pointerSize : ℕ

/-- The file as a layer of it is read. -/
def ManifestSource.layerFile (source : ManifestSource) (fileVers : String) : LayerFile where
  fileName := source.fileName
  version := loaderMakeFullVersion (loaderParseVersionString fileVers)
  isImplicit := source.isImplicit
  pointerSize := source.pointerSize

/-- The nodes that are read as layers, in their order. -/
def layerNodes (version : ApiVersion) (json : CJson) : List CJson :=
  match json.getObjectItem "layers" with
  -- an element that is no object ends the loop
  | some layersNode => layersNode.children.takeWhile CJson.isObject
  | none =>
    -- `uint16_t layer_count`
    if (json.itemsFrom "layer").length % 65536 > 1 ∧ loaderCheckVersionMeetsRequired ⟨1, 0, 1⟩ version then []
    else json.itemsFrom "layer"

/-- The loop over the nodes; each has its own answers to the requests for memory. -/
def readLayerNodes (req : ℕ → LayerRequests) (file : LayerFile) :
    ℕ → List CJson → VkResult → LayerList → VkResult × LayerList
  | _, [], result, layerList => (result, layerList)
  | i, layerNode :: nodes, _, layerList =>
    let outcome := loaderReadLayerJson (req i) file layerNode layerList
    readLayerNodes req file (i + 1) nodes outcome.result outcome.layerList

/-- `loader_add_layer_properties`. -/
def loaderAddLayerProperties (req : ℕ → LayerRequests) (source : ManifestSource) (json : CJson)
    (layerList : LayerList) : VkResult × LayerList :=
  if !json.isObject then (.errorInitializationFailed, layerList)
  else
    match json.stringItem "file_format_version" with
    | none => (.errorInitializationFailed, layerList)
    | some fileVers =>
      let file := source.layerFile fileVers
      readLayerNodes req file 0 (layerNodes file.version json) .errorInitializationFailed layerList

/-- What a manifest brings, with all requests granted. -/
def addManifest (source : ManifestSource) (members : List (String × CJson)) (layerList : LayerList) :
    VkResult × LayerList :=
  loaderAddLayerProperties (fun _ => .granted) source (.object members) layerList

/-! ### The records -/

/-- The records that a node adds. -/
def layerRecords (file : LayerFile) (node : CJson) : List ManifestLayer :=
  (loaderReadLayerJson .granted file node .zero).layerList.list

section Records

variable {file : LayerFile} {node : CJson} {nodes : List CJson} {layerList : LayerList}

theorem layerRecords_of_accepted (h : AcceptedLayer file node) : layerRecords file node = [layerRecord file node] :=
  (@loaderReadLayerJson_granted file node .zero h).2

theorem layerRecords_eq_nil : layerRecords file node = [] ↔ ¬ AcceptedLayer file node := by
  constructor
  · intro hnil haccepted
    rw [layerRecords_of_accepted haccepted] at hnil
    cases hnil
  · intro h
    unfold layerRecords
    rw [(loaderReadLayerJson_rejected h).2]
    rfl

/-- A node adds its records, whatever is in the list. -/
theorem loaderReadLayerJson_records (file : LayerFile) (node : CJson) (layerList : LayerList) :
    (loaderReadLayerJson .granted file node layerList).layerList.list =
      layerList.list ++ layerRecords file node := by
  by_cases h : AcceptedLayer file node
  · rw [(loaderReadLayerJson_granted h).2, layerRecords_of_accepted h]
  · rw [(loaderReadLayerJson_rejected h).2, layerRecords_eq_nil.2 h, List.append_nil]

/-- The loop adds those of the nodes, one after the other. -/
theorem readLayerNodes_records (i : ℕ) (nodes : List CJson) (result : VkResult) (layerList : LayerList) :
    (readLayerNodes (fun _ => .granted) file i nodes result layerList).2.list =
      layerList.list ++ nodes.flatMap (layerRecords file) := by
  induction nodes generalizing i result layerList with
  | nil => rw [readLayerNodes, List.flatMap_nil, List.append_nil]
  | cons node nodes ih =>
    rw [readLayerNodes, ih, loaderReadLayerJson_records, List.flatMap_cons, List.append_assoc]

/-- A success is the one of a node that was accepted. -/
theorem exists_accepted_of_success {i : ℕ} {result : VkResult} (hresult : result ≠ .success)
    (h : (readLayerNodes (fun _ => .granted) file i nodes result layerList).1 = .success) :
    ∃ node ∈ nodes, AcceptedLayer file node := by
  induction nodes generalizing i result layerList with
  | nil => exact absurd h hresult
  | cons node nodes ih =>
    by_cases haccepted : AcceptedLayer file node
    · exact ⟨node, List.mem_cons_self, haccepted⟩
    · obtain ⟨node', hmem, h'⟩ := ih (loaderReadLayerJson_rejected haccepted).1 h
      exact ⟨node', List.mem_cons_of_mem _ hmem, h'⟩

end Records

/-- A layer with all that it has to say. -/
def completeLayer : CJson :=
  .object [("name", .string "VK_LAYER_a"), ("type", .string "GLOBAL"), ("library_path", .string "libVkLayer_a.so"),
    ("api_version", .string "1.2.170"), ("implementation_version", .string "1"), ("description", .string "a layer")]

theorem completeLayer_isComplete {file : LayerFile} (h : file.isImplicit = false) :
    LayerReader.IsComplete file completeLayer where
  name := by decide
  type := .inr (by decide)
  apiVersion := ⟨"1.2.170", by decide, by decide⟩
  implementationVersion := by decide
  description := by decide
  body := .inl ⟨by decide, rfl⟩
  disableEnvironment himplicit := by rw [h] at himplicit; cases himplicit
  libraryArch libraryArch hsome := by
    have hnone : completeLayer.stringItem "library_arch" = none := by decide
    rw [hnone] at hsome
    cases hsome

end VulkanLoader
