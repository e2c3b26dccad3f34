import VulkanLoader.Instance.StringValidation
import VulkanLoader.Layers.Properties
import VulkanLoader.Lib.Lists

/-!
# The device extensions of a physical device (`terminator_EnumerateDeviceExtensionProperties`)

The extensions of a driver come first, then those of the implicit layers among the activated ones that have a new name.
They are counted in a list of the loader, and written into the array of the application.
-/

namespace VulkanLoader

open Lib

/-- `vkEnumerateDeviceExtensionProperties` of a driver: the answer to the call for the count, and the one to a call that
fills an array with room for so many entries, which says what is in the array then. -/
structure DeviceExtensionDriver where
  count : VkResult × ℕ
  fill : ℕ → List VkExtensionProperties → VkResult × ℕ × List VkExtensionProperties

/-- The driver obeys the two-call protocol, with a fixed list. -/
def DeviceExtensionDriver.Obeys (driver : DeviceExtensionDriver) (exts : List VkExtensionProperties) : Prop :=
  driver.count = (.success, exts.length) ∧ ∀ capacity array, capacity ≤ array.length →
    driver.fill capacity array = (if capacity < exts.length then .incomplete else .success, min capacity exts.length,
      exts.take capacity ++ array.drop (min capacity exts.length))

/-- What the requests for memory meet: the one for the list, and those that it makes to grow. -/
structure DeviceExtensionRequests where
  list : Bool
  grow : ℕ → Bool
  /-- What is in the new list. -/
  contents : ℕ → VkExtensionProperties

/-- The device extensions of the implicit layers, layer by layer. -/
def implicitDeviceExtensions (layers : List LayerProperties) : List VkExtensionProperties :=
  (layers.filter fun layerProps => !layerProps.isExplicit).flatMap fun layerProps =>
    layerProps.deviceExtensionList.list.map (·.props)

/-- `has_vk_extension_property_array`. -/
def hasVkExtensionPropertyArray (vkExtProp : VkExtensionProperties) (count : ℕ) (extArray : List VkExtensionProperties) :
    Bool :=
  (extArray.take count).any fun e => vkExtProp.extensionName == e.extensionName

/-- The loop over the layers that writes to the array of the application. -/
def writeLayerExtensions (propertyCount : ℕ) : List VkExtensionProperties → ℕ → List VkExtensionProperties →
    VkResult × ℕ × List VkExtensionProperties
  | [], writtenCount, properties => (.success, writtenCount, properties)
  | ext :: exts, writtenCount, properties =>
    if hasVkExtensionPropertyArray ext writtenCount properties then
      writeLayerExtensions propertyCount exts writtenCount properties
    else if propertyCount ≤ writtenCount then (.incomplete, propertyCount, properties)
    else writeLayerExtensions propertyCount exts (writtenCount + 1) (properties.set writtenCount ext)

/-- The branch of an application that has an array. -/
def fillDeviceExtensions (driver : DeviceExtensionDriver) (layers : List LayerProperties) (propertyCount : ℕ)
    (properties : List VkExtensionProperties) : VkResult × ℕ × List VkExtensionProperties :=
  match driver.fill propertyCount properties with
  | (.success, writtenCount, properties) =>
    writeLayerExtensions propertyCount (implicitDeviceExtensions layers) writtenCount properties
  | (res, _, properties) => (res, propertyCount, properties)

/-- The loop over the layers that adds to the list of the loader. -/
def addLayerExtensions (grow : ℕ → Bool) (allExts : ExtensionList) :
    List VkExtensionProperties → VkResult × ExtensionList
  | [] => (.success, allExts)
  | ext :: exts =>
    match loaderAddToExtList grow allExts [ext] with
    | (.success, allExts) => addLayerExtensions grow allExts exts
    | (res, allExts) => (res, allExts)

/-- The branch of an application that asks for the count; `propertyCount` is what the count was. -/
def countDeviceExtensions (req : DeviceExtensionRequests) (driver : DeviceExtensionDriver)
    (layers : List LayerProperties) (propertyCount : ℕ) : VkResult × ℕ :=
  match driver.count with
  | (.success, count) =>
    if req.list then
      match driver.fill count ((List.range (count + 20)).map req.contents) with
      | (.success, written, list) =>
        match addLayerExtensions req.grow ⟨list.take written, count + 20⟩ (implicitDeviceExtensions layers) with
        | (.success, allExts) => (.success, allExts.list.length)
        | (res, _) => (res, propertyCount)
      | (res, _, _) => (res, propertyCount)
    else (.errorOutOfHostMemory, propertyCount)
  | (res, _) => (res, propertyCount)

/-- The branch of an application that names a layer; the last layer of the name counts. -/
def layerDeviceExtensions (instanceLayerList : List LayerProperties) (layerName : String) (propertyCount : ℕ)
    (properties : Option (List VkExtensionProperties)) : VkResult × ℕ × Option (List VkExtensionProperties) :=
  if (vkStringValidate maxLoaderStringLength (some (cString layerName))).1 = .none then
    let devExtList : List VkExtensionProperties :=
      match instanceLayerList.reverse.find? fun props => props.layerName == layerName with
      | none => []
      | some props => props.deviceExtensionList.list.map (·.props)
    match properties with
    | none => (.success, devExtList.length, none)
    | some properties =>
      let copySize := if propertyCount < devExtList.length then propertyCount else devExtList.length
      (if copySize < devExtList.length then .incomplete else .success, copySize,
        some (devExtList.take copySize ++ properties.drop copySize))
  else (.errorExtensionNotPresent, propertyCount, properties)

/-- `terminator_EnumerateDeviceExtensionProperties`: the result, the count and the array afterwards. -/
def terminatorEnumerateDeviceExtensionProperties (req : DeviceExtensionRequests) (driver : DeviceExtensionDriver)
    (instanceLayerList expandedActivatedLayerList : List LayerProperties) (layerName : Option String)
    (propertyCount : Option ℕ) (properties : Option (List VkExtensionProperties)) :
    VkResult × Option ℕ × Option (List VkExtensionProperties) :=
  match propertyCount with
  | none => (.incomplete, none, properties)
  | some propertyCount =>
    if layerName.getD "" ≠ "" then
      let (res, propertyCount, properties) :=
        layerDeviceExtensions instanceLayerList (layerName.getD "") propertyCount properties
      (res, some propertyCount, properties)
    else
      match properties with
      | some properties =>
        let (res, propertyCount, properties) :=
          fillDeviceExtensions driver expandedActivatedLayerList propertyCount properties
        (res, some propertyCount, some properties)
      | none =>
        let (res, propertyCount) := countDeviceExtensions req driver expandedActivatedLayerList propertyCount
        (res, some propertyCount, none)

/-- All the extensions: those of the driver, and the new ones of the implicit layers. -/
def allDeviceExtensions (exts : List VkExtensionProperties) (layers : List LayerProperties) :
    List VkExtensionProperties :=
  addMissingBy (·.extensionName) (implicitDeviceExtensions layers) exts

/-- **The extensions are enumerated by the two-call protocol**: the count is that of all extensions, unless a request for
memory is refused; an array gets all of them, or as many as it has room for; those of the driver come first; and each
extension of an implicit layer is there once. -/
structure EnumeratesDeviceExtensions (driver : DeviceExtensionDriver) (exts : List VkExtensionProperties)
    (instanceLayerList layers : List LayerProperties) : Prop where
  counts : ∀ (req : DeviceExtensionRequests) (layerName : Option String) (propertyCount : ℕ), layerName.getD "" = "" →
    let r := terminatorEnumerateDeviceExtensionProperties req driver instanceLayerList layers layerName
      (some propertyCount) none
    r = (.success, some (allDeviceExtensions exts layers).length, none) ∨
      (r = (.errorOutOfHostMemory, some propertyCount, none) ∧ (req.list = false ∨ ∃ capacity, req.grow capacity = false))
  fills : ∀ (req : DeviceExtensionRequests) (layerName : Option String) (capacity : ℕ)
    (array : List VkExtensionProperties), layerName.getD "" = "" → capacity ≤ array.length →
    terminatorEnumerateDeviceExtensionProperties req driver instanceLayerList layers layerName (some capacity)
        (some array) =
      if (allDeviceExtensions exts layers).length ≤ capacity then
        (.success, some (allDeviceExtensions exts layers).length,
          some (allDeviceExtensions exts layers ++ array.drop (allDeviceExtensions exts layers).length))
      else
        (.incomplete, some capacity, some ((allDeviceExtensions exts layers).take capacity ++ array.drop capacity))
  driverFirst : exts <+: allDeviceExtensions exts layers
  layersOnce : ∀ ext ∈ implicitDeviceExtensions layers,
    ((allDeviceExtensions exts layers).map (·.extensionName)).count ext.extensionName = 1

section Enumeration

variable {driver : DeviceExtensionDriver} {exts l : List VkExtensionProperties} {layers : List LayerProperties}

/-- The list of the loader gets the new extensions, or a request of it is refused. -/
theorem addLayerExtensions_eq (grow : ℕ → Bool) (new : List VkExtensionProperties) (allExts : ExtensionList)
    (hcapacity : allExts.capacity ≠ 0) :
    (∃ capacity, addLayerExtensions grow allExts new =
        (.success, ⟨addMissingBy (·.extensionName) new allExts.list, capacity⟩)) ∨
      ((addLayerExtensions grow allExts new).1 = .errorOutOfHostMemory ∧ ∃ capacity, grow capacity = false) := by
  induction new generalizing allExts with
  | nil => exact .inl ⟨_, rfl⟩
  | cons ext new ih =>
    unfold addLayerExtensions loaderAddToExtList
    simp only [if_neg hcapacity, loaderAddToExtList.go, addExtension]
    by_cases hhas : hasVkExtensionProperty ext allExts
    · rw [if_pos hhas, addMissingBy_cons_of_mem (hasVkExtensionProperty_iff.1 hhas)]
      exact ih allExts hcapacity
    · rw [if_neg hhas, addMissingBy_cons_of_not_mem fun h => hhas (hasVkExtensionProperty_iff.2 h)]
      split_ifs with hfull hgrow
      · exact ih ⟨allExts.list ++ [ext], allExts.capacity * 2⟩ (by dsimp only; omega)
      · exact .inr ⟨rfl, _, by simpa using hgrow⟩
      · exact ih { allExts with list := allExts.list ++ [ext] } hcapacity

/-- The rounds that write to the array of the application. -/
theorem writeLayerExtensions_eq (capacity : ℕ) (new array : List VkExtensionProperties) (hl : l.length ≤ capacity)
    (harray : capacity ≤ array.length) :
    writeLayerExtensions capacity new l.length (l ++ array.drop l.length) =
      if (addMissingBy (·.extensionName) new l).length ≤ capacity then
        (.success, (addMissingBy (·.extensionName) new l).length,
          addMissingBy (·.extensionName) new l ++ array.drop (addMissingBy (·.extensionName) new l).length)
      else (.incomplete, capacity, (addMissingBy (·.extensionName) new l).take capacity ++ array.drop capacity) := by
  induction new generalizing l with
  | nil => exact (if_pos hl).symm
  | cons ext new ih =>
    have htake : (l ++ array.drop l.length).take l.length = l := List.take_left' rfl
    have hhas : hasVkExtensionPropertyArray ext l.length (l ++ array.drop l.length) = true ↔
        ext.extensionName ∈ l.map (·.extensionName) := by
      rw [hasVkExtensionPropertyArray, htake, List.any_eq_true, List.mem_map]
      exact exists_congr fun e => and_congr_right fun _ => beq_iff_eq.trans eq_comm
    unfold writeLayerExtensions
    by_cases hmem : ext.extensionName ∈ l.map (·.extensionName)
    · rw [if_pos (hhas.2 hmem), addMissingBy_cons_of_mem hmem]
      exact ih hl
    · rw [if_neg fun h => hmem (hhas.1 h), addMissingBy_cons_of_not_mem hmem]
      have hnext := prefix_addMissingBy (·.extensionName) new (l ++ [ext])
      have hlonger := hnext.length_le
      rw [List.length_append, List.length_singleton] at hlonger
      by_cases hroom : capacity ≤ l.length
      · -- the array is full
        have hlen : l.length = capacity := by omega
        obtain ⟨rest, hrest⟩ := hnext
        rw [if_pos hroom, if_neg (by omega), ← hrest, List.append_assoc, List.take_left' hlen, hlen]
      · have hset : (l ++ array.drop l.length).set l.length ext = (l ++ [ext]) ++ array.drop (l ++ [ext]).length := by
          rw [List.set_append_right _ _ le_rfl, Nat.sub_self, List.append_assoc, List.length_append,
            List.length_singleton, List.drop_eq_getElem_cons (by omega)]
          rfl
        have hsucc : (l ++ [ext]).length = l.length + 1 := by rw [List.length_append, List.length_singleton]
        rw [if_neg hroom, hset, ← hsucc]
        exact ih (by omega)

/-- What the branch for the count returns. -/
theorem countDeviceExtensions_eq (layers : List LayerProperties) (hdriver : driver.Obeys exts)
    (req : DeviceExtensionRequests) (propertyCount : ℕ) :
    countDeviceExtensions req driver layers propertyCount = (.success, (allDeviceExtensions exts layers).length) ∨
      (countDeviceExtensions req driver layers propertyCount = (.errorOutOfHostMemory, propertyCount) ∧
        (req.list = false ∨ ∃ capacity, req.grow capacity = false)) := by
  unfold countDeviceExtensions
  have hfill := hdriver.2 exts.length ((List.range (exts.length + 20)).map req.contents) (by simp)
  rw [if_neg (Nat.lt_irrefl _), Nat.min_self, List.take_length] at hfill
  simp only [hdriver.1, hfill]
  by_cases hlist : req.list
  · rw [if_pos hlist, List.take_left' rfl]
    rcases addLayerExtensions_eq req.grow (implicitDeviceExtensions layers) ⟨exts, exts.length + 20⟩
      (Nat.succ_ne_zero _) with ⟨capacity, hadd⟩ | ⟨hres, hgrow⟩
    · rw [hadd]
      exact .inl rfl
    · rcases hadd : addLayerExtensions req.grow ⟨exts, exts.length + 20⟩ (implicitDeviceExtensions layers) with
        ⟨res, allExts⟩
      rw [hadd] at hres
      obtain rfl : res = .errorOutOfHostMemory := hres
      exact .inr ⟨rfl, .inr hgrow⟩
  · rw [if_neg hlist]
    exact .inr ⟨rfl, .inl (by simpa using hlist)⟩

/-- What the branch for an array returns. -/
theorem fillDeviceExtensions_eq (hdriver : driver.Obeys exts) (capacity : ℕ) (array : List VkExtensionProperties)
    (harray : capacity ≤ array.length) :
    fillDeviceExtensions driver layers capacity array =
      if (allDeviceExtensions exts layers).length ≤ capacity then
        (.success, (allDeviceExtensions exts layers).length,
          allDeviceExtensions exts layers ++ array.drop (allDeviceExtensions exts layers).length)
      else (.incomplete, capacity, (allDeviceExtensions exts layers).take capacity ++ array.drop capacity) := by
  have hfirst : exts <+: allDeviceExtensions exts layers := prefix_addMissingBy _ _ _
  unfold fillDeviceExtensions
  rw [hdriver.2 capacity array harray]
  by_cases hless : capacity < exts.length
  · -- the driver alone has more
    have hmore := hfirst.length_le
    rw [if_pos hless, if_neg (by omega), Nat.min_eq_left (Nat.le_of_lt hless)]
    obtain ⟨rest, hrest⟩ := hfirst
    rw [← hrest, List.take_append_of_le_length (Nat.le_of_lt hless)]
  · rw [if_neg hless, Nat.min_eq_right (by omega), List.take_of_length_le (by omega)]
    exact writeLayerExtensions_eq capacity _ array (by omega) harray

end Enumeration

/-- **Device extensions are enumerated by the two-call protocol**, if the driver obeys it. -/
theorem enumeratesDeviceExtensions {driver : DeviceExtensionDriver} {exts : List VkExtensionProperties}
    (instanceLayerList layers : List LayerProperties) (hdriver : driver.Obeys exts)
    (hexts : (exts.map (·.extensionName)).Nodup) :
    EnumeratesDeviceExtensions driver exts instanceLayerList layers where
  counts req layerName propertyCount hname := by
    dsimp only [terminatorEnumerateDeviceExtensionProperties]
    rw [if_neg (not_not.2 hname)]
    rcases countDeviceExtensions_eq layers hdriver req propertyCount with hcount | ⟨hcount, hrefused⟩
    · exact .inl (by rw [hcount])
    · exact .inr ⟨by rw [hcount], hrefused⟩
  fills req layerName capacity array hname harray := by
    dsimp only [terminatorEnumerateDeviceExtensionProperties]
    rw [if_neg (not_not.2 hname), fillDeviceExtensions_eq hdriver capacity array harray]
    split_ifs <;> rfl
  driverFirst := prefix_addMissingBy _ _ _
  layersOnce ext hext := by
    rw [allDeviceExtensions, map_addMissingBy]
    exact List.count_eq_one_of_mem (nodup_addMissing.2 hexts)
      (mem_addMissing.2 (.inr (List.mem_map_of_mem hext)))

/-- The driver of a fixed list. -/
def DeviceExtensionDriver.ofList (exts : List VkExtensionProperties) : DeviceExtensionDriver where
  count := (.success, exts.length)
  fill capacity array := (if capacity < exts.length then .incomplete else .success, min capacity exts.length,
    exts.take capacity ++ array.drop (min capacity exts.length))

theorem DeviceExtensionDriver.ofList_obeys (exts : List VkExtensionProperties) : (ofList exts).Obeys exts :=
  ⟨rfl, fun _ _ _ => rfl⟩

/-- A layer that has an extension of the driver, and one of its own. -/
theorem enumeratesDeviceExtensions_overlap :
    EnumeratesDeviceExtensions (.ofList [⟨"VK_KHR_swapchain", 70⟩, ⟨"VK_KHR_maintenance1", 2⟩])
      [⟨"VK_KHR_swapchain", 70⟩, ⟨"VK_KHR_maintenance1", 2⟩] []
      [{ LayerProperties.zero with
        deviceExtensionList := ⟨[⟨⟨"VK_KHR_swapchain", 1⟩, []⟩, ⟨⟨"VK_EXT_tooling_info", 1⟩, []⟩], 32⟩ }] :=
  enumeratesDeviceExtensions _ _ (DeviceExtensionDriver.ofList_obeys _) (by decide)

end VulkanLoader
