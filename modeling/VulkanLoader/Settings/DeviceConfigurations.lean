import VulkanLoader.Settings.ParseSettings

/-!
# Which device configurations are kept (`parse_device_configurations`)

The array has an entry for each element of the file.  A valid element is written behind the valid ones before it, and
what is left of the array stays there, in zeros; if the last element is invalid, or one is no object, nothing is kept.
-/

namespace VulkanLoader

/-! ### The valid elements -/

/-- A number that is a byte. -/
def byteOf : CJson → Option UInt8
  | .number valueint _ => if 0 ≤ valueint ∧ valueint ≤ 255 then some (UInt8.ofNat valueint.toNat) else none
  | _ => none

/-- The bytes, as many as an UUID has. -/
def uuidOfBytes (bytes : List UInt8) : Uuid := Vector.ofFn fun i => bytes.getD i 0

/-- The UUID of a field: an array of sixteen bytes. -/
def uuidOf (json : CJson) (uuidName : String) : Option Uuid :=
  match json.getObjectItem uuidName with
  | some (.array items) => if items.length = 16 then (items.mapM byteOf).map uuidOfBytes else none
  | _ => none

/-- The number of a field. -/
def numberOf (json : CJson) (key : String) : Option ℤ :=
  match json.getObjectItem key with
  | some (.number valueint _) => some valueint
  | _ => none

/-- The configuration that a valid element stands for.  The names may be missing. -/
def deviceConfigurationOf (json : CJson) : Option DeviceConfiguration := do
  let deviceUUID ← uuidOf json "deviceUUID"
  let driverUUID ← uuidOf json "driverUUID"
  let driverVersion ← numberOf json "driverVersion"
  some
    { deviceUUID, driverUUID
      driverVersion := UInt32.ofInt driverVersion
      deviceName := (loaderParseJsonStringToExistingStr json "deviceName" vkMaxPhysicalDeviceNameSize).getD ""
      driverName := (loaderParseJsonStringToExistingStr json "driverName" vkMaxPhysicalDeviceNameSize).getD "" }

/-- The elements of the settings. -/
def deviceElements (settingsObject : CJson) : List CJson :=
  ((settingsObject.getObjectItem "device_configurations").map CJson.children).getD []

/-- What is kept are the configurations of the valid elements. -/
def KeepsValidDevices (settingsObject : CJson) (settings : LoaderSettings) : Prop :=
  (parseDeviceConfigurations true settingsObject { settings with deviceConfigurations := [] }).2.deviceConfigurations =
    (deviceElements settingsObject).filterMap deviceConfigurationOf

/-! ### Elements -/

section Elements

variable {json : CJson} {device : DeviceConfiguration} {uuid : Uuid} {items : List CJson} {i : ℕ}

theorem parseUuidFields_cons (h : i < 16) (item : CJson) :
    parseUuidFields i (item :: items) uuid =
      match byteOf item with
      | some byte => parseUuidFields (i + 1) items (uuid.setIfInBounds i byte)
      | none => (.errorInitializationFailed, uuid) := by
  rcases item with _ | _ | ⟨valueint, text⟩ | _ | _ | _
  case number =>
    by_cases hbyte : 0 ≤ valueint ∧ valueint ≤ 255
    · have hrange : ¬ (valueint < 0 ∨ valueint > 255) := by omega
      simp [parseUuidFields, byteOf, not_le.2 h, hrange, hbyte]
    · have hrange : valueint < 0 ∨ valueint > 255 := by omega
      simp [parseUuidFields, byteOf, not_le.2 h, hrange, hbyte]
  all_goals simp [parseUuidFields, byteOf, not_le.2 h]

/-- The rest of the fields, if they are bytes, fills the UUID. -/
theorem parseUuidFields_of_bytes {bytes : List UInt8} (h : i + items.length = 16) (hbytes : items.mapM byteOf = some bytes) :
    parseUuidFields i items uuid =
      (.success, Vector.ofFn fun k => if k < i then uuid[k] else bytes.getD (k - i) 0) := by
  induction items generalizing i uuid bytes with
  | nil =>
    obtain rfl : i = 16 := by simpa using h
    simp [parseUuidFields]
  | cons item items ih =>
    rw [List.length_cons] at h
    rw [List.mapM_cons, Option.bind_eq_bind, Option.bind_eq_some_iff] at hbytes
    obtain ⟨byte, hbyte, hbytes⟩ := hbytes
    rw [Option.bind_eq_bind, Option.bind_eq_some_iff] at hbytes
    obtain ⟨rest, hrest, hbytes⟩ := hbytes
    obtain rfl := Option.some.inj hbytes
    rw [parseUuidFields_cons (by omega), hbyte]
    refine (ih (by omega) hrest).trans (congrArg _ (Vector.ext fun k hk => ?_))
    simp only [Vector.getElem_ofFn, Fin.getElem_fin]
    rcases lt_trichotomy k i with hlt | rfl | hgt
    · rw [if_pos (by omega), if_pos hlt, Vector.getElem_setIfInBounds_ne hk (by omega)]
    · rw [if_pos (by omega), if_neg (by omega), Vector.getElem_setIfInBounds_self hk, Nat.sub_self]
      rfl
    · have hsub : k - i = k - (i + 1) + 1 := by omega
      rw [if_neg (by omega), if_neg (by omega), hsub]
      rfl

theorem parseUuidFields_of_not_bytes (h : i + items.length = 16) (hbytes : items.mapM byteOf = none) :
    (parseUuidFields i items uuid).1 = .errorInitializationFailed := by
  induction items generalizing i uuid with
  | nil => simp at hbytes
  | cons item items ih =>
    rw [List.length_cons] at h
    rw [parseUuidFields_cons (by omega)]
    rcases hbyte : byteOf item with _ | byte
    · rfl
    · refine ih (by omega) ?_
      rcases hrest : items.mapM byteOf with _ | rest
      · rfl
      · simp [List.mapM_cons, hbyte, hrest] at hbytes

/-- A UUID is taken from sixteen bytes, whatever stood there before. -/
theorem parseUuidArray_eq (uuid : Uuid) (uuidName : String) :
    (∀ bytes, uuidOf json uuidName = some bytes → parseUuidArray json uuidName uuid = (.success, bytes)) ∧
      (uuidOf json uuidName = none → (parseUuidArray json uuidName uuid).1 = .errorInitializationFailed) := by
  unfold uuidOf parseUuidArray
  rcases json.getObjectItem uuidName with _ | item
  · exact ⟨by simp, fun _ => rfl⟩
  rcases item with _ | _ | _ | _ | items | _
  case array =>
    by_cases hlength : items.length = 16
    · simp only [hlength, if_true, ne_eq, not_true_eq_false, if_false]
      constructor
      · intro uuid' huuid
        obtain ⟨bytes, hbytes, rfl⟩ := Option.map_eq_some_iff.1 huuid
        rw [parseUuidFields_of_bytes (by omega) hbytes]
        simp [uuidOfBytes]
      · intro hnone
        exact parseUuidFields_of_not_bytes (by omega) (Option.map_eq_none_iff.1 hnone)
    · simp [hlength]
  all_goals exact ⟨by simp, fun _ => rfl⟩

/-- A valid element is read with success, and its entry is filled if it was of zeros. -/
theorem parseDeviceConfiguration_of_valid (device : DeviceConfiguration) {entry : DeviceConfiguration}
    (h : deviceConfigurationOf json = some entry) :
    (parseDeviceConfiguration json device).1 = .success ∧
      parseDeviceConfiguration json .zero = (.success, entry) := by
  unfold deviceConfigurationOf at h
  obtain ⟨deviceUUID, hdevice, h⟩ := Option.bind_eq_some_iff.1 h
  obtain ⟨driverUUID, hdriver, h⟩ := Option.bind_eq_some_iff.1 h
  obtain ⟨driverVersion, hversion, h⟩ := Option.bind_eq_some_iff.1 h
  obtain rfl := Option.some.inj h
  unfold numberOf at hversion
  split at hversion
  case h_1 hitem =>
    obtain rfl := Option.some.inj hversion
    constructor
    · simp only [parseDeviceConfiguration, (parseUuidArray_eq _ _).1 _ hdevice, (parseUuidArray_eq _ _).1 _ hdriver, hitem]
    · simp only [parseDeviceConfiguration, (parseUuidArray_eq _ _).1 _ hdevice, (parseUuidArray_eq _ _).1 _ hdriver, hitem]
      rfl
  case h_2 => cases hversion

theorem parseDeviceConfiguration_of_invalid (device : DeviceConfiguration) (h : deviceConfigurationOf json = none) :
    (parseDeviceConfiguration json device).1 = .errorInitializationFailed := by
  unfold parseDeviceConfiguration
  rcases hdevice : uuidOf json "deviceUUID" with _ | deviceUUID
  · have hfails := (parseUuidArray_eq device.deviceUUID "deviceUUID").2 hdevice
    rcases hread : parseUuidArray json "deviceUUID" device.deviceUUID with ⟨res, _⟩
    rw [hread] at hfails
    subst hfails
    rfl
  rw [(parseUuidArray_eq _ _).1 _ hdevice]
  rcases hdriver : uuidOf json "driverUUID" with _ | driverUUID
  · have hfails := (parseUuidArray_eq device.driverUUID "driverUUID").2 hdriver
    rcases hread : parseUuidArray json "driverUUID" device.driverUUID with ⟨res, _⟩
    rw [hread] at hfails
    subst hfails
    rfl
  simp only [(parseUuidArray_eq _ _).1 _ hdriver]
  rcases hversion : numberOf json "driverVersion" with _ | driverVersion
  · unfold numberOf at hversion
    rcases hitem : json.getObjectItem "driverVersion" with _ | item
    · rfl
    · rw [hitem] at hversion
      rcases item with _ | _ | _ | _ | _ | _
      case number => cases hversion
      all_goals rfl
  · simp [deviceConfigurationOf, hdevice, hdriver, hversion] at h

theorem isObject_of_valid (h : (deviceConfigurationOf json).isSome) : json.isObject = true := by
  rcases json with _ | _ | _ | _ | _ | _
  case object => rfl
  all_goals cases h

end Elements

/-! ### The array -/

section Arrays

variable {elements : List CJson} {devices written : List DeviceConfiguration} {res : VkResult} {i : ℕ}

theorem length_parseDevices (res : VkResult) (elements : List CJson) (i : ℕ) (devices : List DeviceConfiguration) :
    (parseDevices res elements i devices).2.2.length = devices.length := by
  induction elements generalizing res i devices with
  | nil => rfl
  | cons element elements ih =>
    unfold parseDevices
    dsimp only
    split_ifs
    · rfl
    · exact List.length_set
    · exact (ih _ _ _).trans List.length_set
    · exact (ih _ _ _).trans List.length_set

/-- Valid elements are written one behind the other. -/
theorem parseDevices_of_valid (res : VkResult) (written : List DeviceConfiguration)
    (h : ∀ e ∈ elements, (deviceConfigurationOf e).isSome) :
    parseDevices res elements written.length (written ++ List.replicate elements.length .zero) =
      (true, if elements = [] then res else .success, written ++ elements.filterMap deviceConfigurationOf) := by
  induction elements generalizing res written with
  | nil => simp [parseDevices]
  | cons element elements ih =>
    obtain ⟨hvalid, hrest⟩ := List.forall_mem_cons.1 h
    obtain ⟨entry, hentry⟩ := Option.isSome_iff_exists.1 hvalid
    have hcell : (written ++ List.replicate (element :: elements).length DeviceConfiguration.zero).getD
        written.length .zero = .zero := by
      simp
    have hset : (written ++ List.replicate (element :: elements).length DeviceConfiguration.zero).set
        written.length entry = (written ++ [entry]) ++ List.replicate elements.length .zero := by
      rw [List.set_append_right _ _ le_rfl, Nat.sub_self, List.length_cons, List.replicate_succ, List.set_cons_zero,
        List.append_assoc, List.singleton_append]
    unfold parseDevices
    simp only [isObject_of_valid hvalid, Bool.not_true, Bool.false_eq_true, if_false, hcell,
      (parseDeviceConfiguration_of_valid .zero hentry).2, hset]
    have hlength : (written ++ [entry]).length = written.length + 1 := by simp
    have htail := ih .success (written ++ [entry]) hrest
    rw [hlength] at htail
    rw [if_neg (by simp), if_neg (by simp), htail]
    simp [hentry]

/-- Invalid elements end with an error. -/
theorem parseDevices_of_invalid (h : ∀ e ∈ elements, deviceConfigurationOf e = none)
    (hres : elements = [] → res ≠ .success) : (parseDevices res elements i devices).2.1 ≠ .success := by
  induction elements generalizing res i devices with
  | nil => exact hres rfl
  | cons element elements ih =>
    obtain ⟨hinvalid, hrest⟩ := List.forall_mem_cons.1 h
    have hread := parseDeviceConfiguration_of_invalid (devices.getD i .zero) hinvalid
    unfold parseDevices
    by_cases hobject : element.isObject
    · simp only [hobject, hread, Bool.not_true, Bool.false_eq_true, if_false, if_true, reduceCtorEq, ne_eq,
        not_false_eq_true]
      exact ih hrest fun _ => by simp
    · simp [hobject]

end Arrays

/-- The elements are all valid, or none of them is. -/
def AllOrNoneValid (settingsObject : CJson) : Prop :=
  (∀ e ∈ deviceElements settingsObject, (deviceConfigurationOf e).isSome) ∨
    ∀ e ∈ deviceElements settingsObject, deviceConfigurationOf e = none

/-- **When the valid devices are kept**: exactly when all elements are valid, or none. -/
theorem keepsValidDevices_iff (settingsObject : CJson) (settings : LoaderSettings) :
    KeepsValidDevices settingsObject settings ↔ AllOrNoneValid settingsObject := by
  unfold KeepsValidDevices AllOrNoneValid parseDeviceConfigurations deviceElements
  rcases settingsObject.getObjectItem "device_configurations" with _ | deviceConfigurations
  · simp
  by_cases hempty : deviceConfigurations.getArraySize = 0
  · have hchildren : deviceConfigurations.children = [] := List.eq_nil_of_length_eq_zero hempty
    simp [hempty, hchildren]
  simp only [hempty, if_false, Bool.not_true, Bool.false_eq_true, Option.map_some, Option.getD_some]
  have hlength := length_parseDevices .success deviceConfigurations.children 0
    (List.replicate deviceConfigurations.getArraySize .zero)
  rw [List.length_replicate, CJson.getArraySize] at hlength
  constructor
  · intro h
    split_ifs at h with hres
    · -- There are as many entries as elements.
      refine .inl fun e he => ?_
      by_contra hinvalid
      have hfewer := List.length_filterMap_lt_length_iff_exists.2 ⟨e, he, Option.not_isSome_iff_eq_none.1 hinvalid⟩
      rw [← h] at hfewer
      exact hfewer.ne hlength
    · exact .inr (List.filterMap_eq_nil_iff.1 h.symm)
  · rintro (hvalid | hinvalid)
    · have hread := parseDevices_of_valid .success [] hvalid
      rw [List.length_nil, List.nil_append, List.nil_append] at hread
      rw [CJson.getArraySize, hread]
      simp
    · have hne : deviceConfigurations.children = [] → VkResult.success ≠ .success := fun h =>
        absurd (congrArg List.length h) hempty
      rw [if_neg (parseDevices_of_invalid hinvalid hne), List.filterMap_eq_nil_iff.2 hinvalid]

/-- A device without a driver version, behind a valid one. -/
def lastInvalid : CJson :=
  let uuid := CJson.array (List.replicate 16 (.number 1 "1"))
  .object [("device_configurations", .array
    [.object [("deviceUUID", uuid), ("driverUUID", uuid), ("driverVersion", .number 1 "1")],
      .object [("deviceUUID", uuid), ("driverUUID", uuid)]])]

/-- The valid device is lost. -/
theorem not_keepsValidDevices : ¬ KeepsValidDevices lastInvalid .zero := by
  unfold KeepsValidDevices
  decide

end VulkanLoader
