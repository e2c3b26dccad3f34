import VulkanLoader.Memory.StringList

/-!
# Values of JSON (`cJSON.c`, `loader_json.c`)

The tree that a file is parsed into, and the helpers that take fields out of it.  A member is found by its key without
regard to case, and of two members with one key the first is found.  The children of a value are chained: a loop over an
array goes over the values of an object as well.

The sizes of arrays stand for `int`s.
-/

namespace VulkanLoader

/-- `struct cJSON`.  The text of a number is the one that it is printed as. -/
inductive CJson where
  | null
  | bool (value : Bool)
  | number (valueint : ℤ) (text : String)
  | string (valuestring : String)
  | array (items : List CJson)
  | object (members : List (String × CJson))

/-- `case_insensitive_strcmp`. -/
def sameKey (string1 string2 : String) : Bool :=
  string1.toList.map Char.toLower == string2.toList.map Char.toLower

namespace CJson

/-- The values that are chained below a value. -/
def children : CJson → List CJson
  | .array items => items
  | .object members => members.map Prod.snd
  | _ => []

/-- `loader_cJSON_GetArraySize`. -/
def getArraySize (array : CJson) : ℕ := array.children.length

/-- The value of the key and the values chained behind it. -/
def itemsFrom (object : CJson) (key : String) : List CJson :=
  match object with
  | .object members => (members.dropWhile fun member => !sameKey key member.1).map Prod.snd
  | _ => []

/-- `loader_cJSON_GetObjectItem`. -/
def getObjectItem (object : CJson) (key : String) : Option CJson := (object.itemsFrom key).head?

/-- `loader_cJSON_GetStringValue`. -/
def getStringValue : CJson → Option String
  | .string valuestring => some valuestring
  | _ => none

/-- The string of a field. -/
def stringItem (object : CJson) (key : String) : Option String := (object.getObjectItem key).bind getStringValue

/-- The value is an object. -/
def isObject : CJson → Bool
  | .object _ => true
  | _ => false

/-! ### Printing -/

/-- The characters that have an escape of their own. -/
def hasShortEscape (c : Char) : Bool := c ∈ ['"', '\\', '\x08', '\x0c', '\n', '\r', '\t']

/-- A control character without one. -/
def isControl (c : Char) : Bool := c.toNat < 32 && !hasShortEscape c

/-- What `print_string_ptr` writes for a character: the backslash of an escape is left out. -/
def printChar (c : Char) : List Char :=
  if isControl c then ['u', '0', '0', Nat.digitChar (c.toNat / 16), Nat.digitChar (c.toNat % 16)] else [c]

/-- `print_string_ptr`. -/
def printString (input : String) : List Char := input.toList.flatMap printChar

/-- The `output_length` of `print_string_ptr`, in which the escapes that are not written are counted. -/
def outputLength (input : String) : ℕ :=
  input.length + (input.toList.map fun c => if hasShortEscape c then 1 else if isControl c then 5 else 0).sum

mutual

/-- `print_value`, formatted. -/
def printValue (depth : ℕ) : CJson → List Char
  | .null => "null".toList
  | .bool value => if value then "true".toList else "false".toList
  | .number _ text => text.toList
  | .string valuestring => printString valuestring
  | .array items => '[' :: printItems (depth + 1) items ++ [']']
  | .object members => '{' :: '\n' :: printMembers (depth + 1) members ++ List.replicate depth '\t' ++ ['}']

/-- The loop of `print_array`. -/
def printItems (depth : ℕ) : List CJson → List Char
  | [] => []
  | item :: items => printValue depth item ++ (if items.isEmpty then [] else [',', ' ']) ++ printItems depth items

/-- The loop of `print_object`. -/
def printMembers (depth : ℕ) : List (String × CJson) → List Char
  | [] => []
  | member :: members =>
    printMember depth member ++ (if members.isEmpty then [] else [',']) ++ '\n' :: printMembers depth members

/-- A member in `print_object`. -/
def printMember (depth : ℕ) : String × CJson → List Char
  | (key, value) => List.replicate depth '\t' ++ printString key ++ ':' :: '\t' :: printValue depth value

end

/-- `loader_cJSON_Print`. -/
def print (item : CJson) : String := String.ofList (printValue 0 item)

end CJson

/-! ### Fields -/

/-- The member is there and is `true`. -/
def isTrueItem (object : CJson) (key : String) : Bool :=
  match object.getObjectItem key with
  | some (.bool value) => value
  | _ => false

/-- A member is there and is no string. -/
def HasOtherKind (object : CJson) (key : String) : Prop :=
  ∃ value, object.getObjectItem key = some value ∧ value.getStringValue = none

theorem not_hasOtherKind_of_string {object : CJson} {key : String} (h : (object.stringItem key).isSome) :
    ¬ HasOtherKind object key := by
  rintro ⟨value, hvalue, hnone⟩
  rw [CJson.stringItem, hvalue, Option.bind_some, hnone] at h
  exact absurd h (by simp)

/-- `loader_parse_json_string_to_existing_str`: the string of a field, if it fits into `outStrLen` bytes with one to
spare. -/
def loaderParseJsonStringToExistingStr (object : CJson) (key : String) (outStrLen : ℕ) : Option String :=
  match object.getObjectItem key with
  | some (.string valuestring) =>
    if CJson.outputLength valuestring + 2 ≤ outStrLen then some (CJson.string valuestring).print else none
  | _ => none

/-- `loader_parse_json_string`; `granted` is for the requests of the print. -/
def loaderParseJsonString (granted : Bool) (object : CJson) (key : String) : VkResult × Option String :=
  match object.getObjectItem key with
  | some (.string valuestring) =>
    if granted then (.success, some (CJson.string valuestring).print) else (.errorOutOfHostMemory, none)
  | _ => (.errorInitializationFailed, none)

theorem getObjectItem_of_string {object : CJson} {key : String} (h : (object.stringItem key).isSome) :
    (object.getObjectItem key).isSome := by
  obtain ⟨valuestring, hstring⟩ := Option.isSome_iff_exists.1 h
  obtain ⟨value, hvalue, -⟩ := Option.bind_eq_some_iff.1 hstring
  rw [hvalue, Option.isSome_some]

theorem getObjectItem_of_no_string {object : CJson} {key : String} (h : object.stringItem key = none)
    (hkind : ¬ HasOtherKind object key) : object.getObjectItem key = none := by
  rcases hvalue : object.getObjectItem key with _ | value
  · rfl
  · rw [CJson.stringItem, hvalue, Option.bind_some] at h
    exact absurd ⟨value, hvalue, h⟩ hkind

theorem stringItem_of_existingStr {object : CJson} {key : String} {outStrLen : ℕ}
    (h : (loaderParseJsonStringToExistingStr object key outStrLen).isSome) : (object.stringItem key).isSome := by
  unfold loaderParseJsonStringToExistingStr at h
  unfold CJson.stringItem
  split at h
  · next valuestring hvalue => rw [hvalue]; rfl
  · cases h

theorem loaderParseJsonString_of_string {object : CJson} {key valuestring : String} (granted : Bool)
    (h : object.stringItem key = some valuestring) : loaderParseJsonString granted object key =
      if granted then (.success, some (CJson.string valuestring).print) else (.errorOutOfHostMemory, none) := by
  obtain ⟨value, hvalue, hstring⟩ := Option.bind_eq_some_iff.1 h
  unfold loaderParseJsonString
  rcases value with _ | _ | _ | valuestring | _ | _ <;> cases hstring
  rw [hvalue]

theorem loaderParseJsonString_of_no_string {object : CJson} {key : String} (granted : Bool)
    (h : object.stringItem key = none) :
    loaderParseJsonString granted object key = (.errorInitializationFailed, none) := by
  unfold loaderParseJsonString
  split
  · next valuestring hvalue => rw [CJson.stringItem, hvalue] at h; cases h
  · rfl

/-- The answers to the requests for an array of strings: for the array, and for each string. -/
structure StringListRequests where
  array : Bool
  element : ℕ → Bool

/-- All requests for an array of strings are granted. -/
def StringListRequests.granted : StringListRequests := ⟨true, fun _ => true⟩

/-- The loop of `loader_parse_json_array_of_strings` from the index `i` on. -/
def parseStringElements (req : StringListRequests) : ℕ → List CJson → StringList → VkResult × StringList
  | _, [], stringList => (.success, stringList)
  | i, .string valuestring :: elements, stringList =>
    if req.element i then
      -- the array has room for all elements, so appending asks for nothing
      parseStringElements req (i + 1) elements
        { stringList with list := some (stringList.strings ++ [(CJson.string valuestring).print]) }
    else (.errorOutOfHostMemory, .zero)
  | _, _ :: _, stringList => (.errorInitializationFailed, stringList)

/-- `loader_parse_json_array_of_strings`, for a list of zeros.  An element that is no string leaves those before it in
the list. -/
def loaderParseJsonArrayOfStrings (req : StringListRequests) (object : CJson) (key : String) :
    VkResult × StringList :=
  match object.getObjectItem key with
  | none => (.errorInitializationFailed, .zero)
  | some item =>
    if item.getArraySize = 0 then (.success, .zero)
    else
      match createStringList req.array item.getArraySize with
      | (.success, stringList) => parseStringElements req 0 item.children stringList
      | r => r

/-! ### Arrays of strings -/

/-- The values chained below are strings. -/
def CJson.HasStringsOnly (item : CJson) : Prop := ∀ child ∈ item.children, child.getStringValue.isSome

section ArrayOfStrings

variable {req : StringListRequests} {object item : CJson} {key : String}

theorem parseStringElements_ends (req : StringListRequests) (i : ℕ) (elements : List CJson) (l : StringList) :
    let r := parseStringElements req i elements l
    (r.1 = .success ∧ ∀ e ∈ elements, e.getStringValue.isSome) ∨ (r.1 = .errorOutOfHostMemory ∧ r.2 = .zero) ∨
      r.1 = .errorInitializationFailed := by
  induction elements generalizing i l with
  | nil => exact .inl ⟨rfl, by simp⟩
  | cons element elements ih =>
    rcases element with _ | _ | _ | valuestring | _ | _
    case string =>
      unfold parseStringElements
      split_ifs
      · rcases ih (i + 1) { l with list := some (l.strings ++ [(CJson.string valuestring).print]) } with
          ⟨hsuccess, hstrings⟩ | h | h
        · exact .inl ⟨hsuccess, List.forall_mem_cons.2 ⟨rfl, hstrings⟩⟩
        · exact .inr (.inl h)
        · exact .inr (.inr h)
      · exact .inr (.inl ⟨rfl, rfl⟩)
    all_goals exact .inr (.inr rfl)

/-- What the parser of an array of strings has found out. -/
theorem loaderParseJsonArrayOfStrings_ends (req : StringListRequests) (object : CJson) (key : String) :
    let r := loaderParseJsonArrayOfStrings req object key
    (r.1 = .success ∧ ∃ item, object.getObjectItem key = some item ∧ item.HasStringsOnly) ∨
      (r.1 = .errorOutOfHostMemory ∧ r.2 = .zero) ∨ r.1 = .errorInitializationFailed := by
  unfold loaderParseJsonArrayOfStrings
  rcases object.getObjectItem key with _ | item
  · exact .inr (.inr rfl)
  dsimp only
  split_ifs with hsize
  · have hchildren : item.children = [] := List.length_eq_zero_iff.1 hsize
    exact .inl ⟨rfl, item, rfl, by simp [CJson.HasStringsOnly, hchildren]⟩
  unfold createStringList
  split_ifs
  · rcases parseStringElements_ends req 0 item.children ⟨some [], item.getArraySize⟩ with ⟨hsuccess, hstrings⟩ | h | h
    · exact .inl ⟨hsuccess, item, rfl, hstrings⟩
    · exact .inr (.inl h)
    · exact .inr (.inr h)
  · exact .inr (.inl ⟨rfl, rfl⟩)

theorem parseStringElements_granted (i : ℕ) (elements : List CJson) (l : StringList) :
    let r := parseStringElements .granted i elements l
    r.1 ≠ .errorOutOfHostMemory ∧ ((∀ e ∈ elements, e.getStringValue.isSome) → r.1 = .success) := by
  induction elements generalizing i l with
  | nil => exact ⟨nofun, fun _ => rfl⟩
  | cons element elements ih =>
    rcases element with _ | _ | _ | valuestring | _ | _
    case string =>
      obtain ⟨hmemory, hsuccess⟩ :=
        ih (i + 1) { l with list := some (l.strings ++ [(CJson.string valuestring).print]) }
      exact ⟨hmemory, fun h => hsuccess fun e he => h e (List.mem_cons_of_mem _ he)⟩
    all_goals exact ⟨nofun, fun h => absurd (h _ List.mem_cons_self) (by simp [CJson.getStringValue])⟩

theorem loaderParseJsonArrayOfStrings_granted (object : CJson) (key : String) :
    (loaderParseJsonArrayOfStrings .granted object key).1 ≠ .errorOutOfHostMemory := by
  unfold loaderParseJsonArrayOfStrings
  rcases object.getObjectItem key with _ | item
  · exact nofun
  dsimp only
  split_ifs
  · exact nofun
  · exact (parseStringElements_granted 0 item.children ⟨some [], item.getArraySize⟩).1

theorem loaderParseJsonArrayOfStrings_of_strings (hitem : object.getObjectItem key = some item)
    (hstrings : item.HasStringsOnly) : (loaderParseJsonArrayOfStrings .granted object key).1 = .success := by
  unfold loaderParseJsonArrayOfStrings
  rw [hitem]
  dsimp only
  split_ifs
  · rfl
  · exact (parseStringElements_granted 0 item.children ⟨some [], item.getArraySize⟩).2 hstrings

end ArrayOfStrings

end VulkanLoader
