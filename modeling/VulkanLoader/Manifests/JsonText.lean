import VulkanLoader.Lib.Outstanding
import VulkanLoader.Manifests.Json
import VulkanLoader.Memory.ExtensionArray

/-!
# The text of JSON (`cJSON.c`)

The parser of `loader_cJSON_ParseWithLength`.  It goes over the bytes of a buffer; every read of the buffer and every
write of the block for a string is checked, and `none` is one that is out of bounds.  Each request to the allocator is
granted or refused, and a block is known by the number of its request.

What `strtod` makes of the characters of a number is an argument: the `valueint`, and the text that the double is printed
as.  How many of them it takes is not, as they can only spell a decimal number.
-/

namespace VulkanLoader

open VulkanLoader.Lib HandleEvent

/-- The byte of a character of ASCII. -/
def ascii (c : Char) : UInt8 := c.toUInt8

/-- `"null"`. -/
def nullBytes : List UInt8 := [ascii 'n', ascii 'u', ascii 'l', ascii 'l']

/-- `"false"`. -/
def falseBytes : List UInt8 := [ascii 'f', ascii 'a', ascii 'l', ascii 's', ascii 'e']

/-- `"true"`. -/
def trueBytes : List UInt8 := [ascii 't', ascii 'r', ascii 'u', ascii 'e']

/-! ### Items -/

/-- The types of `cJSON.h` that the parser sets; `cJSON_Invalid` is the zero of a new item. -/
inductive CJsonType where
  | invalid
  | false
  | true
  | null
  | number
  | string
  | array
  | object
  deriving DecidableEq

/-- `struct cJSON`: the block of the item, its strings with their blocks, and the items that are chained below it. -/
structure CJsonItem where
  block : ℕ
  type : CJsonType
  string : Option (ℕ × List UInt8)
  valuestring : Option (ℕ × List UInt8)
  valueint : ℤ
  valuedouble : String
  child : List CJsonItem

namespace CJsonItem

/-- The item of zeros that `cJSON_New_Item` gives. -/
def new (block : ℕ) : CJsonItem := ⟨block, .invalid, none, none, 0, "", []⟩

/-- The block that a string is in. -/
def stringBlock (s : Option (ℕ × List UInt8)) : List ℕ := (s.map Prod.fst).toList

mutual

/-- The blocks that `loader_cJSON_Delete` frees for an item, in its order. -/
def blocks : CJsonItem → List ℕ
  | ⟨block, _, string, valuestring, _, _, child⟩ =>
    chainBlocks child ++ stringBlock valuestring ++ stringBlock string ++ [block]

/-- The blocks that `loader_cJSON_Delete` frees for a chain of items. -/
def chainBlocks : List CJsonItem → List ℕ
  | [] => []
  | item :: next => blocks item ++ chainBlocks next

end

/-- What a string of an item reads as. -/
def stringText (s : Option (ℕ × List UInt8)) : String :=
  ExtensionArray.text (stringBytes ((s.map Prod.snd).getD []))

mutual

/-- The value that an item stands for. -/
def tree : CJsonItem → CJson
  | ⟨_, type, _, valuestring, valueint, valuedouble, child⟩ =>
    match type with
    | .invalid => .null
    | .null => .null
    | .false => .bool Bool.false
    | .true => .bool Bool.true
    | .number => .number valueint valuedouble
    | .string => .string (stringText valuestring)
    | .array => .array ((memberTrees child).map Prod.snd)
    | .object => .object (memberTrees child)

/-- The keys and values of a chain of items. -/
def memberTrees : List CJsonItem → List (String × CJson)
  | [] => []
  | item :: next => (stringText item.string, tree item) :: memberTrees next

end

end CJsonItem

/-! ### The buffer -/

/-- `parse_buffer`, and what its allocator has been asked for. -/
structure ParseBuffer where
  offset : ℕ
  depth : ℕ
  requests : ℕ
  log : List (HandleEvent ℕ)
  outOfMemory : Bool

namespace ParseBuffer

/-- A buffer that nothing has been read of. -/
def start : ParseBuffer := ⟨0, 0, 0, [], false⟩

/-- `loader_calloc` for the parser, which remembers when it is refused. -/
def calloc (grants : ℕ → Bool) (b : ParseBuffer) : Option ℕ × ParseBuffer :=
  if grants b.requests then
    (some b.requests, { b with requests := b.requests + 1, log := b.log ++ [made b.requests] })
  else (none, { b with requests := b.requests + 1, outOfMemory := true })

/-- `loader_free`. -/
def free (b : ParseBuffer) (blocks : List ℕ) : ParseBuffer := { b with log := b.log ++ blocks.map givenBack }

end ParseBuffer

/-- `CJSON_NESTING_LIMIT`. -/
def cjsonNestingLimit : ℕ := 1000

/-- A byte that `buffer_skip_whitespace` jumps over. -/
def isBlank (c : UInt8) : Bool := c ≤ 32

/-- `buffer_skip_whitespace`.  At the end it steps back to the last byte. -/
def bufferSkipWhitespace (content : List UInt8) (b : ParseBuffer) : ParseBuffer :=
  if content.length ≤ b.offset then b
  else
    let offset := b.offset + ((content.drop b.offset).takeWhile isBlank).length
    { b with offset := if offset = content.length then offset - 1 else offset }

/-- `skip_utf8_bom`, at the beginning of a buffer. -/
def skipUtf8Bom (content : List UInt8) (b : ParseBuffer) : ParseBuffer :=
  if 4 < content.length ∧ [0xEF, 0xBB, 0xBF].isPrefixOf content then { b with offset := b.offset + 3 } else b

/-! ### Strings -/

/-- The value of a digit in `parse_hex4`. -/
def hexDigit (c : UInt8) : Option ℕ :=
  if ascii '0' ≤ c ∧ c ≤ ascii '9' then some (c.toNat - (ascii '0').toNat)
  else if ascii 'A' ≤ c ∧ c ≤ ascii 'F' then some (10 + c.toNat - (ascii 'A').toNat)
  else if ascii 'a' ≤ c ∧ c ≤ ascii 'f' then some (10 + c.toNat - (ascii 'a').toNat)
  else none

/-- The loop of `parse_hex4` from the digit `i` on. -/
def parseHexDigits : ℕ → ℕ → List UInt8 → ℕ
  | h, _, [] => h
  | h, i, c :: cs =>
    match hexDigit c with
    | none => 0
    | some digit => parseHexDigits (if i < 3 then (h + digit) <<< 4 else h + digit) (i + 1) cs

/-- `parse_hex4`, which gives zero for what is no number of four digits. -/
def parseHex4 (input : List UInt8) : ℕ := parseHexDigits 0 0 (input.take 4)

/-- The code point of the UTF-16 literal at the beginning of `input`, and the length of the literal. -/
def utf16Literal (input : List UInt8) : Option (ℕ × ℕ) :=
  if input.length < 6 then none
  else
    let firstCode := parseHex4 (input.drop 2)
    if 0xDC00 ≤ firstCode ∧ firstCode ≤ 0xDFFF then none
    else if 0xD800 ≤ firstCode ∧ firstCode ≤ 0xDBFF then
      let secondSequence := input.drop 6
      if secondSequence.length < 6 then none
      else if secondSequence.take 2 ≠ [ascii '\\', ascii 'u'] then none
      else
        let secondCode := parseHex4 (secondSequence.drop 2)
        if secondCode < 0xDC00 ∨ 0xDFFF < secondCode then none
        else some (0x10000 + (((firstCode &&& 0x3FF) <<< 10) ||| (secondCode &&& 0x3FF)), 12)
    else some (firstCode, 6)

/-- The loop over the bytes of UTF-8 that follow the first: what is left of the code point, and the bytes. -/
def utf8Tail : ℕ → ℕ → List UInt8 → ℕ × List UInt8
  | 0, codepoint, tail => (codepoint, tail)
  | n + 1, codepoint, tail => utf8Tail n (codepoint >>> 6) (UInt8.ofNat ((codepoint ||| 0x80) &&& 0xBF) :: tail)

/-- A code point in `utf8Length` bytes of UTF-8. -/
def encodeUtf8 (utf8Length firstByteMark codepoint : ℕ) : List UInt8 :=
  let r := utf8Tail (utf8Length - 1) codepoint []
  if 1 < utf8Length then UInt8.ofNat ((r.1 ||| firstByteMark) &&& 0xFF) :: r.2
  else UInt8.ofNat (r.1 &&& 0x7F) :: r.2

/-- `utf16_literal_to_utf8`: the length of the literal and the bytes that are written for it, if it is one.  `input` are
the bytes from `input_pointer` up to `input_end`, of which no others are read. -/
def utf16LiteralToUtf8 (input : List UInt8) : Option (ℕ × List UInt8) :=
  (utf16Literal input).bind fun (codepoint, sequenceLength) =>
    if codepoint < 0x80 then some (sequenceLength, encodeUtf8 1 0 codepoint)
    else if codepoint < 0x800 then some (sequenceLength, encodeUtf8 2 0xC0 codepoint)
    else if codepoint < 0x10000 then some (sequenceLength, encodeUtf8 3 0xE0 codepoint)
    else if codepoint ≤ 0x10FFFF then some (sequenceLength, encodeUtf8 4 0xF0 codepoint)
    else none

/-- The loop of `parse_string` that looks for the closing quote, over the bytes from `input_end` on. -/
def findStringEnd : List UInt8 → ℕ → ℕ → Option (ℕ × ℕ)
  | [], _, _ => none
  | c :: cs, inputEnd, skippedBytes =>
    if c = ascii '"' then some (inputEnd, skippedBytes)
    else if c = ascii '\\' then
      match cs with
      | [] => none
      | _ :: cs => findStringEnd cs (inputEnd + 2) (skippedBytes + 1)
    else findStringEnd cs (inputEnd + 1) skippedBytes

/-- The character of an escape with two bytes. -/
def shortEscape (c : UInt8) : Option UInt8 :=
  if c = ascii 'b' then some 8
  else if c = ascii 'f' then some 12
  else if c = ascii 'n' then some 10
  else if c = ascii 'r' then some 13
  else if c = ascii 't' then some 9
  else if c = ascii '"' ∨ c = ascii '\\' ∨ c = ascii '/' then some c
  else none

/-- The block that `parse_string` writes to, and where. -/
structure StringOutput where
  block : List UInt8
  position : ℕ

/-- Writing at `output_pointer`, which moves. -/
def StringOutput.write (output : StringOutput) (bytes : List UInt8) : Option StringOutput :=
  if output.position + bytes.length ≤ output.block.length then
    some ⟨output.block.take output.position ++ bytes ++ output.block.drop (output.position + bytes.length),
      output.position + bytes.length⟩
  else none

/-- The loop of `parse_string` through the literal, for as many rounds as there are bytes: whether it comes through, and
where it stops. -/
def unescape (content : List UInt8) (inputEnd : ℕ) : ℕ → ℕ → StringOutput → Option (Bool × ℕ × StringOutput)
  | 0, inputPointer, output => some (true, inputPointer, output)
  | rounds + 1, inputPointer, output =>
    if inputPointer < inputEnd then
      content[inputPointer]?.bind fun c =>
        if c ≠ ascii '\\' then (output.write [c]).bind (unescape content inputEnd rounds (inputPointer + 1))
        else
          content[inputPointer + 1]?.bind fun escape =>
            match shortEscape escape with
            | some c => (output.write [c]).bind (unescape content inputEnd rounds (inputPointer + 2))
            | none =>
              if escape = ascii 'u' then
                match utf16LiteralToUtf8 ((content.take inputEnd).drop inputPointer) with
                | some (sequenceLength, bytes) =>
                  (output.write bytes).bind (unescape content inputEnd rounds (inputPointer + sequenceLength))
                | none => some (false, inputPointer, output)
              else some (false, inputPointer, output)
    else some (true, inputPointer, output)

/-- `parse_string`. -/
def parseString (content : List UInt8) (grants : ℕ → Bool) (item : CJsonItem) (b : ParseBuffer) :
    Option (Bool × CJsonItem × ParseBuffer) :=
  content[b.offset]?.bind fun first =>
    let inputPointer := b.offset + 1
    if first ≠ ascii '"' then some (false, item, { b with offset := inputPointer })
    else
      match findStringEnd (content.drop inputPointer) inputPointer 0 with
      | none => some (false, item, { b with offset := inputPointer })
      | some (inputEnd, skippedBytes) =>
        let allocationLength := inputEnd - b.offset - skippedBytes
        match b.calloc grants with
        | (none, b) => some (false, item, { b with offset := inputPointer })
        | (some block, b) =>
          (unescape content inputEnd (inputEnd - inputPointer) inputPointer
              ⟨List.replicate (allocationLength + 1) 0, 0⟩).bind fun
          | (true, _, output) =>
            (output.write [0]).map fun output =>
              (true, { item with type := .string, valuestring := some (block, output.block) },
                { b with offset := inputEnd + 1 })
          | (false, inputPointer, _) => some (false, item, { b.free [block] with offset := inputPointer })

/-! ### Numbers -/

/-- A decimal digit. -/
def isDigit (c : UInt8) : Bool := ascii '0' ≤ c && c ≤ ascii '9'

/-- A byte that `parse_number` copies. -/
def isNumberByte (c : UInt8) : Bool := isDigit c || c ∈ [ascii '+', ascii '-', ascii 'e', ascii 'E', ascii '.']

/-- The `number_c_string` of `parse_number`, which has room for 63 bytes. -/
def numberCString (input : List UInt8) : List UInt8 := (input.take 63).takeWhile isNumberByte

/-- The length of a sign. -/
def signLength (s : List UInt8) : ℕ := if s.head? = some (ascii '+') ∨ s.head? = some (ascii '-') then 1 else 0

/-- The length of a row of digits. -/
def digitsLength (s : List UInt8) : ℕ := (s.takeWhile isDigit).length

/-- The length of digits with a decimal point; zero if there is no digit. -/
def mantissaLength (s : List UInt8) : ℕ :=
  let whole := digitsLength s
  if (s.drop whole).head? = some (ascii '.') then
    let fraction := digitsLength (s.drop (whole + 1))
    if whole + fraction = 0 then 0 else whole + 1 + fraction
  else whole

/-- The length of an exponent; zero if it has no digit. -/
def exponentLength (s : List UInt8) : ℕ :=
  if s.head? = some (ascii 'e') ∨ s.head? = some (ascii 'E') then
    let sign := signLength (s.drop 1)
    let digits := digitsLength (s.drop (1 + sign))
    if digits = 0 then 0 else 1 + sign + digits
  else 0

/-- How many bytes `strtod` converts of a string of digits, signs, points and `e`s, in the C locale: the point of the
locale, which `parse_number` puts in place of `.`, is `.` itself. -/
def strtodLength (s : List UInt8) : ℕ :=
  let mantissa := mantissaLength (s.drop (signLength s))
  if mantissa = 0 then 0
  else signLength s + mantissa + exponentLength (s.drop (signLength s + mantissa))

/-- What a converted number is: its `valueint`, and the text that the double is printed as. -/
abbrev NumberValue := List UInt8 → ℤ × String

/-- `parse_number`. -/
def parseNumber (content : List UInt8) (number : NumberValue) (item : CJsonItem) (b : ParseBuffer) :
    Bool × CJsonItem × ParseBuffer :=
  let numberString := numberCString (content.drop b.offset)
  let converted := strtodLength numberString
  if converted = 0 then (false, item, b)
  else
    let value := number (numberString.take converted)
    (true, { item with type := .number, valueint := value.1, valuedouble := value.2 },
      { b with offset := b.offset + converted })

/-! ### Values -/

section Values

variable (content : List UInt8) (grants : ℕ → Bool) (number : NumberValue)

mutual

/-- `parse_value`, with as many calls below it as `fuel` allows. -/
def parseValue : ℕ → CJsonItem → ParseBuffer → Option (Bool × CJsonItem × ParseBuffer)
  | 0, _, _ => none
  | fuel + 1, item, b =>
    let input := content.drop b.offset
    if nullBytes.isPrefixOf input then
      some (true, { item with type := .null }, { b with offset := b.offset + 4 })
    else if falseBytes.isPrefixOf input then
      some (true, { item with type := .false }, { b with offset := b.offset + 5 })
    else if trueBytes.isPrefixOf input then
      some (true, { item with type := .true, valueint := 1 }, { b with offset := b.offset + 4 })
    else
      match content[b.offset]? with
      | none => some (false, item, b)
      | some c =>
        if c = ascii '"' then parseString content grants item b
        else if c = ascii '-' ∨ isDigit c then some (parseNumber content number item b)
        else if c = ascii '[' then parseArray fuel item b
        else if c = ascii '{' then parseObject fuel item b
        else some (false, item, b)

/-- `parse_array`. -/
def parseArray : ℕ → CJsonItem → ParseBuffer → Option (Bool × CJsonItem × ParseBuffer)
  | 0, _, _ => none
  | fuel + 1, item, b =>
    if cjsonNestingLimit ≤ b.depth then some (false, item, b)
    else
      let b := { b with depth := b.depth + 1 }
      content[b.offset]?.bind fun first =>
        if first ≠ ascii '[' then some (false, item, b)
        else
          let b := bufferSkipWhitespace content { b with offset := b.offset + 1 }
          match content[b.offset]? with
          | none => some (false, item, { b with offset := b.offset - 1 })
          | some c =>
            if c = ascii ']' then
              some (true, { item with type := .array, child := [] },
                { b with depth := b.depth - 1, offset := b.offset + 1 })
            else
              (parseArrayElements fuel [] { b with offset := b.offset - 1 }).map fun (ok, head, b) =>
                if ok ∧ content[b.offset]? = some (ascii ']') then
                  (true, { item with type := .array, child := head },
                    { b with depth := b.depth - 1, offset := b.offset + 1 })
                else (false, item, b.free (CJsonItem.chainBlocks head))

/-- The loop of `parse_array`, which stops at what follows the last element. -/
def parseArrayElements : ℕ → List CJsonItem → ParseBuffer → Option (Bool × List CJsonItem × ParseBuffer)
  | 0, _, _ => none
  | fuel + 1, head, b =>
    match b.calloc grants with
    | (none, b) => some (false, head, b)
    | (some newItem, b) =>
      (parseValue fuel (.new newItem) (bufferSkipWhitespace content { b with offset := b.offset + 1 })).bind fun
      | (false, item, b) => some (false, head ++ [item], b)
      | (true, item, b) =>
        let b := bufferSkipWhitespace content b
        if content[b.offset]? = some (ascii ',') then parseArrayElements fuel (head ++ [item]) b
        else some (true, head ++ [item], b)

/-- `parse_object`. -/
def parseObject : ℕ → CJsonItem → ParseBuffer → Option (Bool × CJsonItem × ParseBuffer)
  | 0, _, _ => none
  | fuel + 1, item, b =>
    if cjsonNestingLimit ≤ b.depth then some (false, item, b)
    else
      let b := { b with depth := b.depth + 1 }
      if content[b.offset]? ≠ some (ascii '{') then some (false, item, b)
      else
        let b := bufferSkipWhitespace content { b with offset := b.offset + 1 }
        match content[b.offset]? with
        | none => some (false, item, { b with offset := b.offset - 1 })
        | some c =>
          if c = ascii '}' then
            some (true, { item with type := .object, child := [] },
              { b with depth := b.depth - 1, offset := b.offset + 1 })
          else
            (parseMembers fuel [] { b with offset := b.offset - 1 }).map fun (ok, head, b) =>
              if ok ∧ content[b.offset]? = some (ascii '}') then
                (true, { item with type := .object, child := head },
                  { b with depth := b.depth - 1, offset := b.offset + 1 })
              else (false, item, b.free (CJsonItem.chainBlocks head))

/-- The loop of `parse_object`, which stops at what follows the last member. -/
def parseMembers : ℕ → List CJsonItem → ParseBuffer → Option (Bool × List CJsonItem × ParseBuffer)
  | 0, _, _ => none
  | fuel + 1, head, b =>
    match b.calloc grants with
    | (none, b) => some (false, head, b)
    | (some newItem, b) =>
      if content.length ≤ b.offset + 1 then some (false, head ++ [.new newItem], b)
      else
        (parseString content grants (.new newItem)
            (bufferSkipWhitespace content { b with offset := b.offset + 1 })).bind fun
        | (false, item, b) => some (false, head ++ [item], b)
        | (true, item, b) =>
          let b := bufferSkipWhitespace content b
          let item := { item with string := item.valuestring, valuestring := none }
          if content[b.offset]? ≠ some (ascii ':') then some (false, head ++ [item], b)
          else
            (parseValue fuel item (bufferSkipWhitespace content { b with offset := b.offset + 1 })).bind fun
            | (false, item, b) => some (false, head ++ [item], b)
            | (true, item, b) =>
              let b := bufferSkipWhitespace content b
              if content[b.offset]? = some (ascii ',') then parseMembers fuel (head ++ [item]) b
              else some (true, head ++ [item], b)

end

/-- `loader_cJSON_ParseWithLength`: the item, if the text has a value at its beginning, and what the allocator was
asked for. -/
def parseWithLength : Option (Option CJsonItem × ParseBuffer) :=
  if content = [] then some (none, .start)
  else
    match ParseBuffer.start.calloc grants with
    | (none, b) => some (none, b)
    | (some newItem, b) =>
      (parseValue content grants number (3 * content.length + 3) (.new newItem)
          (bufferSkipWhitespace content (skipUtf8Bom content b))).map fun
      | (true, item, b) => (some item, b)
      | (false, item, b) => (none, b.free item.blocks)

end Values

end VulkanLoader
