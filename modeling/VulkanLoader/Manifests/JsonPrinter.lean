import VulkanLoader.Manifests.Json

/-!
# The printer of JSON on its buffer (`cJSON.c`)

The printer writes into a buffer that it makes larger where it has to.  A string is given room for the backslashes of its
escapes, which are not written, and its end is marked behind that room; what lies between is what was in the buffer.

The answers to the requests for memory are arguments, with what is in the memory that a buffer grows by.  A write behind
the end of the buffer *traps*.
-/

namespace VulkanLoader

/-- The end of a string. -/
def nul : Char := '\x00'

/-- `INT_MAX`. -/
def intMax : ℕ := 2147483647

/-- How something is printed: formatted or not, into a buffer that must not grow or with the answers to the requests for
memory and the contents of new memory, by request and place. -/
structure Printer where
  format : Bool
  noalloc : Bool
  grants : ℕ → Bool
  fresh : ℕ → ℕ → Char

/-- `printbuffer`, with the number of requests that were made. -/
structure PrintBuffer where
  buffer : List Char
  offset : ℕ
  depth : ℕ
  requests : ℕ

/-- How a function of the printer ends: with true, with false, where memory may have been refused, or with a write or a
search behind the end of the buffer. -/
inductive Printing where
  | done (p : PrintBuffer)
  | failed (outOfMemory : Bool)
  | traps

/-- What comes after a success. -/
def Printing.andThen : Printing → (PrintBuffer → Printing) → Printing
  | done p, f => f p
  | failed outOfMemory, _ => failed outOfMemory
  | traps, _ => traps

/-! ### The buffer -/

/-- The new size of a buffer of which so much is needed. -/
def newBufferSize (needed : ℕ) : Option ℕ :=
  if needed > intMax / 2 then if needed ≤ intMax then some intMax else none else some (needed * 2)

namespace PrintBuffer

/-- `loader_realloc`, where it is granted. -/
def grown (pr : Printer) (newsize : ℕ) (p : PrintBuffer) : PrintBuffer :=
  { p with
    buffer := p.buffer ++ (List.range (newsize - p.buffer.length)).map fun i => pr.fresh p.requests (p.buffer.length + i)
    requests := p.requests + 1 }

/-- `ensure`. -/
def ensure (pr : Printer) (needed : ℕ) (p : PrintBuffer) : Printing :=
  if p.buffer.length > 0 ∧ p.offset ≥ p.buffer.length then .failed false
  else if needed > intMax then .failed false
  else
    let needed := needed + (p.offset + 1)
    if needed ≤ p.buffer.length then .done p
    else if pr.noalloc then .failed false
    else
      match newBufferSize needed with
      | none => .failed false
      | some newsize => if pr.grants p.requests then .done (p.grown pr newsize) else .failed true

/-- Characters are written at a place. -/
def put (pos : ℕ) (cells : List Char) (p : PrintBuffer) : Printing :=
  if pos + cells.length ≤ p.buffer.length then
    .done { p with buffer := p.buffer.take pos ++ cells ++ p.buffer.drop (pos + cells.length) }
  else .traps

/-- `update_offset`. -/
def updateOffset (p : PrintBuffer) : Printing :=
  match (p.buffer.drop p.offset).findIdx? (· == nul) with
  | some length => .done { p with offset := p.offset + length }
  | none => .traps

/-- Room is made, characters are written at the offset, and the offset is moved. -/
def emit (pr : Printer) (needed : ℕ) (cells : List Char) (length : ℕ) (p : PrintBuffer) : Printing :=
  (p.ensure pr needed).andThen fun p =>
    (p.put p.offset cells).andThen fun p => .done { p with offset := p.offset + length }

/-- The depth of what is printed next. -/
def atDepth (depth : ℕ) (p : PrintBuffer) : PrintBuffer := { p with depth := depth }

/-! ### Values -/

/-- `snprintf`, into so many bytes. -/
def snprintf (size : ℕ) (text : List Char) : List Char := if size = 0 then [] else text.take (size - 1) ++ [nul]

/-- The loop of `print_string_ptr` that copies a string with escapes; `outputEnd` is the end of its room. -/
def copyEscaped (outputEnd : ℕ) : List Char → ℕ → PrintBuffer → Printing
  | [], _, p => .done p
  | c :: input, outputPointer, p =>
    if c.toNat > 31 ∧ c ≠ '"' ∧ c ≠ '\\' then
      (p.put outputPointer [c]).andThen (copyEscaped outputEnd input (outputPointer + 1))
    else if CJson.hasShortEscape c then
      -- the backslash before it is left out
      (p.put outputPointer [c]).andThen (copyEscaped outputEnd input (outputPointer + 1))
    else
      (p.put outputPointer (snprintf (outputEnd - outputPointer) (CJson.printChar c))).andThen
        (copyEscaped outputEnd input (outputPointer + 5))

/-- What `print_string_ptr` writes where there is room. -/
def writeString (input : String) (p : PrintBuffer) : Printing :=
  let outputEnd := p.offset + CJson.outputLength input
  (if CJson.outputLength input = input.length then p.put p.offset input.toList
    else copyEscaped outputEnd input.toList p.offset p).andThen (put outputEnd [nul])

/-- `print_string_ptr`, for a string. -/
def printStringPtr (pr : Printer) (input : String) (p : PrintBuffer) : Printing :=
  (p.ensure pr (CJson.outputLength input + 1)).andThen (writeString input)

/-- `print_number`, of a number that `snprintf` makes this text of. -/
def printNumber (pr : Printer) (text : String) (p : PrintBuffer) : Printing :=
  if text.length > 25 then .failed false else p.emit pr (text.length + 1) (text.toList ++ [nul]) text.length

/-- What comes between two items, or ends a member. -/
def separator (pr : Printer) (last : Bool) : List Char := if last then [] else ',' :: if pr.format then [' '] else []

/-- The tabs before a member or the end of an object. -/
def tabs (pr : Printer) (depth : ℕ) : List Char := if pr.format then List.replicate depth '\t' else []

mutual

/-- `print_value`. -/
def printValue (pr : Printer) : CJson → PrintBuffer → Printing
  | .null, p => p.emit pr 5 ("null".toList ++ [nul]) 0
  | .bool false, p => p.emit pr 6 ("false".toList ++ [nul]) 0
  | .bool true, p => p.emit pr 5 ("true".toList ++ [nul]) 0
  | .number _ text, p => p.printNumber pr text
  | .string valuestring, p => p.printStringPtr pr valuestring
  | .array items, p =>
    -- `print_array`
    (p.emit pr 1 ['['] 1).andThen fun p =>
      (printItems pr items (p.atDepth (p.depth + 1))).andThen fun p =>
        (p.emit pr 2 [']', nul] 0).andThen fun p => .done (p.atDepth (p.depth - 1))
  | .object members, p =>
    -- `print_object`
    let opening := '{' :: if pr.format then ['\n'] else []
    (p.emit pr (opening.length + 1) opening opening.length).andThen fun p =>
      (printMembers pr members (p.atDepth (p.depth + 1))).andThen fun p =>
        (p.emit pr (if pr.format then p.depth + 1 else 2) (tabs pr (p.depth - 1) ++ ['}', nul]) 0).andThen fun p =>
          .done (p.atDepth (p.depth - 1))

/-- The loop of `print_array`. -/
def printItems (pr : Printer) : List CJson → PrintBuffer → Printing
  | [], p => .done p
  | item :: items, p =>
    (printValue pr item p).andThen fun p => p.updateOffset.andThen fun p =>
      let next := separator pr items.isEmpty
      (if items.isEmpty then .done p else p.emit pr (next.length + 1) (next ++ [nul]) next.length).andThen
        (printItems pr items)

/-- The loop of `print_object`. -/
def printMembers (pr : Printer) : List (String × CJson) → PrintBuffer → Printing
  | [], p => .done p
  | member :: members, p =>
    (printMember pr member p).andThen fun p => p.updateOffset.andThen fun p =>
      let next := (if members.isEmpty then [] else [',']) ++ if pr.format then ['\n'] else []
      (p.emit pr (next.length + 1) (next ++ [nul]) next.length).andThen (printMembers pr members)

/-- A member in `print_object`. -/
def printMember (pr : Printer) : String × CJson → PrintBuffer → Printing
  | (key, value), p =>
    (if pr.format then p.emit pr p.depth (tabs pr p.depth) p.depth else .done p).andThen fun p =>
      (p.printStringPtr pr key).andThen fun p => p.updateOffset.andThen fun p =>
        let colon := ':' :: if pr.format then ['\t'] else []
        (p.emit pr colon.length colon colon.length).andThen (printValue pr value)

end

end PrintBuffer

/-! ### What is printed -/

/-- `print`: whether memory was refused, and the text; none where the printer traps. -/
def printJson (format : Bool) (grants : ℕ → Bool) (fresh : ℕ → ℕ → Char) (item : CJson) :
    Option (Bool × Option (List Char)) :=
  if grants 0 then
    match ((PrintBuffer.mk (List.replicate 256 nul) 0 0 1).printValue ⟨format, false, grants, fresh⟩ item).andThen
        PrintBuffer.updateOffset with
    | .done p =>
      if grants p.requests then some (false, some ((p.buffer.take (p.offset + 1)).takeWhile (· != nul)))
      else some (true, none)
    | .failed outOfMemory => some (outOfMemory, none)
    | .traps => none
  else some (true, none)

/-- `loader_cJSON_Print`. -/
def loaderCJsonPrint := printJson true

/-- `loader_cJSON_PrintPreallocated`: the buffer afterwards, where the text fits into it. -/
def loaderCJsonPrintPreallocated (item : CJson) (buffer : List Char) (format : Bool) : Option (Option (List Char)) :=
  match (PrintBuffer.mk buffer 0 0 0).printValue ⟨format, true, fun _ => false, fun _ _ => nul⟩ item with
  | .done p => some (some p.buffer)
  | .failed _ => some none
  | .traps => none

end VulkanLoader
