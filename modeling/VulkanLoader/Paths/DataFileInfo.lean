import VulkanLoader.Drivers.IcdScan
import VulkanLoader.Lib.Lists
import VulkanLoader.Settings.PathSearch

/-!
# Search paths cut into segments (`copy_data_file_info`)

The path of each segment is written to a buffer of its own, and then handed over to the list of paths, which takes it if
it has none like it.  The cursors have 32 bits; a list counts its strings without a bound here.

A loop may turn without end, and an access may be out of bounds: both leave a run without a result.
-/

namespace VulkanLoader

open VulkanLoader.Lib

/-- `memcpy` into a buffer. -/
def putChars (buffer : List Char) (i : ℕ) (chars : List Char) : Option (List Char) :=
  if i + chars.length ≤ buffer.length then some (buffer.take i ++ chars ++ buffer.drop (i + chars.length)) else none

/-- The characters `start`, …, `start + n - 1` of a string, the terminator being the last one. -/
def CString.readChars (base : CString) (start n : ℕ) : Option (List Char) :=
  if start + n ≤ base.len + 1 then some (((base.bytes ++ ['\x00']).drop start).take n) else none

/-- The buffer for the path of a segment of `s` characters. -/
def dataFileBuffer (curPath relativePath : CString) (start s : ℕ) : Option (List Char) := do
  -- space enough for base path, relative path, path separator, and null terminator
  let newStr := List.replicate (s + relativePath.len + 2) '\x00'
  let segment ← curPath.readChars start s
  let newStr ← putChars newStr 0 segment
  let newStr ← putChars newStr s ['\x00']
  if isJson (String.ofList (newStr.take s)) then some newStr
  else if 0 < relativePath.len then
    let last ← newStr[s - 1]?
    if last ≠ directorySymbol then
      let newStr ← putChars newStr s [directorySymbol]
      let newStr ← putChars newStr (s + 1) relativePath.bytes
      putChars newStr (s + 1 + relativePath.len) ['\x00']
    else
      let newStr ← putChars newStr s relativePath.bytes
      putChars newStr (s + relativePath.len) ['\x00']
  else some newStr

/-- The string in a buffer. -/
def bufferString (buffer : List Char) : String := String.ofList (buffer.takeWhile (· ≠ '\x00'))

/-- The first inner loop: `start` moves on to a character that is no separator. -/
def skipSeparators (curPath : CString) : ℕ → ℕ → Option ℕ
  | 0, _ => none
  | fuel + 1, start => do
    let c ← curPath.readByte start
    if c = pathSeparator ∧ c ≠ '\x00' then skipSeparators curPath fuel (nextIndex start) else some start

/-- The second one: `stop` moves on to a separator or to the terminator. -/
def findSegmentEnd (curPath : CString) : ℕ → ℕ → Option ℕ
  | 0, _ => none
  | fuel + 1, stop => do
    let c ← curPath.readByte stop
    if c ≠ pathSeparator ∧ c ≠ '\x00' then findSegmentEnd curPath fuel (nextIndex stop) else some stop

/-- The outer loop, with `inner` turns at most for each of the others; each turn has its requests. -/
def copySegments (curPath relativePath : CString) (inner : ℕ) :
    ℕ → (ℕ → InsertionRequests) → ℕ → StringList → Option (VkResult × StringList)
  | 0, _, _, _ => none
  | fuel + 1, requests, start, searchPaths => do
    let c ← curPath.readByte start
    if c ≠ '\x00' then
      let start ← skipSeparators curPath inner start
      let stop ← findSegmentEnd curPath inner start
      let s := segmentLen start stop
      if s ≠ 0 then
        if !(requests 0).copy then some (.errorOutOfHostMemory, searchPaths)
        else
          let newStr ← dataFileBuffer curPath relativePath start s
          let (res, searchPaths) ← appendStrIfUnique (requests 0).array searchPaths (bufferString newStr)
          if res ≠ .success then some (res, searchPaths)
          else copySegments curPath relativePath inner fuel (fun i => requests (i + 1)) stop searchPaths
      else copySegments curPath relativePath inner fuel (fun i => requests (i + 1)) start searchPaths
    else some (.success, searchPaths)

/-- `copy_data_file_info`, with `inner` and `outer` turns at most for its loops. -/
def copyDataFileInfo (inner outer : ℕ) (requests : ℕ → InsertionRequests) (curPath : Option CString)
    (relativePath : CString) (searchPaths : StringList) : Option (VkResult × StringList) :=
  match curPath with
  | none => some (.success, searchPaths)
  | some curPath => copySegments curPath relativePath inner outer requests 0 searchPaths

/-! ### The paths of the segments -/

/-- The path of a segment. -/
def dataFilePath (relativePath : CString) (segment : List Char) : List Char :=
  if isJson (String.ofList segment) ∨ relativePath.bytes = [] then segment
  else if segment.getLast? = some directorySymbol then segment ++ relativePath.bytes
  else segment ++ directorySymbol :: relativePath.bytes

/-- The paths of the segments, in order. -/
def dataFilePaths (curPath relativePath : CString) : List String :=
  (segments pathSeparator curPath.bytes).map fun segment => String.ofList (dataFilePath relativePath segment)

/-- Every request is granted. -/
def grantsAll : ℕ → InsertionRequests := fun _ => ⟨true, true⟩

/-- **The paths are split without loss**: the call ends with success, no access being out of bounds, and each path that
is not in the list yet has been added to its end. -/
def SplitsPaths (curPath relativePath : CString) (searchPaths : StringList) : Prop :=
  ∃ inner outer searchPaths', copyDataFileInfo inner outer grantsAll (some curPath) relativePath searchPaths =
      some (.success, searchPaths') ∧ searchPaths'.WellFormed ∧
    searchPaths'.strings = addMissing (dataFilePaths curPath relativePath) searchPaths.strings

/-! ### The buffer -/

section Buffer

variable {curPath relativePath : CString} {segment rest old new : List Char} {start s : ℕ}

theorem putChars_append (a b : List Char) (h : new.length = old.length) :
    putChars (a ++ (old ++ b)) a.length new = some (a ++ (new ++ b)) := by
  have hdrop : (a ++ (old ++ b)).drop (a.length + new.length) = b := by
    rw [← List.append_assoc, List.drop_left' (by rw [List.length_append, h])]
  unfold putChars
  rw [if_pos (by simp only [List.length_append]; omega), hdrop, List.take_left' rfl, List.append_assoc]

theorem readChars_of_drop (hdrop : curPath.bytes.drop start = segment ++ rest) (hne : segment ≠ []) :
    curPath.readChars start segment.length = some segment := by
  have hlength := congrArg List.length hdrop
  have hpos : 0 < segment.length := List.length_pos_iff.2 hne
  rw [List.length_drop, List.length_append] at hlength
  unfold CString.readChars CString.len
  rw [if_pos (by omega), List.drop_append_of_le_length (by omega), hdrop, List.append_assoc, List.take_left' rfl]

/-- The string in a buffer ends at the first NUL. -/
theorem bufferString_append {path : List Char} (hpath : '\x00' ∉ path) (rest : List Char) :
    bufferString (path ++ '\x00' :: rest) = String.ofList path := by
  unfold bufferString
  rw [List.takeWhile_append_of_pos fun c hc => by
    have hne : c ≠ '\x00' := fun h => hpath (h ▸ hc)
    simpa using hne]
  simp

/-- The relative directory is written behind the segment, and a terminator behind it. -/
theorem putChars_relative (a : List Char) (relativePath : CString) (n : ℕ) :
    (putChars (a ++ List.replicate (relativePath.len + (n + 1)) '\x00') a.length relativePath.bytes).bind
        (fun buffer => putChars buffer (a.length + relativePath.len) ['\x00']) =
      some (a ++ relativePath.bytes ++ '\x00' :: List.replicate n '\x00') := by
  have hsplit : List.replicate (relativePath.len + (n + 1)) '\x00' =
      List.replicate relativePath.len '\x00' ++ List.replicate (n + 1) '\x00' := List.replicate_add ..
  have hend : (a ++ relativePath.bytes).length = a.length + relativePath.len := List.length_append
  rw [hsplit, putChars_append a _ (by rw [List.length_replicate]; rfl), Option.bind_some, ← hend, ← List.append_assoc,
    List.replicate_succ]
  exact @putChars_append ['\x00'] ['\x00'] (a ++ relativePath.bytes) (List.replicate n '\x00') rfl

/-- **The buffer holds the path of the segment**, and no write was outside of it. -/
theorem dataFileBuffer_eq (relativePath : CString) (hdrop : curPath.bytes.drop start = segment ++ rest)
    (hne : segment ≠ []) :
    ∃ buffer, dataFileBuffer curPath relativePath start segment.length = some buffer ∧
      bufferString buffer = String.ofList (dataFilePath relativePath segment) := by
  have hnul : '\x00' ∉ segment := fun h =>
    curPath.noNul (List.mem_of_mem_drop (hdrop ▸ List.mem_append_left rest h))
  have hsegment : putChars (List.replicate (segment.length + relativePath.len + 2) '\x00') 0 segment =
      some (segment ++ List.replicate (relativePath.len + 2) '\x00') := by
    rw [Nat.add_assoc, List.replicate_add]
    exact putChars_append [] _ (by rw [List.length_replicate])
  have hterminator : putChars (segment ++ List.replicate (relativePath.len + 2) '\x00') segment.length ['\x00'] =
      some (segment ++ '\x00' :: List.replicate (relativePath.len + 1) '\x00') := by
    rw [List.replicate_succ]
    exact @putChars_append ['\x00'] ['\x00'] segment _ rfl
  have hlast : (segment ++ '\x00' :: List.replicate (relativePath.len + 1) '\x00')[segment.length - 1]? =
      some (segment.getLast hne) := by
    have hpos : 0 < segment.length := List.length_pos_iff.2 hne
    rw [List.getElem?_append_left (by omega), ← List.getLast?_eq_getElem?, List.getLast?_eq_some_getLast hne]
  have hwhole : segment ++ '\x00' :: List.replicate (relativePath.len + 1) '\x00' =
      segment ++ List.replicate (relativePath.len + (1 + 1)) '\x00' := rfl
  unfold dataFileBuffer
  simp only [readChars_of_drop hdrop hne, hsegment, hterminator, hlast, List.take_left' rfl, Option.bind_eq_bind,
    Option.bind_some]
  by_cases hjson : isJson (String.ofList segment)
  · -- a file of its own
    rw [if_pos hjson, dataFilePath, if_pos (.inl hjson)]
    exact ⟨_, rfl, bufferString_append hnul _⟩
  rw [if_neg hjson]
  by_cases hempty : relativePath.bytes = []
  · rw [if_neg (by simp [CString.len, hempty]), dataFilePath, if_pos (.inr hempty)]
    exact ⟨_, rfl, bufferString_append hnul _⟩
  have hpos : 0 < relativePath.len := List.length_pos_iff.2 hempty
  rw [if_pos hpos, dataFilePath, if_neg (not_or.2 ⟨hjson, hempty⟩), List.getLast?_eq_some_getLast hne]
  simp only [Option.some_inj]
  by_cases hsymbol : segment.getLast hne = directorySymbol
  · have hpath : '\x00' ∉ segment ++ relativePath.bytes := by
      rw [List.mem_append, not_or]
      exact ⟨hnul, relativePath.noNul⟩
    rw [if_neg (not_not_intro hsymbol), if_pos hsymbol, hwhole, putChars_relative]
    exact ⟨_, rfl, bufferString_append hpath _⟩
  · have hpath : '\x00' ∉ segment ++ [directorySymbol] ++ relativePath.bytes := by
      rw [List.mem_append, List.mem_append, not_or, not_or]
      exact ⟨⟨hnul, by decide⟩, relativePath.noNul⟩
    have hsymbolAdded : putChars (segment ++ '\x00' :: List.replicate (relativePath.len + 1) '\x00') segment.length
        [directorySymbol] =
          some (segment ++ [directorySymbol] ++ List.replicate (relativePath.len + (0 + 1)) '\x00') := by
      rw [List.append_assoc]
      exact @putChars_append ['\x00'] [directorySymbol] segment _ rfl
    have hend : (segment ++ [directorySymbol]).length = segment.length + 1 := List.length_append
    have hwrite := putChars_relative (segment ++ [directorySymbol]) relativePath 0
    rw [hend] at hwrite
    rw [if_pos hsymbol, if_neg hsymbol, hsymbolAdded, Option.bind_some, hwrite]
    exact ⟨_, rfl, (bufferString_append hpath _).trans (by rw [List.append_assoc]; rfl)⟩

end Buffer

/-! ### The loops -/

section Loops

variable {curPath relativePath : CString} {p : List Char} {start fuel inner outer : ℕ}
  {searchPaths searchPaths' : StringList} {requests : ℕ → InsertionRequests} {res : VkResult}

/-- The cursor stands before what is left of the string. -/
structure StandsAt (curPath : CString) (start : ℕ) (p : List Char) : Prop where
  drop : curPath.bytes.drop start = p
  length : start + p.length = curPath.len

theorem StandsAt.read_nil (h : StandsAt curPath start []) : curPath.readByte start = some '\x00' :=
  CString.readByte_eq_nul.2 h.length

theorem StandsAt.read_cons {c : Char} (h : StandsAt curPath start (c :: p)) :
    curPath.readByte start = some c ∧ c ≠ '\x00' := by
  have hlt : start < curPath.len := by
    have hlen := h.length
    rw [List.length_cons] at hlen
    omega
  have hget : curPath.readByte start = some c := by
    rw [CString.readByte_lt hlt, ← Nat.add_zero start, ← List.getElem?_drop, h.drop]
    rfl
  refine ⟨hget, ?_⟩
  rintro rfl
  exact absurd (CString.readByte_eq_nul.1 hget) hlt.ne

theorem StandsAt.tail {c : Char} (h : StandsAt curPath start (c :: p)) (hlen : curPath.len < 2 ^ 32) :
    StandsAt curPath (nextIndex start) p := by
  have hlength := h.length
  rw [List.length_cons] at hlength
  rw [nextIndex_eq (by omega)]
  refine ⟨?_, by omega⟩
  rw [← List.drop_drop, h.drop]
  rfl

theorem skipSeparators_spec (h : StandsAt curPath start p) (hlen : curPath.len < 2 ^ 32) (hfuel : p.length < fuel) :
    ∃ start', skipSeparators curPath fuel start = some start' ∧
      StandsAt curPath start' (p.dropWhile (· = pathSeparator)) := by
  induction p generalizing start fuel with
  | nil =>
    obtain ⟨fuel, rfl⟩ := Nat.exists_eq_succ_of_ne_zero (Nat.ne_of_gt hfuel)
    refine ⟨start, ?_, h⟩
    rw [skipSeparators, h.read_nil, Option.bind_eq_bind, Option.bind_some, if_neg fun hnul => hnul.2 rfl]
  | cons c p ih =>
    obtain ⟨fuel, rfl⟩ := Nat.exists_eq_succ_of_ne_zero (Nat.ne_of_gt (Nat.zero_lt_of_lt hfuel))
    obtain ⟨hread, hnul⟩ := h.read_cons
    rw [skipSeparators, hread, Option.bind_eq_bind, Option.bind_some]
    by_cases hsep : c = pathSeparator
    · rw [if_pos ⟨hsep, hnul⟩, List.dropWhile_cons_of_pos (by simpa using hsep)]
      exact ih (h.tail hlen) (Nat.lt_of_succ_lt_succ hfuel)
    · rw [if_neg fun h => hsep h.1, List.dropWhile_cons_of_neg (by simpa using hsep)]
      exact ⟨start, rfl, h⟩

theorem findSegmentEnd_spec (h : StandsAt curPath start p) (hlen : curPath.len < 2 ^ 32) (hfuel : p.length < fuel) :
    ∃ stop, findSegmentEnd curPath fuel start = some stop ∧
      stop = start + (p.takeWhile (· ≠ pathSeparator)).length ∧
      StandsAt curPath stop (p.dropWhile (· ≠ pathSeparator)) := by
  induction p generalizing start fuel with
  | nil =>
    obtain ⟨fuel, rfl⟩ := Nat.exists_eq_succ_of_ne_zero (Nat.ne_of_gt hfuel)
    refine ⟨start, ?_, rfl, h⟩
    rw [findSegmentEnd, h.read_nil, Option.bind_eq_bind, Option.bind_some, if_neg fun hnul => hnul.2 rfl]
  | cons c p ih =>
    obtain ⟨fuel, rfl⟩ := Nat.exists_eq_succ_of_ne_zero (Nat.ne_of_gt (Nat.zero_lt_of_lt hfuel))
    obtain ⟨hread, hnul⟩ := h.read_cons
    rw [findSegmentEnd, hread, Option.bind_eq_bind, Option.bind_some]
    by_cases hsep : c = pathSeparator
    · rw [if_neg fun h => h.1 hsep, List.dropWhile_cons_of_neg (by simpa using hsep),
        List.takeWhile_cons_of_neg (by simpa using hsep)]
      exact ⟨start, rfl, rfl, h⟩
    · rw [if_pos ⟨hsep, hnul⟩, List.dropWhile_cons_of_pos (by simpa using hsep),
        List.takeWhile_cons_of_pos (by simpa using hsep)]
      obtain ⟨stop, hrun, hstop, hstands⟩ := ih (h.tail hlen) (Nat.lt_of_succ_lt_succ hfuel)
      have hlength := h.length
      rw [List.length_cons] at hlength
      refine ⟨stop, hrun, ?_, hstands⟩
      rw [hstop, nextIndex_eq (by omega), List.length_cons]
      omega

/-- **A path is handed over** to a list that can grow: it is added if it is missing. -/
theorem appendStrIfUnique_granted (hl : searchPaths.WellFormed) (str : String) :
    ∃ searchPaths', appendStrIfUnique true searchPaths str = some (.success, searchPaths') ∧ searchPaths'.WellFormed ∧
      searchPaths'.strings = addMissing [str] searchPaths.strings := by
  unfold appendStrIfUnique
  by_cases hmem : str ∈ searchPaths.strings
  · rw [if_pos hmem, addMissing_cons_of_mem hmem]
    exact ⟨searchPaths, rfl, hl, rfl⟩
  · rw [if_neg hmem, addMissing_cons_of_not_mem hmem, StringList.appendStr_of_room hl fun _ => rfl]
    exact ⟨_, rfl, StringList.wellFormed_grown hl List.length_append, rfl⟩

theorem segments_dropWhile_eq (p : List Char) :
    segments pathSeparator (p.dropWhile (· = pathSeparator)) = segments pathSeparator p := by
  induction p with
  | nil => rfl
  | cons c p ih =>
    by_cases hc : c = pathSeparator
    · rw [List.dropWhile_cons_of_pos (by simpa using hc), ih, hc, segments_cons_self]
    · rw [List.dropWhile_cons_of_neg (by simpa using hc)]

/-- **The outer loop adds the paths of the segments that are left.** -/
theorem copySegments_spec (relativePath : CString) (h : StandsAt curPath start p) (hlen : curPath.len < 2 ^ 32)
    (hinner : curPath.len < inner) (hfuel : p.length + 1 < fuel) (hl : searchPaths.WellFormed) :
    ∃ searchPaths', copySegments curPath relativePath inner fuel grantsAll start searchPaths =
        some (.success, searchPaths') ∧ searchPaths'.WellFormed ∧
      searchPaths'.strings = addMissing ((segments pathSeparator p).map fun segment =>
        String.ofList (dataFilePath relativePath segment)) searchPaths.strings := by
  induction fuel generalizing start p searchPaths with
  | zero => exact absurd hfuel (Nat.not_lt_zero _)
  | succ fuel ih =>
    have hshift : (fun i => grantsAll (i + 1)) = grantsAll := rfl
    rcases p with _ | ⟨c, p⟩
    · refine ⟨searchPaths, ?_, hl, rfl⟩
      rw [copySegments, h.read_nil, Option.bind_eq_bind, Option.bind_some, if_neg (not_not_intro rfl)]
    obtain ⟨hread, hnul⟩ := h.read_cons
    have hlength := h.length
    obtain ⟨start₁, hskip, h₁⟩ := @skipSeparators_spec _ _ _ inner h hlen (by omega)
    have hle := List.length_dropWhile_le (· = pathSeparator) (c :: p)
    have hhead := List.head?_dropWhile_not (· = pathSeparator) (c :: p)
    rw [← segments_dropWhile_eq (c :: p)]
    generalize (c :: p).dropWhile (· = pathSeparator) = q at h₁ hle hhead
    have hlength₁ := h₁.length
    obtain ⟨stop, hend, hstop, h₂⟩ := @findSegmentEnd_spec _ _ _ inner h₁ hlen (by omega)
    have hlength₂ := h₂.length
    have hs : segmentLen start₁ stop = (q.takeWhile (· ≠ pathSeparator)).length := by
      rw [segmentLen_eq (by omega) (by omega), hstop, Nat.add_sub_cancel_left]
    rw [copySegments, hread, Option.bind_eq_bind, Option.bind_some, if_pos hnul, hskip, Option.bind_eq_bind,
      Option.bind_some, hend, Option.bind_eq_bind, Option.bind_some, hshift, hs]
    dsimp only
    rw [List.length_cons] at hfuel hle
    rcases q with _ | ⟨d, q⟩
    · -- only separators were left
      rw [List.takeWhile_nil, if_neg (not_not_intro List.length_nil)]
      exact ih h₁ (by rw [List.length_nil]; omega) hl
    have hd : d ≠ pathSeparator := by simpa using hhead
    have hsplit := List.takeWhile_append_dropWhile (p := (· ≠ pathSeparator)) (l := d :: q)
    have htake : (d :: q).takeWhile (· ≠ pathSeparator) = d :: q.takeWhile (· ≠ pathSeparator) :=
      List.takeWhile_cons_of_pos (by simpa using hd)
    have hdrop : (d :: q).dropWhile (· ≠ pathSeparator) = q.dropWhile (· ≠ pathSeparator) :=
      List.dropWhile_cons_of_pos (by simpa using hd)
    have hrest := List.length_dropWhile_le (· ≠ pathSeparator) q
    rw [htake, hdrop] at hsplit
    rw [hdrop] at h₂
    obtain ⟨buffer, hbuffer, hstring⟩ :=
      dataFileBuffer_eq relativePath (h₁.drop.trans hsplit.symm) (List.cons_ne_nil _ _)
    obtain ⟨searchPaths₁, happend, hl₁, hstrings₁⟩ := appendStrIfUnique_granted hl (bufferString buffer)
    obtain ⟨searchPaths', hrun, hl', hstrings'⟩ := ih h₂ (by rw [List.length_cons] at hle; omega) hl₁
    refine ⟨searchPaths', ?_, hl', ?_⟩
    · rw [htake, if_pos (List.length_pos_iff.2 (List.cons_ne_nil _ _)).ne', if_neg (by decide), hbuffer,
        Option.bind_eq_bind, Option.bind_some]
      change (appendStrIfUnique true searchPaths (bufferString buffer)).bind _ = _
      rw [happend, Option.bind_some, ← hrun]
      exact if_neg (not_not_intro rfl)
    · rw [hstrings', hstrings₁, hstring, segments_cons hd, List.map_cons]
      exact (@addMissing_append _ _ [_] _ _).symm

/-! The cursors do not get beyond 32 bits. -/

theorem skipSeparators_lt {start' : ℕ} (h : skipSeparators curPath fuel start = some start') (hlt : start < 2 ^ 32) :
    start' < 2 ^ 32 := by
  induction fuel generalizing start with
  | zero => cases h
  | succ fuel ih =>
    obtain ⟨c, -, h⟩ := Option.bind_eq_some_iff.1 h
    split_ifs at h
    · exact ih h (nextIndex_lt start)
    · exact Option.some.inj h ▸ hlt

theorem findSegmentEnd_lt {stop : ℕ} (h : findSegmentEnd curPath fuel start = some stop) (hlt : start < 2 ^ 32) :
    stop < 2 ^ 32 := by
  induction fuel generalizing start with
  | zero => cases h
  | succ fuel ih =>
    obtain ⟨c, -, h⟩ := Option.bind_eq_some_iff.1 h
    split_ifs at h
    · exact ih h (nextIndex_lt start)
    · exact Option.some.inj h ▸ hlt

/-- **A string whose terminator is out of reach** is never done with. -/
theorem copySegments_of_long (relativePath : CString) (hlen : 2 ^ 32 ≤ curPath.len) (hstart : start < 2 ^ 32)
    (hl : searchPaths.WellFormed) :
    copySegments curPath relativePath inner fuel grantsAll start searchPaths = none := by
  induction fuel generalizing start searchPaths with
  | zero => rfl
  | succ fuel ih =>
    rw [Option.eq_none_iff_forall_ne_some]
    intro r h
    obtain ⟨c, hread, h⟩ := Option.bind_eq_some_iff.1 h
    have hnul : c ≠ '\x00' := by
      rintro rfl
      have hend := CString.readByte_eq_nul.1 hread
      omega
    rw [if_pos hnul] at h
    obtain ⟨start₁, hskip, h⟩ := Option.bind_eq_some_iff.1 h
    obtain ⟨stop, hend, h⟩ := Option.bind_eq_some_iff.1 h
    have hstart₁ := skipSeparators_lt hskip hstart
    by_cases hs : segmentLen start₁ stop ≠ 0
    · rw [if_pos hs, if_neg (by decide)] at h
      obtain ⟨buffer, -, h⟩ := Option.bind_eq_some_iff.1 h
      obtain ⟨searchPaths₁, happend, hl₁, -⟩ := appendStrIfUnique_granted hl (bufferString buffer)
      change (appendStrIfUnique true searchPaths (bufferString buffer)).bind _ = _ at h
      rw [happend, Option.bind_some] at h
      have hrest := ih (findSegmentEnd_lt hend hstart₁) hl₁
      exact Option.some_ne_none r (h.symm.trans ((if_neg (not_not_intro rfl)).trans hrest))
    · rw [if_neg hs] at h
      exact Option.some_ne_none r (h.symm.trans (ih hstart₁ hl))

/-- A string whose terminator is out of reach is not split. -/
theorem not_splitsPaths_of_long (relativePath : CString) (hlen : 2 ^ 32 ≤ curPath.len) (hl : searchPaths.WellFormed) :
    ¬ SplitsPaths curPath relativePath searchPaths := by
  rintro ⟨inner, outer, searchPaths', hrun, -⟩
  have hnone := @copySegments_of_long _ 0 outer inner _ relativePath hlen (Nat.two_pow_pos 32) hl
  rw [copyDataFileInfo, hnone] at hrun
  cases hrun

end Loops

/-- **`copy_data_file_info` splits the paths without loss** exactly if its cursors can reach the end of the string. -/
theorem splitsPaths_iff (curPath relativePath : CString) (searchPaths : StringList) (hl : searchPaths.WellFormed) :
    SplitsPaths curPath relativePath searchPaths ↔ curPath.len < 2 ^ 32 := by
  constructor
  · intro hsplits
    by_contra hlong
    exact not_splitsPaths_of_long relativePath (not_lt.1 hlong) hl hsplits
  · intro hlen
    obtain ⟨searchPaths', hrun, hl', hstrings⟩ :=
      @copySegments_spec curPath curPath.bytes 0 (curPath.len + 2) (curPath.len + 1) searchPaths relativePath
        ⟨rfl, Nat.zero_add _⟩ hlen (Nat.lt_succ_self _) (Nat.lt_succ_self _) hl
    exact ⟨curPath.len + 1, curPath.len + 2, searchPaths', hrun, hl', hstrings⟩

/-- Three directories, one of them twice, and a file. -/
theorem splitsPaths_iff_directories :
    let curPath : CString := ⟨"/etc:/usr/share/:/etc::/opt/a.json:".toList, by decide⟩
    SplitsPaths curPath ⟨"vulkan/icd.d".toList, by decide⟩ .zero ↔ curPath.len < 2 ^ 32 :=
  splitsPaths_iff ⟨"/etc:/usr/share/:/etc::/opt/a.json:".toList, by decide⟩ ⟨"vulkan/icd.d".toList, by decide⟩ .zero
    StringList.wellFormed_zero

/-- The terminator of a string of `2 ^ 32` characters is never read. -/
theorem not_splitsPaths :
    ∃ curPath : CString, curPath.bytes = List.replicate (2 ^ 32) 'a' ∧
      ¬ SplitsPaths curPath ⟨[], List.not_mem_nil⟩ .zero := by
  refine ⟨⟨List.replicate (2 ^ 32) 'a', fun h => absurd (List.eq_of_mem_replicate h) (by decide)⟩, rfl, ?_⟩
  exact not_splitsPaths_of_long _ List.length_replicate.ge StringList.wellFormed_zero

end VulkanLoader
