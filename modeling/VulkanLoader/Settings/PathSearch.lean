import VulkanLoader.Base
import VulkanLoader.Lib.Segments
import Mathlib.Tactic.Common

/-!
# The search for the settings file (`check_if_settings_path_exists`)

The value of a search-path variable is cut at its separators by two cursors of 32 bits.  The first segment is found with
both at the beginning of the value; afterwards `start` stands on the separator that ended the segment before, so every
later piece begins with its separator.

A loop may turn without end, as the cursors wrap around, and a byte beyond the terminating NUL cannot be read: both
leave a run without a result.
-/

namespace VulkanLoader

open VulkanLoader.Lib

/-- A string of C, without its terminating NUL. -/
structure CString where
  bytes : List Char
  noNul : '\x00' ∉ bytes

/-- `PATH_SEPARATOR`. -/
def pathSeparator : Char := ':'

/-- What one more makes of a `uint32_t`. -/
def nextIndex (i : ℕ) : ℕ := (i + 1) % 2 ^ 32

theorem nextIndex_lt (i : ℕ) : nextIndex i < 2 ^ 32 := Nat.mod_lt _ (by decide)

theorem nextIndex_le (i : ℕ) : nextIndex i ≤ i + 1 := Nat.mod_le _ _

theorem nextIndex_eq {i : ℕ} (h : i + 1 < 2 ^ 32) : nextIndex i = i + 1 := Nat.mod_eq_of_lt h

/-- The `uint32_t` difference of two cursors. -/
def segmentLen (start stop : ℕ) : ℕ := (stop + 2 ^ 32 - start) % 2 ^ 32

theorem segmentLen_eq {start stop : ℕ} (hle : start ≤ stop) (hlt : stop < 2 ^ 32) :
    segmentLen start stop = stop - start := by
  have hadd : stop + 2 ^ 32 - start = stop - start + 2 ^ 32 := by omega
  rw [segmentLen, hadd, Nat.add_mod_right, Nat.mod_eq_of_lt (by omega)]

namespace CString

variable (base : CString)

/-- `strlen`. -/
def len : ℕ := base.bytes.length

/-- The byte at an index, if it is one of the string or its terminating NUL. -/
def readByte (i : ℕ) : Option Char := (base.bytes ++ ['\x00'])[i]?

variable {base} {i : ℕ} {c : Char}

theorem readByte_lt (h : i < base.len) : base.readByte i = base.bytes[i]? := List.getElem?_append_left h

theorem readByte_len : base.readByte base.len = some '\x00' := by simp [readByte, len]

theorem le_of_readByte (h : base.readByte i = some c) : i ≤ base.len := by
  have hlt := (List.getElem?_eq_some_iff.1 h).1
  simp only [List.length_append, List.length_singleton] at hlt
  exact Nat.le_of_lt_succ hlt

/-- Only the terminator is a NUL. -/
theorem readByte_eq_nul : base.readByte i = some '\x00' ↔ i = base.len := by
  constructor
  · intro h
    by_contra hne
    have hlt : i < base.len := lt_of_le_of_ne (le_of_readByte h) hne
    rw [readByte_lt hlt] at h
    exact base.noNul (List.mem_of_getElem? h)
  · rintro rfl
    exact readByte_len

theorem exists_readByte (h : i ≤ base.len) : ∃ c, base.readByte i = some c := by
  have hlt : i < (base.bytes ++ ['\x00']).length := by
    simp only [List.length_append, List.length_singleton]
    exact Nat.lt_succ_of_le h
  exact ⟨_, List.getElem?_eq_getElem hlt⟩

end CString

/-! ### The loop -/

section Loop

variable (base : CString)

/-- The inner loop: `stop` moves on to a separator or to the end of the value. -/
def segmentStop : ℕ → ℕ → Option ℕ
  | 0, _ => none
  | fuel + 1, stop => do
    let c ← base.readByte stop
    if c ≠ pathSeparator ∧ c ≠ '\x00' ∧ stop < base.len then segmentStop fuel (nextIndex stop) else some stop

/-- What a call leaves: its result, the path it hands over, and the paths it asked the file system for. -/
structure PathSearch where
  result : VkResult
  settingsFilePath : Option (List Char)
  tested : List (List Char)
  deriving DecidableEq

/-- The path of the segment between the cursors. -/
def segmentPath (suffix : CString) (start stop : ℕ) : List Char :=
  (base.bytes.drop start).take (segmentLen start stop) ++ suffix.bytes

/-- The rest of a turn: a segment is skipped, or its path asked for, and the call may return.  Each path that was asked
for before has had its memory. -/
def testSegment (suffix : CString) (fileExists : List Char → Bool) (granted : ℕ → Bool) (start stop : ℕ)
    (tested : List (List Char)) : PathSearch ⊕ List (List Char) :=
  -- A segment of one character is taken for a separator.
  if segmentLen start stop ≤ 1 then .inr tested
  else if granted tested.length then
    let path := segmentPath base suffix start stop
    if fileExists path then .inl ⟨.success, some path, tested ++ [path]⟩ else .inr (tested ++ [path])
  else .inl ⟨.errorOutOfHostMemory, none, tested⟩

/-- The outer loop, with `inner` turns at most for the inner one. -/
def searchFrom (suffix : CString) (fileExists : List Char → Bool) (granted : ℕ → Bool) (inner : ℕ) :
    ℕ → ℕ → ℕ → List (List Char) → Option PathSearch
  | 0, _, _, _ => none
  | fuel + 1, start, stop, tested => do
    let c ← base.readByte start
    if c ≠ '\x00' ∧ start < base.len ∧ stop < base.len then
      -- `start = stop; stop = start + 1;`
      let next ← segmentStop base inner (nextIndex stop)
      (testSegment base suffix fileExists granted stop next tested).elim some fun tested =>
        searchFrom suffix fileExists granted inner fuel stop next tested
    else some ⟨.errorInitializationFailed, none, tested⟩

end Loop

/-- `check_if_settings_path_exists`, with `inner` and `outer` turns at most for its loops. -/
def checkIfSettingsPathExists (inner outer : ℕ) (base suffix : Option CString) (fileExists : List Char → Bool)
    (granted : ℕ → Bool) : Option PathSearch :=
  match base, suffix with
  | some base, some suffix => searchFrom base suffix fileExists granted inner outer 0 0 []
  | _, _ => some ⟨.errorInitializationFailed, none, []⟩

/-! ### The search by segments -/

section Spec

variable (fileExists : List Char → Bool)

/-- The paths up to the first that exists. -/
def testedUntil : List (List Char) → List (List Char)
  | [] => []
  | path :: paths => if fileExists path then [path] else path :: testedUntil paths

/-- The paths that the non-empty segments of a value name. -/
def segmentPaths (base suffix : CString) : List (List Char) :=
  (segments pathSeparator base.bytes).map (· ++ suffix.bytes)

/-- What a search through the segments leaves. -/
def searchSegments (base suffix : CString) : PathSearch where
  result :=
    if (segmentPaths base suffix).any fileExists then .success else .errorInitializationFailed
  settingsFilePath := (segmentPaths base suffix).find? fileExists
  tested := testedUntil fileExists (segmentPaths base suffix)

/-- The call ends, having read nothing beyond the value, as a search through the segments does. -/
def SearchesSegments (base suffix : CString) (granted : ℕ → Bool) : Prop :=
  ∃ inner outer, checkIfSettingsPathExists inner outer (some base) (some suffix) fileExists granted =
    some (searchSegments fileExists base suffix)

/-- The first segment of a value, which may be empty. -/
def firstSegment (base : CString) : List Char := base.bytes.takeWhile (· ≠ pathSeparator)

/-- The first segment decides the search: there is none at all, or it has two characters, it is found, or it is the
only one. -/
def FirstSegmentDecides (base suffix : CString) (granted : ℕ → Bool) : Prop :=
  (segments pathSeparator base.bytes = [] ∧ base.len < 2 ^ 32) ∨
  (2 ≤ (firstSegment base).length ∧ (firstSegment base).length < 2 ^ 32 ∧ granted 0 ∧
    (fileExists (firstSegment base ++ suffix.bytes) ∨
      (segments pathSeparator base.bytes = [firstSegment base] ∧ base.len < 2 ^ 32)))

end Spec

/-! ### Where the cursors stand -/

section Cursors

variable {base : CString} {inner fuel i j e : ℕ}

/-- The index of a separator or of the end of the value. -/
def Stops (base : CString) (i : ℕ) : Prop := base.bytes[i]? = some pathSeparator ∨ i = base.len

theorem Stops.le (h : Stops base i) : i ≤ base.len := by
  rcases h with hsep | rfl
  · exact (List.getElem?_eq_some_iff.1 hsep).1.le
  · exact le_rfl

theorem segmentStop_of_stops (h : Stops base i) : segmentStop base (fuel + 1) i = some i := by
  rcases h with hsep | rfl
  · have hlt : i < base.len := (List.getElem?_eq_some_iff.1 hsep).1
    simp [segmentStop, CString.readByte_lt hlt, hsep]
  · simp [segmentStop, CString.readByte_len]

theorem segmentStop_of_not_stops (hle : i ≤ base.len) (h : ¬ Stops base i) :
    segmentStop base (fuel + 1) i = segmentStop base fuel (nextIndex i) := by
  rw [Stops, not_or] at h
  have hlt : i < base.len := lt_of_le_of_ne hle h.2
  obtain ⟨c, hc⟩ := CString.exists_readByte hle
  have hsep : c ≠ pathSeparator := by
    rintro rfl
    exact h.1 (CString.readByte_lt hlt ▸ hc)
  have hnul : c ≠ '\x00' := by
    rintro rfl
    exact h.2 (CString.readByte_eq_nul.1 hc)
  simp [segmentStop, hc, hsep, hnul, hlt]

/-- The inner loop ends at the first place to stop, if the cursor has not wrapped around before it. -/
theorem segmentStop_eq_some (h : segmentStop base fuel i = some j) :
    Stops base j ∧ ∀ e, Stops base e → i ≤ e → i < 2 ^ 32 → j ≤ e ∧ j < 2 ^ 32 := by
  induction fuel generalizing i with
  | zero => simp [segmentStop] at h
  | succ fuel ih =>
    by_cases hi : Stops base i
    · rw [segmentStop_of_stops hi, Option.some.injEq] at h
      subst h
      exact ⟨hi, fun e _ hie hlt => ⟨hie, hlt⟩⟩
    · have hle : i ≤ base.len := by
        obtain ⟨c, hc, -⟩ := Option.bind_eq_some_iff.1 h
        exact CString.le_of_readByte hc
      rw [segmentStop_of_not_stops hle hi] at h
      obtain ⟨hj, hleast⟩ := ih h
      refine ⟨hj, fun e he hie _ => hleast e he ?_ (nextIndex_lt i)⟩
      have hne : i ≠ e := by
        rintro rfl
        exact hi he
      exact (nextIndex_le i).trans (Nat.succ_le_of_lt (lt_of_le_of_ne hie hne))

/-- With turns enough, the inner loop reaches a place to stop that the cursor can stand on. -/
theorem segmentStop_of_least (hj : Stops base j) (hlt : j < 2 ^ 32) (hij : i ≤ j)
    (hleast : ∀ k, i ≤ k → k < j → ¬ Stops base k) (hfuel : j - i < fuel) : segmentStop base fuel i = some j := by
  induction fuel generalizing i with
  | zero => omega
  | succ fuel ih =>
    rcases hij.eq_or_lt with rfl | hij
    · exact segmentStop_of_stops hj
    · rw [segmentStop_of_not_stops (hij.le.trans hj.le) (hleast i le_rfl hij), nextIndex_eq (by omega)]
      exact ih (by omega) (fun k hik hkj => hleast k (by omega) hkj) (by omega)

/-- The first segment ends at a place to stop. -/
theorem stops_firstSegment : Stops base (firstSegment base).length := by
  have hsplit : firstSegment base ++ base.bytes.dropWhile (· ≠ pathSeparator) = base.bytes :=
    List.takeWhile_append_dropWhile
  unfold Stops CString.len
  rw [← hsplit]
  rcases dropWhile_ne_eq pathSeparator base.bytes with hrest | ⟨rest, hrest⟩
  · exact .inr (by rw [hrest, List.append_nil])
  · exact .inl (by rw [hrest, List.getElem?_append_right le_rfl]; simp)

theorem not_stops_of_lt_firstSegment (h : i < (firstSegment base).length) : ¬ Stops base i := by
  have hbegins : firstSegment base <+: base.bytes := List.takeWhile_prefix _
  rintro (hsep | rfl)
  · obtain ⟨hlt, hsep⟩ := List.getElem?_eq_some_iff.1 hsep
    rw [← hbegins.getElem h] at hsep
    exact not_mem_takeWhile_ne base.bytes (hsep ▸ List.getElem_mem h)
  · exact absurd hbegins.length_le (not_le_of_gt h)

end Cursors

/-! ### The turns of the outer loop -/

section Turns

variable {base suffix : CString} {fileExists : List Char → Bool} {granted : ℕ → Bool} {inner fuel start stop stop' : ℕ}
  {tested : List (List Char)} {r : PathSearch}

/-- The value is at its end. -/
theorem searchFrom_of_end (hstart : start ≤ base.len) (hend : base.len ≤ max start stop) :
    searchFrom base suffix fileExists granted inner (fuel + 1) start stop tested =
      some ⟨.errorInitializationFailed, none, tested⟩ := by
  obtain ⟨c, hc⟩ := CString.exists_readByte hstart
  have hmore : ¬ (c ≠ '\x00' ∧ start < base.len ∧ stop < base.len) := by omega
  simp only [searchFrom, hc, Option.bind_eq_bind, Option.bind_some, if_neg hmore]

/-- A segment is cut out. -/
theorem searchFrom_of_segment (hstart : start < base.len) (hstop : stop < base.len)
    (hseg : segmentStop base inner (nextIndex stop) = some stop') :
    searchFrom base suffix fileExists granted inner (fuel + 1) start stop tested =
      (testSegment base suffix fileExists granted stop stop' tested).elim some fun tested =>
        searchFrom base suffix fileExists granted inner fuel stop stop' tested := by
  obtain ⟨c, hc⟩ := CString.exists_readByte hstart.le
  have hnul : c ≠ '\x00' := by
    rintro rfl
    exact hstart.ne (CString.readByte_eq_nul.1 hc)
  have hmore : c ≠ '\x00' ∧ start < base.len ∧ stop < base.len := ⟨hnul, hstart, hstop⟩
  rw [searchFrom, hc, Option.bind_eq_bind, Option.bind_some, if_pos hmore, hseg, Option.bind_eq_bind,
    Option.bind_some]

/-- A turn that is not the last one has found where its segment stops. -/
theorem exists_segmentStop
    (h : searchFrom base suffix fileExists granted inner (fuel + 1) start stop tested = some r)
    (hmore : max start stop < base.len) : ∃ stop', segmentStop base inner (nextIndex stop) = some stop' := by
  obtain ⟨c, hc, h⟩ := Option.bind_eq_some_iff.1 h
  split at h
  case isFalse hend =>
    obtain ⟨hstart, hstop⟩ : start < base.len ∧ stop < base.len := by omega
    refine absurd ⟨?_, hstart, hstop⟩ hend
    rintro rfl
    exact hstart.ne (CString.readByte_eq_nul.1 hc)
  case isTrue =>
    obtain ⟨stop', hstop', -⟩ := Option.bind_eq_some_iff.1 h
    exact ⟨stop', hstop'⟩

theorem segmentPath_head? (suffix : CString) (hsep : base.bytes[start]? = some pathSeparator)
    (hlen : 1 < segmentLen start stop) :
    (segmentPath base suffix start stop).head? = some pathSeparator := by
  have hdrop : (base.bytes.drop start).head? = some pathSeparator := by rw [List.head?_drop, hsep]
  obtain ⟨rest, hrest⟩ := List.head?_eq_some_iff.1 hdrop
  obtain ⟨n, hn⟩ := Nat.exists_eq_add_of_lt hlen
  unfold segmentPath
  rw [hrest, hn]
  simp

/-- A segment that begins with a separator adds only paths that do. -/
theorem testSegment_separators (suffix : CString) (fileExists : List Char → Bool) (granted : ℕ → Bool) (stop : ℕ)
    (tested : List (List Char)) (hsep : base.bytes[start]? = some pathSeparator) :
    (∃ search, testSegment base suffix fileExists granted start stop tested = .inl search ∧
      search.result ≠ .errorInitializationFailed ∧
      ∃ later, search.tested = tested ++ later ∧ ∀ path ∈ later, path.head? = some pathSeparator) ∨
    ∃ later, testSegment base suffix fileExists granted start stop tested = .inr (tested ++ later) ∧
      ∀ path ∈ later, path.head? = some pathSeparator := by
  unfold testSegment
  by_cases hshort : segmentLen start stop ≤ 1
  · rw [if_pos hshort]
    exact .inr ⟨[], by simp, by simp⟩
  rw [if_neg hshort]
  have hhead := segmentPath_head? suffix hsep (not_le.1 hshort)
  by_cases hgranted : granted tested.length
  · rw [if_pos hgranted]
    by_cases hfile : fileExists (segmentPath base suffix start stop)
    · simp only [if_pos hfile]
      exact .inl ⟨_, rfl, by simp, _, rfl, List.forall_mem_singleton.2 hhead⟩
    · simp only [if_neg hfile]
      exact .inr ⟨_, rfl, List.forall_mem_singleton.2 hhead⟩
  · rw [if_neg hgranted]
    exact .inl ⟨_, rfl, by simp, [], by simp, by simp⟩

/-- From a place to stop on, every path asked for begins with a separator; and a search that finds nothing has come to
the end of the value. -/
theorem searchFrom_separators
    (h : searchFrom base suffix fileExists granted inner fuel start stop tested = some r)
    (hstart : start < 2 ^ 32) (hstop : stop < 2 ^ 32) (hsep : Stops base stop) :
    (∃ later, r.tested = tested ++ later ∧ ∀ path ∈ later, path.head? = some pathSeparator) ∧
      (r.result = .errorInitializationFailed → base.len < 2 ^ 32) := by
  induction fuel generalizing start stop tested with
  | zero => simp [searchFrom] at h
  | succ fuel ih =>
    have hle : start ≤ base.len := by
      obtain ⟨c, hc, -⟩ := Option.bind_eq_some_iff.1 h
      exact CString.le_of_readByte hc
    rcases le_or_gt base.len (max start stop) with hend | hmore
    · rw [searchFrom_of_end hle hend, Option.some.injEq] at h
      subst h
      exact ⟨⟨[], by simp, by simp⟩, fun _ => by omega⟩
    obtain ⟨stop', hseg⟩ := exists_segmentStop h hmore
    obtain ⟨hsep', hleast⟩ := segmentStop_eq_some hseg
    have hlt : stop' < 2 ^ 32 :=
      (hleast base.len (.inr rfl) ((nextIndex_le stop).trans (by omega)) (nextIndex_lt stop)).2
    have hchar : base.bytes[stop]? = some pathSeparator := hsep.resolve_right (by omega)
    rw [searchFrom_of_segment (by omega) (by omega) hseg] at h
    rcases testSegment_separators suffix fileExists granted stop' tested hchar with
      ⟨search, htest, hresult, hlater⟩ | ⟨later₁, htest, hheads₁⟩
    · rw [htest, Sum.elim_inl, Option.some.injEq] at h
      subst h
      exact ⟨hlater, fun hfailed => absurd hfailed hresult⟩
    · rw [htest, Sum.elim_inr] at h
      obtain ⟨⟨later₂, hlater, hheads₂⟩, hresult⟩ := ih h hstop hlt hsep'
      refine ⟨⟨later₁ ++ later₂, by rw [hlater, List.append_assoc], fun path hpath => ?_⟩, hresult⟩
      exact (List.mem_append.1 hpath).elim (hheads₁ path) (hheads₂ path)

/-- Separators are skipped, up to the end of the value. -/
theorem searchFrom_skips (hseps : ∀ k, stop ≤ k → k < base.len → Stops base k) (hstart : start ≤ stop)
    (hstop : stop ≤ base.len) (hlen : base.len < 2 ^ 32) (hfuel : base.len - stop < fuel) :
    searchFrom base suffix fileExists granted (inner + 1) fuel start stop tested =
      some ⟨.errorInitializationFailed, none, tested⟩ := by
  induction fuel generalizing start stop with
  | zero => omega
  | succ fuel ih =>
    rcases hstop.eq_or_lt with rfl | hlt
    · exact searchFrom_of_end hstart (le_max_right _ _)
    have hnext : nextIndex stop = stop + 1 := nextIndex_eq (by omega)
    have hseg : segmentStop base (inner + 1) (nextIndex stop) = some (stop + 1) := by
      rw [hnext]
      refine segmentStop_of_stops ?_
      rcases Nat.lt_or_ge (stop + 1) base.len with hmore | hend
      · exact hseps _ (Nat.le_succ stop) hmore
      · exact .inr (by omega)
    have hshort : segmentLen stop (stop + 1) ≤ 1 := by
      rw [segmentLen_eq (Nat.le_succ stop) (by omega)]
      omega
    rw [searchFrom_of_segment (by omega) hlt hseg, testSegment, if_pos hshort, Sum.elim_inr]
    exact ih (fun k hk => hseps k (by omega)) (by omega) (by omega) (by omega)

end Turns

/-! ### When the search is one by segments -/

section Agreement

variable {base suffix : CString} {fileExists : List Char → Bool} {granted : ℕ → Bool} {paths : List (List Char)}

theorem testedUntil_cons (path : List Char) :
    testedUntil fileExists (path :: paths) =
      path :: if fileExists path then [] else testedUntil fileExists paths := by
  by_cases h : fileExists path <;> simp [testedUntil, h]

/-- The path of a segment does not begin with a separator. -/
theorem head?_ne_of_mem_segmentPaths {l path : List Char}
    (h : path ∈ (segments pathSeparator l).map (· ++ suffix.bytes)) : path.head? ≠ some pathSeparator := by
  obtain ⟨s, hs, rfl⟩ := List.mem_map.1 h
  obtain ⟨c, cs, rfl⟩ := List.exists_cons_of_ne_nil (ne_nil_of_mem_segments hs)
  have hsep := not_mem_of_mem_segments hs
  intro hc
  simp only [List.cons_append, List.head?_cons, Option.some.injEq] at hc
  exact hsep (hc ▸ List.mem_cons_self)

/-- A search among segments that asks for paths of separators only has no segment. -/
theorem segments_eq_nil_of_heads {l : List Char}
    (h : ∀ path ∈ testedUntil fileExists ((segments pathSeparator l).map (· ++ suffix.bytes)),
      path.head? = some pathSeparator) : segments pathSeparator l = [] := by
  rcases hs : segments pathSeparator l with _ | ⟨s, ss⟩
  · rfl
  · rw [hs, List.map_cons, testedUntil_cons] at h
    have hmem : s ++ suffix.bytes ∈ (segments pathSeparator l).map (· ++ suffix.bytes) := by
      rw [hs]
      exact List.mem_cons_self
    exact absurd (h _ List.mem_cons_self) (head?_ne_of_mem_segmentPaths hmem)

/-! The first turn, of a value that does not begin with a separator. -/

theorem firstSegment_pos (h : ¬ Stops base 0) : 1 ≤ (firstSegment base).length := by
  rw [Nat.one_le_iff_ne_zero]
  intro hzero
  exact h (hzero ▸ stops_firstSegment)

theorem segments_eq_firstSegment (h : ¬ Stops base 0) :
    segments pathSeparator base.bytes =
      firstSegment base :: segments pathSeparator (base.bytes.dropWhile (· ≠ pathSeparator)) := by
  rcases hb : base.bytes with _ | ⟨c, l⟩
  · exact absurd (.inr (by simp [CString.len, hb])) h
  · have hc : c ≠ pathSeparator := by
      rintro rfl
      exact h (.inl (by simp [hb]))
    rw [segments_cons hc, firstSegment, hb, List.takeWhile_cons_of_pos (by simpa using hc),
      List.dropWhile_cons_of_pos (by simpa using hc)]

theorem segmentStop_firstSegment {inner stop : ℕ} (hstop : segmentStop base inner (nextIndex 0) = some stop)
    (h : ¬ Stops base 0) : stop = (firstSegment base).length ∧ stop < 2 ^ 32 := by
  obtain ⟨hstops, hleast⟩ := segmentStop_eq_some hstop
  obtain ⟨hle, hlt⟩ := hleast _ stops_firstSegment ((nextIndex_le 0).trans (firstSegment_pos h)) (nextIndex_lt 0)
  refine ⟨le_antisymm hle ?_, hlt⟩
  by_contra hbefore
  exact not_stops_of_lt_firstSegment (not_le.1 hbefore) hstops

theorem exists_segmentStop_firstSegment (h : ¬ Stops base 0) (hlt : (firstSegment base).length < 2 ^ 32) :
    ∃ inner, segmentStop base (inner + 1) (nextIndex 0) = some (firstSegment base).length := by
  refine ⟨(firstSegment base).length, ?_⟩
  refine segmentStop_of_least stops_firstSegment hlt ?_ (fun k _ hk => not_stops_of_lt_firstSegment hk) (by omega)
  exact (nextIndex_le 0).trans (firstSegment_pos h)

theorem segmentPath_firstSegment (hlt : (firstSegment base).length < 2 ^ 32) :
    segmentPath base suffix 0 (firstSegment base).length = firstSegment base ++ suffix.bytes := by
  have hbegins : firstSegment base <+: base.bytes := List.takeWhile_prefix _
  rw [segmentPath, segmentLen_eq (Nat.zero_le _) hlt, List.drop_zero, Nat.sub_zero, ← List.prefix_iff_eq_take.1 hbegins]

/-- Without a segment after the first there are only separators. -/
theorem stops_of_segments_eq_nil
    (h : segments pathSeparator (base.bytes.dropWhile (· ≠ pathSeparator)) = []) :
    ∀ k, (firstSegment base).length ≤ k → k < base.len → Stops base k := by
  intro k hle hlt
  have hsplit : firstSegment base ++ base.bytes.dropWhile (· ≠ pathSeparator) = base.bytes :=
    List.takeWhile_append_dropWhile
  refine .inl ?_
  rw [CString.len] at hlt
  rw [← hsplit, List.getElem?_append_right hle]
  rw [← hsplit, List.length_append] at hlt
  rw [List.getElem?_eq_getElem (by omega), segments_eq_nil.1 h _ (List.getElem_mem _)]

variable (base suffix fileExists granted)

/-- A value that begins with a separator is searched by segments if it has none. -/
theorem searchesSegments_iff_of_stops (hzero : Stops base 0) :
    SearchesSegments fileExists base suffix granted ↔
      segments pathSeparator base.bytes = [] ∧ base.len < 2 ^ 32 := by
  constructor
  · rintro ⟨inner, outer, h⟩
    simp only [checkIfSettingsPathExists] at h
    obtain ⟨⟨later, htested, hheads⟩, hresult⟩ := searchFrom_separators h (Nat.two_pow_pos 32) (Nat.two_pow_pos 32) hzero
    rw [List.nil_append] at htested
    have hnone : segments pathSeparator base.bytes = [] :=
      segments_eq_nil_of_heads fun path hpath => hheads path (htested ▸ hpath)
    exact ⟨hnone, hresult (by simp [searchSegments, segmentPaths, hnone])⟩
  · rintro ⟨hnone, hlt⟩
    have hseps : ∀ k, 0 ≤ k → k < base.len → Stops base k := by
      intro k _ hk
      refine .inl ?_
      rw [List.getElem?_eq_getElem hk, segments_eq_nil.1 hnone _ (List.getElem_mem hk)]
    refine ⟨1, base.len + 1, ?_⟩
    simp only [checkIfSettingsPathExists]
    rw [searchFrom_skips hseps le_rfl (Nat.zero_le _) hlt (by omega)]
    simp [searchSegments, segmentPaths, hnone, testedUntil]

/-- The search of a value that begins with a segment. -/
theorem searchesSegments_iff_of_not_stops (hzero : ¬ Stops base 0) :
    SearchesSegments fileExists base suffix granted ↔
      2 ≤ (firstSegment base).length ∧ (firstSegment base).length < 2 ^ 32 ∧ granted 0 ∧
        (fileExists (firstSegment base ++ suffix.bytes) ∨
          (segments pathSeparator base.bytes = [firstSegment base] ∧ base.len < 2 ^ 32)) := by
  have hpos : 0 < base.len := Nat.pos_of_ne_zero fun h => hzero (.inr h.symm)
  have hsegments := segments_eq_firstSegment hzero
  have hpaths : segmentPaths base suffix = (firstSegment base ++ suffix.bytes) ::
      (segments pathSeparator (base.bytes.dropWhile (· ≠ pathSeparator))).map (· ++ suffix.bytes) := by
    rw [segmentPaths, hsegments, List.map_cons]
  constructor
  · rintro ⟨inner, outer, h⟩
    simp only [checkIfSettingsPathExists] at h
    rcases outer with _ | outer
    · simp [searchFrom] at h
    obtain ⟨stop, hseg⟩ := exists_segmentStop h (by omega)
    obtain ⟨rfl, hlt⟩ := segmentStop_firstSegment hseg hzero
    rw [searchFrom_of_segment hpos hpos hseg, testSegment, segmentPath_firstSegment hlt,
      segmentLen_eq (Nat.zero_le _) hlt, Nat.sub_zero] at h
    by_cases hshort : (firstSegment base).length ≤ 1
    · -- The first segment is skipped.
      rw [if_pos hshort, Sum.elim_inr] at h
      obtain ⟨⟨later, htested, hheads⟩, -⟩ := searchFrom_separators h (Nat.two_pow_pos 32) hlt stops_firstSegment
      rw [List.nil_append] at htested
      have hnone := segments_eq_nil_of_heads fun path hpath => hheads path (htested ▸ hpath)
      exact absurd (hsegments.symm.trans hnone) (List.cons_ne_nil _ _)
    rw [if_neg hshort] at h
    refine ⟨not_le.1 hshort, hlt, ?_⟩
    by_cases hgranted : granted ([] : List (List Char)).length
    · refine ⟨hgranted, or_iff_not_imp_left.2 fun hfile => ?_⟩
      simp only [if_pos hgranted, if_neg hfile, Sum.elim_inr] at h
      obtain ⟨⟨later, htested, hheads⟩, hresult⟩ := searchFrom_separators h (Nat.two_pow_pos 32) hlt stops_firstSegment
      simp only [searchSegments, hpaths, testedUntil_cons, if_neg hfile, List.nil_append, List.singleton_append,
        List.cons.injEq, true_and] at htested
      have hnone := segments_eq_nil_of_heads fun path hpath => hheads path (htested ▸ hpath)
      rw [hnone] at hsegments hpaths
      exact ⟨hsegments, hresult (by simp [searchSegments, hpaths, hfile])⟩
    · rw [if_neg hgranted, Sum.elim_inl, Option.some.injEq] at h
      have hresult := congrArg PathSearch.result h
      simp only [searchSegments] at hresult
      split at hresult <;> cases hresult
  · rintro ⟨hlong, hlt, hgranted, hrest⟩
    obtain ⟨inner, hseg⟩ := exists_segmentStop_firstSegment hzero hlt
    refine ⟨inner + 1, base.len + 2, ?_⟩
    simp only [checkIfSettingsPathExists]
    rw [searchFrom_of_segment hpos hpos hseg, testSegment, segmentPath_firstSegment hlt,
      segmentLen_eq (Nat.zero_le _) hlt, Nat.sub_zero, if_neg (not_le.2 hlong), List.length_nil, if_pos hgranted]
    by_cases hfile : fileExists (firstSegment base ++ suffix.bytes)
    · simp [hfile, searchSegments, hpaths, testedUntil]
    · obtain ⟨hone, hlen⟩ := hrest.resolve_left hfile
      rw [hsegments, List.cons.injEq] at hone
      have hseps := stops_of_segments_eq_nil hone.2
      rw [hone.2] at hpaths
      simp only [if_neg hfile, Sum.elim_inr]
      rw [searchFrom_skips hseps (Nat.zero_le _) stops_firstSegment.le hlen (by omega)]
      simp [hfile, searchSegments, hpaths, testedUntil]

/-- **When the search goes through the segments**: exactly when the first one decides it. -/
theorem searchesSegments_iff :
    SearchesSegments fileExists base suffix granted ↔ FirstSegmentDecides fileExists base suffix granted := by
  unfold FirstSegmentDecides
  by_cases hzero : Stops base 0
  · rw [searchesSegments_iff_of_stops base suffix fileExists granted hzero]
    refine ⟨.inl, fun h => h.resolve_right fun hfirst => ?_⟩
    exact not_stops_of_lt_firstSegment (Nat.lt_of_lt_of_le Nat.two_pos hfirst.1) hzero
  · rw [searchesSegments_iff_of_not_stops base suffix fileExists granted hzero]
    refine ⟨.inr, fun h => h.resolve_left fun hnone => ?_⟩
    rw [segments_eq_firstSegment hzero] at hnone
    exact List.cons_ne_nil _ _ hnone.1

end Agreement

/-- The second directory is looked for as `":/b/v"`, which is not where the file is. -/
theorem not_searchesSegments :
    ¬ SearchesSegments (· == "/b/v".toList) ⟨"/a:/b".toList, by decide⟩ ⟨"/v".toList, by decide⟩ fun _ => true := by
  rw [searchesSegments_iff_of_not_stops _ _ _ _ (by simp [Stops, CString.len, pathSeparator])]
  decide

end VulkanLoader
