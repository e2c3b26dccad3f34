import Mathlib.Data.List.TakeWhile
import VulkanLoader.Manifests.JsonPrintedTexts

/-!
# What the printer leaves in its buffer

Behind the text that was printed, the places of the zone that were not written hold zeros: a function of the printer
keeps that, and adds a text of its value.
-/

namespace VulkanLoader

open CJson (printString outputLength hasShortEscape isControl printChar)

namespace PrintBuffer

/-! ### Writing -/

section Put

variable {p : PrintBuffer} {front old : List Char}

theorem put_done {pos : ℕ} (cells : List Char) (hbuffer : p.buffer = front ++ old) (hpos : pos = front.length)
    (hroom : cells.length ≤ old.length) :
    p.put pos cells = .done { p with buffer := front ++ cells ++ old.drop cells.length } := by
  subst hpos
  unfold put
  have hfits : front.length + cells.length ≤ p.buffer.length := by
    rw [hbuffer, List.length_append]
    omega
  rw [if_pos hfits, hbuffer, List.take_left, ← List.drop_drop, List.drop_left]

end Put

/-- What is behind the text, after the last character: a zero stands at its place if `snprintf` wrote that. -/
def tailOf (rest : List Char) (n : ℕ) (control : Bool) : List Char :=
  if control then nul :: rest.drop (n + 1) else rest.drop n

theorem drop_tailOf (rest : List Char) (n k : ℕ) (control : Bool) :
    (tailOf rest n control).drop (k + 1) = rest.drop (n + (k + 1)) := by
  unfold tailOf
  split_ifs
  · rw [List.drop_succ_cons, List.drop_drop]
    congr 1
    omega
  · rw [List.drop_drop]

theorem length_tailOf {rest : List Char} {n : ℕ} (control : Bool) (h : n < rest.length) :
    (tailOf rest n control).length = rest.length - n := by
  unfold tailOf
  split_ifs
  · rw [List.length_cons, List.length_drop]
    omega
  · exact List.length_drop

/-- The last character of a list is a control character, or it is empty and one was before it. -/
def lastControl (control : Bool) : List Char → Bool
  | [] => control
  | c :: input => lastControl (isControl c) input

theorem lastControl_eq (control : Bool) (input : List Char) :
    lastControl control input = (input.getLast?.map isControl).getD control := by
  induction input generalizing control with
  | nil => rfl
  | cons c input ih =>
    rw [lastControl, ih, List.getLast?_cons]
    rcases input.getLast? with _ | d
    · rfl
    · rfl

/-- **The copying loop**. -/
theorem copyEscaped_done (front : List Char) {rest : List Char} {outputEnd : ℕ} (hend : outputEnd < front.length + rest.length)
    (input text : List Char) (control : Bool) (p : PrintBuffer)
    (hbuffer : p.buffer = front ++ text ++ tailOf rest text.length control)
    (hroom : front.length + text.length + (input.map charRoom).sum ≤ outputEnd) :
    copyEscaped outputEnd input (front.length + text.length) p =
      .done { p with
        buffer := front ++ (text ++ input.flatMap printChar) ++
          tailOf rest (text ++ input.flatMap printChar).length (lastControl control input) } := by
  induction input generalizing text control p with
  | nil =>
    rw [copyEscaped, List.flatMap_nil, List.append_nil, lastControl, ← hbuffer]
  | cons c input ih =>
    rw [List.map_cons, List.sum_cons] at hroom
    have hplace : front.length + text.length = (front ++ text).length := List.length_append.symm
    have hpos : 1 ≤ charRoom c := Nat.le_add_right 1 _
    have hlength : (tailOf rest text.length control).length = rest.length - text.length :=
      length_tailOf control (by omega)
    rw [List.flatMap_cons, ← List.append_assoc text, lastControl, copyEscaped]
    by_cases hcontrol : isControl c
    · have hsix := charRoom_of_control hcontrol
      have hfive := length_printChar_of_control hcontrol
      have hcells : snprintf (outputEnd - (front.length + text.length)) (printChar c) = printChar c ++ [nul] := by
        rw [snprintf, if_neg (by omega), List.take_of_length_le (by omega)]
      have hput := put_done (printChar c ++ [nul]) hbuffer hplace (by
        rw [List.length_append, hfive, List.length_singleton, hlength]
        omega)
      rw [if_neg fun hcopied => not_isControl_of_copied (.inl hcopied) hcontrol,
        if_neg fun hshort => not_isControl_of_copied (.inr hshort) hcontrol, hcells, hput]
      have hnext := ih (text ++ printChar c) (isControl c)
        { p with
          buffer := front ++ text ++ (printChar c ++ [nul]) ++
            (tailOf rest text.length control).drop (printChar c ++ [nul]).length } ?_ ?_
      · rw [List.length_append, hfive, ← Nat.add_assoc] at hnext
        exact hnext
      · have htail : tailOf rest (text ++ printChar c).length (isControl c) = nul :: rest.drop (text.length + 6) := by
          rw [tailOf, if_pos hcontrol, List.length_append, hfive]
        have hdrop : (tailOf rest text.length control).drop (printChar c ++ [nul]).length = rest.drop (text.length + 6) := by
          rw [List.length_append, hfive]
          exact drop_tailOf rest text.length 5 control
        rw [htail, hdrop]
        simp only [List.append_assoc, List.singleton_append]
      · rw [List.length_append, hfive]
        omega
    · have hcopied : c.toNat > 31 ∧ c ≠ '"' ∧ c ≠ '\\' ∨ hasShortEscape c := by
        by_contra hnot
        rw [not_or] at hnot
        exact hcontrol (isControl_of_escape hnot.1 hnot.2)
      have hput := put_done [c] hbuffer hplace (by rw [List.length_singleton, hlength]; omega)
      have hnext := ih (text ++ [c]) (isControl c)
        { p with buffer := front ++ text ++ [c] ++ (tailOf rest text.length control).drop 1 } ?_ ?_
      · rw [List.length_append, List.length_singleton, ← Nat.add_assoc] at hnext
        rw [printChar_of_not_control hcontrol, ← hnext]
        split_ifs with hplain hshort
        · rw [hput]
          rfl
        · rw [hput]
          rfl
        · exact absurd hcopied (not_or.2 ⟨hplain, hshort⟩)
      · have htail : tailOf rest (text ++ [c]).length (isControl c) = rest.drop (text.length + 1) := by
          rw [tailOf, if_neg hcontrol, List.length_append, List.length_singleton]
        rw [htail, ← drop_tailOf rest text.length 0 control]
        simp only [List.append_assoc]
      · rw [List.length_append, List.length_singleton]
        omega

/-- What is behind the text of a string that was written where `rest` was. -/
def gapOf (input : String) (rest : List Char) : List Char :=
  (tailOf rest (printString input).length (endsControl input)).take (slack input)

/-- **A string is written**: its text, what is left of its room, and a zero. -/
theorem writeString_done {front rest : List Char} {input : String} {p : PrintBuffer} (hbuffer : p.buffer = front ++ rest)
    (hoffset : p.offset = front.length) (hroom : outputLength input < rest.length) :
    writeString input p = .done { p with
      buffer := front ++ printString input ++ (gapOf input rest ++ nul :: rest.drop (outputLength input + 1)) } := by
  have hslack := length_add_slack input
  -- the text, with the zero of `snprintf`
  have htext : (if outputLength input = input.length then p.put p.offset input.toList
      else copyEscaped (p.offset + outputLength input) input.toList p.offset p) = .done { p with
        buffer := front ++ printString input ++ tailOf rest (printString input).length (endsControl input) } := by
    split_ifs with hplain
    · obtain ⟨hprint, hcontrol⟩ := plain_of_outputLength hplain
      have hput := put_done input.toList hbuffer hoffset (by rw [String.length_toList]; omega)
      rw [hput, hprint, hcontrol, tailOf, if_neg Bool.false_ne_true]
    · have hcopy := copyEscaped_done front (show p.offset + outputLength input < front.length + rest.length by omega)
        input.toList [] false p (by rw [hbuffer, List.append_nil]; rfl)
        (by rw [← outputLength_eq, List.length_nil]; omega)
      rw [List.nil_append, lastControl_eq] at hcopy
      rw [hoffset] at hcopy ⊢
      exact hcopy
  have hlength : (tailOf rest (printString input).length (endsControl input)).length =
      rest.length - (printString input).length := length_tailOf _ (by omega)
  have htail : tailOf rest (printString input).length (endsControl input) =
      gapOf input rest ++ (tailOf rest (printString input).length (endsControl input)).drop (slack input) :=
    (List.take_append_drop _ _).symm
  have hgap : (gapOf input rest).length = slack input := by
    rw [gapOf, List.length_take, hlength]
    omega
  unfold writeString
  dsimp only
  rw [htext, Printing.andThen, @put_done _ (front ++ printString input ++ gapOf input rest)
    ((tailOf rest (printString input).length (endsControl input)).drop (slack input))]
  · have hdrop : ((tailOf rest (printString input).length (endsControl input)).drop (slack input)).drop [nul].length =
        rest.drop (outputLength input + 1) := by
      rw [List.drop_drop, List.length_singleton, drop_tailOf, ← hslack, Nat.add_assoc]
    rw [hdrop]
    simp only [List.append_assoc, List.singleton_append]
  · exact (congrArg (front ++ printString input ++ ·) htail).trans (List.append_assoc _ _ _).symm
  · rw [List.length_append, List.length_append, hgap, hoffset]
    omega
  · rw [List.length_drop, hlength, List.length_singleton]
    omega

/-! ### The state of the buffer -/

/-- The places below the zone hold zeros. -/
def Blank (zone n : ℕ) (rest : List Char) : Prop := ∀ i c, rest[i]? = some c → n + i < zone → c = nul

section Blank

variable {zone n : ℕ} {rest rest' : List Char}

theorem Blank.drop (h : Blank zone n rest) (k : ℕ) : Blank zone (n + k) (rest.drop k) := by
  intro i c hc hi
  rw [List.getElem?_drop] at hc
  exact h (k + i) c hc (by omega)

theorem Blank.take (h : Blank zone n rest) (k : ℕ) : Blank zone n (rest.take k) := by
  intro i c hc hi
  rw [List.getElem?_take] at hc
  split_ifs at hc
  exact h i c hc hi

theorem Blank.append (h : Blank zone n rest) (h' : Blank zone (n + rest.length) rest') : Blank zone n (rest ++ rest') := by
  intro i c hc hi
  rcases Nat.lt_or_ge i rest.length with hlt | hge
  · rw [List.getElem?_append_left hlt] at hc
    exact h i c hc hi
  · rw [List.getElem?_append_right hge] at hc
    exact h' _ c hc (by omega)

theorem Blank.cons (h : Blank zone (n + 1) rest) : Blank zone n (nul :: rest) := by
  intro i c hc hi
  rcases i with _ | i
  · exact (Option.some.inj hc).symm
  · exact h i c hc (by omega)

theorem Blank.head (h : Blank zone n rest) (hn : n < zone) : rest = [] ∨ ∃ rest', rest = nul :: rest' := by
  rcases rest with _ | ⟨c, rest⟩
  · exact .inl rfl
  · exact .inr ⟨rest, by rw [h 0 c rfl hn]⟩

end Blank

/-- The text was printed, and the offset is behind it. -/
structure At (zone : ℕ) (text : List Char) (depth : ℕ) (p : PrintBuffer) : Prop where
  offset : p.offset = text.length
  depth : p.depth = depth
  inZone : zone ≤ p.buffer.length
  buffer : ∃ rest, p.buffer = text ++ rest ∧ rest ≠ [] ∧ Blank zone text.length rest

/-- A text was printed behind what was there before, and the offset is in it. -/
structure Shows (zone : ℕ) (before text : List Char) (depth : ℕ) (p : PrintBuffer) : Prop where
  offset : ∃ k ≤ text.length, p.offset = before.length + k
  depth : p.depth = depth
  inZone : zone ≤ p.buffer.length
  unended : nul ∉ text
  buffer : ∃ rest, p.buffer = before ++ text ++ nul :: rest ∧ Blank zone (before.length + text.length + 1) rest

section States

variable {zone depth depth' : ℕ} {before inner text : List Char} {p : PrintBuffer}

theorem At.atDepth (h : At zone text depth p) (depth' : ℕ) : At zone text depth' (p.atDepth depth') :=
  ⟨h.offset, rfl, h.inZone, h.buffer⟩

theorem Shows.atDepth (h : Shows zone before text depth p) (depth' : ℕ) :
    Shows zone before text depth' (p.atDepth depth') := ⟨h.offset, rfl, h.inZone, h.unended, h.buffer⟩

/-- Some of what was there before is taken for a part of the text. -/
theorem Shows.extend (h : Shows zone (before ++ inner) text depth p) (hinner : nul ∉ inner) :
    Shows zone before (inner ++ text) depth p := by
  obtain ⟨k, hk, hoffset⟩ := h.offset
  obtain ⟨rest, hbuffer, hblank⟩ := h.buffer
  refine ⟨⟨inner.length + k, ?_, ?_⟩, h.depth, h.inZone, ?_, rest, ?_, ?_⟩
  · rw [List.length_append]
    omega
  · rw [hoffset, List.length_append, Nat.add_assoc]
  · rw [List.mem_append, not_or]
    exact ⟨hinner, h.unended⟩
  · rw [hbuffer, List.append_assoc before inner text]
  · rw [List.length_append] at hblank ⊢
    rwa [← Nat.add_assoc before.length]

theorem updateOffset_done {rest : List Char} {k : ℕ} (hk : k ≤ text.length) (hoffset : p.offset = before.length + k)
    (hunended : nul ∉ text) (hbuffer : p.buffer = before ++ text ++ nul :: rest) :
    p.updateOffset = .done { p with offset := before.length + text.length } := by
  have hdrop : p.buffer.drop p.offset = text.drop k ++ nul :: rest := by
    rw [hbuffer, hoffset, List.append_assoc, ← List.drop_drop, List.drop_left, List.drop_append_of_le_length hk]
  have hfind : (p.buffer.drop p.offset).findIdx? (· == nul) = some (text.length - k) := by
    have hnone : (text.drop k).findIdx? (· == nul) = none := by
      rw [List.findIdx?_eq_none_iff]
      intro c hc
      rw [beq_eq_false_iff_ne]
      exact fun heq => hunended (heq ▸ List.mem_of_mem_drop hc)
    rw [hdrop, List.findIdx?_append, hnone, List.findIdx?_cons, List.length_drop]
    simp
  unfold updateOffset
  rw [hfind]
  dsimp only
  rw [hoffset, Nat.add_assoc, Nat.add_sub_cancel' hk]

/-- `update_offset` moves the offset behind the text. -/
theorem updateOffset_of_shows (h : Shows zone before text depth p) :
    ∃ p', p.updateOffset = .done p' ∧ At zone (before ++ text) depth p' ∧
      ∃ rest, p'.buffer = before ++ text ++ nul :: rest := by
  obtain ⟨k, hk, hoffset⟩ := h.offset
  obtain ⟨rest, hbuffer, hblank⟩ := h.buffer
  refine ⟨_, updateOffset_done hk hoffset h.unended hbuffer,
    ⟨List.length_append.symm, h.depth, h.inZone, nul :: rest, hbuffer, List.cons_ne_nil _ _, ?_⟩, rest, hbuffer⟩
  rw [List.length_append]
  exact hblank.cons

end States

end PrintBuffer

/-! ### How printing ends -/

/-- Printing succeeds with a state, or it was refused memory, or it would have needed more than there can be. -/
def Printer.Ends (pr : Printer) (limit : ℕ) (P : PrintBuffer → Prop) : Printing → Prop
  | .done p => P p
  | .failed true => pr.noalloc = false ∧ ∃ n, pr.grants n = false
  | .failed false => intMax < limit ∨ pr.noalloc
  | .traps => False

section Ends

variable {pr : Printer} {limit : ℕ} {P Q : PrintBuffer → Prop} {r : Printing}

theorem Printer.Ends.andThen (h : pr.Ends limit P r) {f : PrintBuffer → Printing}
    (hf : ∀ p, P p → pr.Ends limit Q (f p)) : pr.Ends limit Q (r.andThen f) := by
  rcases r with p | outOfMemory | _
  · exact hf p h
  · cases outOfMemory
    · exact h
    · exact h
  · exact h

theorem Printer.Ends.mono (h : pr.Ends limit P r) (himp : ∀ p, P p → Q p) : pr.Ends limit Q r := by
  rcases r with p | outOfMemory | _
  · exact himp p h
  · cases outOfMemory
    · exact h
    · exact h
  · exact h

namespace PrintBuffer

variable {zone depth : ℕ} {text : List Char} {p : PrintBuffer}

theorem grown_at (h : At zone text depth p) (pr : Printer) (newsize : ℕ) :
    At zone text depth (p.grown pr newsize) := by
  obtain ⟨rest, hbuffer, hrest, hblank⟩ := h.buffer
  have hzone := h.inZone
  rw [hbuffer, List.length_append] at hzone
  refine ⟨h.offset, h.depth, ?_, ?_⟩
  · refine le_trans h.inZone ?_
    rw [grown, List.length_append]
    exact Nat.le_add_right _ _
  · rw [grown, hbuffer]
    exact ⟨_, List.append_assoc _ _ _, List.append_ne_nil_of_left_ne_nil hrest _,
      hblank.append fun _ _ _ hi => absurd hi (by omega)⟩

theorem length_grown {newsize : ℕ} (h : p.buffer.length ≤ newsize) (pr : Printer) :
    (p.grown pr newsize).buffer.length = newsize := by
  rw [grown, List.length_append, List.length_map, List.length_range]
  omega

/-- **Room is made.** -/
theorem ensure_ends (h : At zone text depth p) (needed : ℕ) (hlimit : text.length + needed + 1 ≤ limit) :
    pr.Ends limit (fun p' => At zone text depth p' ∧ text.length + needed + 1 ≤ p'.buffer.length)
      (p.ensure pr needed) := by
  obtain ⟨rest, hbuffer, hrest, hblank⟩ := h.buffer
  have hlength : p.buffer.length = text.length + rest.length := by rw [hbuffer, List.length_append]
  have hpos : 0 < rest.length := List.length_pos_iff.2 hrest
  unfold ensure
  dsimp only
  rw [h.offset, if_neg (by omega)]
  by_cases hlarge : needed > intMax
  · rw [if_pos hlarge]
    exact .inl (by omega)
  rw [if_neg hlarge]
  by_cases hfits : needed + (text.length + 1) ≤ p.buffer.length
  · rw [if_pos hfits]
    exact ⟨h, by omega⟩
  rw [if_neg hfits]
  by_cases hnoalloc : pr.noalloc
  · rw [if_pos hnoalloc]
    exact .inr hnoalloc
  rw [if_neg hnoalloc]
  rcases hnew : newBufferSize (needed + (text.length + 1)) with _ | newsize
  · unfold newBufferSize at hnew
    split_ifs at hnew
    exact .inl (by omega)
  · have hsize : needed + (text.length + 1) ≤ newsize := by
      unfold newBufferSize at hnew
      split_ifs at hnew <;> cases hnew <;> omega
    dsimp only
    by_cases hgrant : pr.grants p.requests
    · rw [if_pos hgrant]
      exact ⟨grown_at h pr newsize, by rw [length_grown (by omega)]; omega⟩
    · rw [if_neg hgrant]
      exact ⟨Bool.not_eq_true _ ▸ hnoalloc, p.requests, Bool.not_eq_true _ ▸ hgrant⟩

/-- **Characters are printed**. -/
theorem emit_ends (h : At zone text depth p) (needed : ℕ) (cells : List Char) (length : ℕ)
    (hlimit : text.length + needed + 1 ≤ limit) (hcells : cells.length ≤ needed) :
    pr.Ends limit (fun p' => p'.offset = text.length + length ∧ p'.depth = depth ∧ zone ≤ p'.buffer.length ∧
      ∃ rest, p'.buffer = text ++ cells ++ rest ∧ rest ≠ [] ∧ Blank zone (text.length + cells.length) rest)
      (p.emit pr needed cells length) := by
  refine (ensure_ends h needed hlimit).andThen fun p' ⟨hat, hlength⟩ => ?_
  obtain ⟨rest, hbuffer, -, hblank⟩ := hat.buffer
  rw [hbuffer, List.length_append] at hlength
  rw [put_done _ hbuffer hat.offset (by omega)]
  refine ⟨by rw [← hat.offset], hat.depth, ?_, _, rfl, ?_, hblank.drop _⟩
  · refine le_trans hat.inZone ?_
    rw [hbuffer]
    simp only [List.length_append, List.length_drop]
    omega
  · rw [← List.length_pos_iff, List.length_drop]
    omega

theorem emit_at (h : At zone text depth p) (needed : ℕ) (cells : List Char) {length : ℕ}
    (hlimit : text.length + needed + 1 ≤ limit) (hcells : cells.length ≤ needed) (hlength : cells.length = length) :
    pr.Ends limit (At zone (text ++ cells) depth) (p.emit pr needed cells length) := by
  refine (emit_ends h needed _ length hlimit hcells).mono fun p' ⟨hoffset, hdepth, hzone, rest, hbuffer, hrest, hblank⟩ => ?_
  refine ⟨?_, hdepth, hzone, rest, hbuffer, hrest, ?_⟩
  · rw [hoffset, List.length_append, hlength]
  · rwa [List.length_append]

theorem emit_at_ended (h : At zone text depth p) (needed : ℕ) (cells : List Char) {length : ℕ}
    (hlimit : text.length + needed + 1 ≤ limit) (hcells : cells.length < needed) (hlength : cells.length = length) :
    pr.Ends limit (At zone (text ++ cells) depth) (p.emit pr needed (cells ++ [nul]) length) := by
  refine (emit_ends h needed _ length hlimit ?_).mono fun p' ⟨hoffset, hdepth, hzone, rest, hbuffer, hrest, hblank⟩ => ?_
  · rw [List.length_append]
    exact hcells
  refine ⟨?_, hdepth, hzone, nul :: rest, ?_, List.cons_ne_nil _ _, ?_⟩
  · rw [hoffset, List.length_append, hlength]
  · rw [hbuffer]
    simp only [List.append_assoc, List.singleton_append]
  · rw [List.length_append, List.length_singleton] at hblank
    rw [List.length_append]
    exact hblank.cons

theorem emit_shows (h : At zone text depth p) (needed : ℕ) (cells : List Char) {length : ℕ}
    (hlimit : text.length + needed + 1 ≤ limit) (hcells : cells.length < needed) (hlength : length ≤ cells.length)
    (hunended : nul ∉ cells) :
    pr.Ends limit (Shows zone text cells depth) (p.emit pr needed (cells ++ [nul]) length) := by
  refine (emit_ends h needed _ length hlimit ?_).mono fun p' ⟨hoffset, hdepth, hzone, rest, hbuffer, hrest, hblank⟩ => ?_
  · rw [List.length_append]
    exact hcells
  refine ⟨⟨length, hlength, hoffset⟩, hdepth, hzone, hunended, rest, ?_, ?_⟩
  · rw [hbuffer]
    simp only [List.append_assoc, List.singleton_append]
  · rwa [List.length_append, List.length_singleton] at hblank

/-- What stands before the first zero, and what is behind it. -/
theorem exists_unended (gap rest : List Char) : ∃ rest', gap ++ nul :: rest = gap.takeWhile (· != nul) ++ nul :: rest' := by
  induction gap with
  | nil => exact ⟨rest, rfl⟩
  | cons c gap ih =>
    obtain ⟨rest', hrest⟩ := ih
    by_cases hc : c = nul
    · exact ⟨gap ++ nul :: rest, by rw [List.takeWhile_cons, hc]; rfl⟩
    · exact ⟨rest', by rw [List.takeWhile_cons, if_pos (bne_iff_ne.2 hc), List.cons_append, hrest, List.cons_append]⟩

theorem nul_not_mem_takeWhile (gap : List Char) : nul ∉ gap.takeWhile (· != nul) := fun h =>
  bne_iff_ne.1 (List.mem_takeWhile_imp (p := (· != nul)) h) rfl

/-- **A string is printed**. -/
theorem printStringPtr_ends (h : At zone text depth p) {input : String} (hinput : nul ∉ input.toList)
    (hlimit : text.length + outputLength input + 2 ≤ limit) :
    pr.Ends limit (fun p' => ∃ printed, StringPrints zone text.length input printed ∧ Shows zone text printed depth p')
      (p.printStringPtr pr input) := by
  refine (ensure_ends h (outputLength input + 1) hlimit).andThen fun p' ⟨hat, hlength⟩ => ?_
  obtain ⟨rest, hbuffer, -, hblank⟩ := hat.buffer
  rw [hbuffer, List.length_append] at hlength
  rw [writeString_done hbuffer hat.offset (by omega)]
  have hslack := length_add_slack input
  have htail : Blank zone (text.length + (printString input).length)
      (tailOf rest (printString input).length (endsControl input)) := by
    unfold tailOf
    split_ifs
    · refine Blank.cons ?_
      rw [Nat.add_assoc]
      exact hblank.drop _
    · exact hblank.drop _
  have hgaplength : (gapOf input rest).length = slack input := by
    rw [gapOf, List.length_take, length_tailOf _ (by omega)]
    omega
  have hall : Blank zone (text.length + (printString input).length)
      (gapOf input rest ++ nul :: rest.drop (outputLength input + 1)) := by
    refine (htail.take _).append (Blank.cons ?_)
    rw [← gapOf, hgaplength, Nat.add_assoc, Nat.add_assoc, ← Nat.add_assoc (printString input).length, hslack]
    exact hblank.drop _
  obtain ⟨rest', hrest⟩ := exists_unended (gapOf input rest) (rest.drop (outputLength input + 1))
  refine ⟨printString input ++ (gapOf input rest).takeWhile (· != nul),
    ⟨_, rfl, hgaplength ▸ (List.takeWhile_prefix _).length_le, nul_not_mem_takeWhile _, ?_⟩, ?_⟩
  · intro hzero
    have hhead : gapOf input rest = [] ∨ ∃ gap, gapOf input rest = nul :: gap := by
      rcases hzero with hzone | hcontrol
      · exact (htail.take _).head hzone
      · rw [gapOf, tailOf, if_pos hcontrol]
        rcases slack input with _ | n
        · exact .inl rfl
        · exact .inr ⟨_, List.take_succ_cons⟩
    rcases hhead with hgap | ⟨gap, hgap⟩
    · rw [hgap]
      rfl
    · rw [hgap]
      rfl
  · refine ⟨⟨0, Nat.zero_le _, hat.offset⟩, hat.depth, ?_, ?_, rest', ?_, ?_⟩
    · refine le_trans hat.inZone ?_
      rw [hbuffer]
      simp only [List.length_append, List.length_cons, List.length_drop, hgaplength]
      omega
    · rw [List.mem_append, not_or]
      exact ⟨nul_not_mem_printString hinput, nul_not_mem_takeWhile _⟩
    · dsimp only
      rw [hrest]
      simp only [List.append_assoc]
    · have hdrop := hall.drop (((gapOf input rest).takeWhile (· != nul)).length + 1)
      rw [hrest, ← List.drop_drop, List.drop_left] at hdrop
      rw [List.length_append, ← Nat.add_assoc, Nat.add_assoc _ _ 1]
      exact hdrop

section Values

variable {zone : ℕ}

theorem nul_not_mem_tabs (pr : Printer) (depth : ℕ) : nul ∉ tabs pr depth := by
  unfold tabs
  split_ifs
  · rw [List.mem_replicate]
    exact fun h => absurd h.2 (by decide)
  · exact List.not_mem_nil

mutual

/-- **A value is printed**. -/
theorem printValue_ends (hformat : pr.format = true) : ∀ {v : CJson} {depth : ℕ} {before : List Char} {p : PrintBuffer},
    Printable v → At zone before depth p → before.length + reserveValue depth v + 2 ≤ limit →
    pr.Ends limit (fun p' => ∃ text, ValuePrints zone before.length depth v text ∧ Shows zone before text depth p')
      (printValue pr v p)
  | .null, depth, before, p, _, h, hlimit => by
    rw [reserveValue] at hlimit
    rw [printValue]
    refine (emit_shows h 5 "null".toList (by omega) (by decide) (Nat.zero_le _) (by decide)).mono
      fun p' hp => ⟨_, ?_, hp⟩
    rw [ValuePrints]
  | .bool value, depth, before, p, _, h, hlimit => by
    rw [reserveValue] at hlimit
    cases value
    · rw [printValue]
      refine (emit_shows h 6 "false".toList (by omega) (by decide) (Nat.zero_le _) (by decide)).mono
        fun p' hp => ⟨_, ?_, hp⟩
      rw [ValuePrints]
      rfl
    · rw [printValue]
      refine (emit_shows h 5 "true".toList (by omega) (by decide) (Nat.zero_le _) (by decide)).mono
        fun p' hp => ⟨_, ?_, hp⟩
      rw [ValuePrints]
      rfl
  | .number _ number, depth, before, p, hprintable, h, hlimit => by
    rw [Printable] at hprintable
    rw [reserveValue] at hlimit
    rw [printValue, printNumber, if_neg (by omega)]
    refine (emit_shows h (number.length + 1) number.toList (by omega) ?_ ?_ hprintable.2).mono fun p' hp => ⟨_, ?_, hp⟩
    · rw [String.length_toList]
      exact Nat.lt_succ_self _
    · rw [String.length_toList]
    · rw [ValuePrints]
  | .string valuestring, depth, before, p, hprintable, h, hlimit => by
    rw [Printable] at hprintable
    rw [reserveValue] at hlimit
    rw [printValue]
    refine (printStringPtr_ends h hprintable hlimit).mono fun p' ⟨text, htext, hp⟩ => ⟨text, ?_, hp⟩
    rwa [ValuePrints]
  | .array items, depth, before, p, hprintable, h, hlimit => by
    rw [Printable] at hprintable
    rw [reserveValue] at hlimit
    rw [printValue]
    refine (emit_at h 1 ['['] (by omega) le_rfl rfl).andThen fun p₁ h₁ => ?_
    have hbefore : (before ++ ['[']).length = before.length + 1 := List.length_append
    rw [h₁.depth]
    refine (printItems_ends hformat hprintable (h₁.atDepth (depth + 1)) (by omega)).andThen
      fun p₂ ⟨inner, hinner, hended, h₂⟩ => ?_
    rw [hbefore] at hinner
    have hlength := hinner.length_le
    refine (emit_shows h₂ 2 [']'] ?_ (Nat.lt_succ_self _) (Nat.zero_le _) (by decide)).andThen fun p₃ h₃ => ?_
    · rw [List.length_append, hbefore]
      omega
    rw [h₃.depth]
    refine ⟨'[' :: inner ++ [']'], ?_, ((h₃.extend hended).extend (by decide)).atDepth depth⟩
    rw [ValuePrints]
    exact ⟨inner, rfl, hinner⟩
  | .object members, depth, before, p, hprintable, h, hlimit => by
    rw [Printable] at hprintable
    rw [reserveValue] at hlimit
    rw [printValue, if_pos hformat]
    refine (emit_at h 3 ['{', '\n'] (by omega) (Nat.le_succ _) rfl).andThen fun p₁ h₁ => ?_
    have hbefore : (before ++ ['{', '\n']).length = before.length + 2 := List.length_append
    rw [h₁.depth]
    refine (printMembers_ends hformat hprintable (h₁.atDepth (depth + 1)) (by omega)).andThen
      fun p₂ ⟨inner, hinner, hended, h₂⟩ => ?_
    rw [hbefore] at hinner
    have hlength := hinner.length_le
    have htabs : tabs pr depth = List.replicate depth '\t' := if_pos hformat
    have hclosing : tabs pr (p₂.depth - 1) ++ ['}', nul] = tabs pr depth ++ ['}'] ++ [nul] := by
      rw [h₂.depth, List.append_assoc]
      rfl
    rw [if_pos hformat, hclosing, h₂.depth]
    refine (emit_shows h₂ (depth + 1 + 1) (tabs pr depth ++ ['}']) ?_ ?_ (Nat.zero_le _) ?_).andThen fun p₃ h₃ => ?_
    · rw [List.length_append, hbefore]
      omega
    · rw [List.length_append, htabs, List.length_replicate, List.length_singleton]
      omega
    · rw [List.mem_append, not_or]
      exact ⟨nul_not_mem_tabs pr depth, by decide⟩
    rw [h₃.depth]
    refine ⟨['{', '\n'] ++ (inner ++ (tabs pr depth ++ ['}'])), ?_,
      ((h₃.extend hended).extend (by decide)).atDepth depth⟩
    rw [ValuePrints]
    refine ⟨inner, ?_, hinner⟩
    rw [htabs]
    simp only [List.cons_append, List.nil_append, List.append_assoc]

/-- **Items are printed**. -/
theorem printItems_ends (hformat : pr.format = true) : ∀ {items : List CJson} {depth : ℕ} {before : List Char}
    {p : PrintBuffer}, PrintableItems items → At zone before depth p → before.length + reserveItems depth items + 2 ≤ limit →
    pr.Ends limit (fun p' => ∃ text, ItemsPrint zone before.length depth items text ∧ nul ∉ text ∧
      At zone (before ++ text) depth p') (printItems pr items p)
  | [], depth, before, p, _, h, _ => by
    rw [printItems]
    refine ⟨[], ?_, List.not_mem_nil, ?_⟩
    · rw [ItemsPrint]
    · rwa [List.append_nil]
  | item :: items, depth, before, p, hprintable, h, hlimit => by
    rw [PrintableItems] at hprintable
    rw [reserveItems] at hlimit
    rw [printItems]
    refine (printValue_ends hformat hprintable.1 h (by omega)).andThen fun p₁ ⟨first, hfirst, h₁⟩ => ?_
    obtain ⟨p₂, hupdate, h₂, -⟩ := updateOffset_of_shows h₁
    have hlength := hfirst.length_le
    have hseparator : separator pr items.isEmpty = if items.isEmpty then [] else [',', ' '] := by
      rw [separator, if_pos hformat]
    have hroom : (separator pr items.isEmpty).length ≤ 2 := by
      rw [hseparator]
      split_ifs
      · exact Nat.zero_le _
      · exact le_rfl
    have hunended : nul ∉ first ++ separator pr items.isEmpty := by
      rw [List.mem_append, not_or, hseparator]
      exact ⟨h₁.unended, by split_ifs <;> decide⟩
    rw [hupdate, Printing.andThen]
    dsimp only
    -- behind the separator, if there is one
    have hnext : pr.Ends limit (At zone (before ++ (first ++ separator pr items.isEmpty)) depth)
        (if items.isEmpty then .done p₂ else p₂.emit pr ((separator pr items.isEmpty).length + 1)
          (separator pr items.isEmpty ++ [nul]) (separator pr items.isEmpty).length) := by
      by_cases hlast : items.isEmpty
      · rw [if_pos hlast, hseparator, if_pos hlast, List.append_nil]
        exact h₂
      · rw [if_neg hlast, ← List.append_assoc]
        refine emit_at_ended h₂ _ _ ?_ (Nat.lt_succ_self _) rfl
        rw [List.length_append]
        omega
    refine hnext.andThen fun p₃ h₃ => ?_
    refine (printItems_ends hformat hprintable.2 h₃ ?_).mono fun p₄ ⟨rest, hrest, hended, h₄⟩ => ?_
    · simp only [List.length_append]
      omega
    refine ⟨first ++ separator pr items.isEmpty ++ rest, ?_, ?_, ?_⟩
    · rw [ItemsPrint, ← hseparator]
      refine ⟨first, rest, rfl, hfirst, ?_⟩
      rwa [List.length_append] at hrest
    · rw [List.mem_append, not_or]
      exact ⟨hunended, hended⟩
    · rwa [← List.append_assoc]

/-- **Members are printed**. -/
theorem printMembers_ends (hformat : pr.format = true) : ∀ {members : List (String × CJson)} {depth : ℕ}
    {before : List Char} {p : PrintBuffer}, PrintableMembers members → At zone before depth p →
    before.length + reserveMembers depth members + 2 ≤ limit →
    pr.Ends limit (fun p' => ∃ text, MembersPrint zone before.length depth members text ∧ nul ∉ text ∧
      At zone (before ++ text) depth p') (printMembers pr members p)
  | [], depth, before, p, _, h, _ => by
    rw [printMembers]
    refine ⟨[], ?_, List.not_mem_nil, ?_⟩
    · rw [MembersPrint]
    · rwa [List.append_nil]
  | member :: members, depth, before, p, hprintable, h, hlimit => by
    rw [PrintableMembers] at hprintable
    rw [reserveMembers] at hlimit
    rw [printMembers]
    refine (printMember_ends hformat hprintable.1 h (by omega)).andThen fun p₁ ⟨first, hfirst, h₁⟩ => ?_
    obtain ⟨p₂, hupdate, h₂, -⟩ := updateOffset_of_shows h₁
    have hlength := hfirst.length_le
    rw [hupdate, Printing.andThen, if_pos hformat]
    dsimp only
    have hroom : (if members.isEmpty then [] else [',']).length ≤ 1 := by
      split_ifs
      · exact Nat.zero_le _
      · exact le_rfl
    have hunended : nul ∉ first ++ ((if members.isEmpty then [] else [',']) ++ ['\n']) := by
      rw [List.mem_append, not_or]
      exact ⟨h₁.unended, by split_ifs <;> decide⟩
    refine (emit_at_ended h₂ _ ((if members.isEmpty then [] else [',']) ++ ['\n']) ?_ (Nat.lt_succ_self _)
      rfl).andThen fun p₃ h₃ => ?_
    · simp only [List.length_append, List.length_singleton]
      omega
    rw [List.append_assoc] at h₃
    refine (printMembers_ends hformat hprintable.2 h₃ ?_).mono fun p₄ ⟨rest, hrest, hended, h₄⟩ => ?_
    · simp only [List.length_append, List.length_singleton]
      omega
    refine ⟨first ++ ((if members.isEmpty then [] else [',']) ++ ['\n']) ++ rest, ?_, ?_, ?_⟩
    · rw [MembersPrint]
      refine ⟨first, rest, ?_, hfirst, ?_⟩
      · simp only [List.append_assoc, List.singleton_append]
      · rwa [List.length_append, ← List.append_assoc, List.length_append, ← Nat.add_assoc] at hrest
    · rw [List.mem_append, not_or]
      exact ⟨hunended, hended⟩
    · rwa [← List.append_assoc]

/-- **A member is printed**. -/
theorem printMember_ends (hformat : pr.format = true) : ∀ {member : String × CJson} {depth : ℕ} {before : List Char}
    {p : PrintBuffer}, PrintableMember member → At zone before depth p →
    before.length + reserveMember depth member + 2 ≤ limit →
    pr.Ends limit (fun p' => ∃ text, MemberPrints zone before.length depth member text ∧ Shows zone before text depth p')
      (printMember pr member p)
  | (key, value), depth, before, p, hprintable, h, hlimit => by
    rw [PrintableMember] at hprintable
    rw [reserveMember] at hlimit
    have htabs : tabs pr depth = List.replicate depth '\t' := if_pos hformat
    have hwidth : (tabs pr depth).length = depth := by rw [htabs, List.length_replicate]
    rw [printMember, if_pos hformat, h.depth]
    refine (emit_at h depth (tabs pr depth) (by omega) hwidth.le hwidth).andThen fun p₁ h₁ => ?_
    have hbefore : (before ++ tabs pr depth).length = before.length + depth := by rw [List.length_append, hwidth]
    refine (printStringPtr_ends h₁ hprintable.1 (by omega)).andThen fun p₂ ⟨name, hname, h₂⟩ => ?_
    obtain ⟨p₃, hupdate, h₃, -⟩ := updateOffset_of_shows h₂
    have hlength := hname.length_le
    rw [hupdate, Printing.andThen, if_pos hformat]
    dsimp only
    refine (emit_at h₃ 2 [':', '\t'] ?_ le_rfl rfl).andThen fun p₄ h₄ => ?_
    · simp only [List.length_append, hwidth]
      omega
    refine (printValue_ends hformat hprintable.2 h₄ ?_).mono fun p₅ ⟨rest, hrest, h₅⟩ => ?_
    · simp only [List.length_append, List.length_cons, List.length_nil, hwidth]
      omega
    rw [List.append_assoc, List.append_assoc] at h₅
    refine ⟨tabs pr depth ++ (name ++ [':', '\t']) ++ rest, ?_, h₅.extend ?_⟩
    · rw [MemberPrints, htabs]
      refine ⟨name, rest, ?_, hbefore ▸ hname, ?_⟩
      · simp only [List.append_assoc, List.cons_append, List.nil_append]
      · simpa only [List.length_append, List.length_cons, List.length_nil, hwidth] using hrest
    · simp only [List.mem_append, not_or]
      exact ⟨nul_not_mem_tabs pr depth, h₂.unended, by decide⟩

end

end Values

end PrintBuffer

end Ends

/-! ### Printing as a whole -/

section Print

variable {grants : ℕ → Bool} {fresh : ℕ → ℕ → Char} {v : CJson}

/-- The buffer that `print` begins with. -/
theorem first_at : PrintBuffer.At 256 [] 0 ⟨List.replicate 256 nul, 0, 0, 1⟩ := by
  refine ⟨rfl, rfl, by rw [List.length_replicate], List.replicate 256 nul, rfl, by decide, ?_⟩
  intro i c hc _
  exact (List.mem_replicate.1 (List.mem_of_getElem? hc)).2

theorem takeWhile_unended {text rest : List Char} (h : nul ∉ text) :
    ((text ++ nul :: rest).take (text.length + 1)).takeWhile (· != nul) = text := by
  have hall : ∀ c ∈ text, (c != nul) = true := fun c hc => bne_iff_ne.2 fun heq => h (heq ▸ hc)
  rw [List.take_append, List.take_of_length_le (Nat.le_succ _), Nat.add_sub_cancel_left,
    List.takeWhile_append_of_pos hall]
  exact List.append_nil text

/-- **Printing is safe**: the printer stays in its buffer, and where no memory is refused and the text is not too large it
prints the value, up to the gaps behind its strings.  There are none in a text of less than 256 characters. -/
theorem loaderCJsonPrint_ends (grants : ℕ → Bool) (fresh : ℕ → ℕ → Char) (hprintable : Printable v) :
    (loaderCJsonPrint grants fresh v = some (true, none) ∧ ∃ n, grants n = false) ∨
    (loaderCJsonPrint grants fresh v = some (false, none) ∧ intMax < reserveValue 0 v + 2) ∨
    ∃ text, loaderCJsonPrint grants fresh v = some (false, some text) ∧ ValuePrints 256 0 0 v text ∧
      (IsPlain 256 (CJson.printValue 0 v).length (strings v) → text = CJson.printValue 0 v) := by
  unfold loaderCJsonPrint printJson
  by_cases hfirst : grants 0
  · rw [if_pos hfirst]
    have hends := PrintBuffer.printValue_ends (show (Printer.mk true false grants fresh).format = true from rfl) hprintable
      first_at (by rw [List.length_nil, Nat.zero_add])
    rcases hresult : (PrintBuffer.mk (List.replicate 256 nul) 0 0 1).printValue ⟨true, false, grants, fresh⟩ v with
      p | outOfMemory | _
    · rw [hresult] at hends
      obtain ⟨text, htext, hshows⟩ := hends
      obtain ⟨p', hupdate, hat, rest, hbuffer⟩ := PrintBuffer.updateOffset_of_shows hshows
      rw [Printing.andThen, hupdate]
      dsimp only
      by_cases hlast : grants p'.requests
      · rw [if_pos hlast, hat.offset, hbuffer, List.nil_append, takeWhile_unended hshows.unended]
        exact .inr (.inr ⟨text, rfl, htext, fun hplain => htext.eq_of_plain (by rwa [List.length_nil, Nat.zero_add])⟩)
      · rw [if_neg hlast]
        exact .inl ⟨rfl, _, Bool.not_eq_true _ ▸ hlast⟩
    · rw [hresult] at hends
      cases outOfMemory
      · refine .inr (.inl ⟨rfl, ?_⟩)
        rcases hends with hlarge | hnoalloc
        · exact hlarge
        · cases hnoalloc
      · exact .inl ⟨rfl, hends.2⟩
    · rw [hresult] at hends
      exact hends.elim
  · rw [if_neg hfirst]
    exact .inl ⟨rfl, 0, Bool.not_eq_true _ ▸ hfirst⟩

theorem loaderCJsonPrint_ends_array :
    loaderCJsonPrint (fun _ => true) (fun _ _ => 'x') (.array [.null, .string "a"]) =
      some (false, some "[null, a]".toList) := by
  obtain ⟨-, n, hn⟩ | ⟨-, hlarge⟩ | ⟨text, hprint, -, hexact⟩ := loaderCJsonPrint_ends (fun _ => true) (fun _ _ => 'x')
    (show Printable (.array [.null, .string "a"]) by simp only [Printable, PrintableItems]; decide)
  · cases hn
  · exact absurd hlarge (by simp only [reserveValue, reserveItems]; decide)
  · rw [hprint, hexact (.inl (by decide))]
    decide

open PrintBuffer (gapOf tailOf)

variable {input : String}

/-- What is behind a string that is too long for the first buffer. -/
theorem gapOf_grown (hlong : 256 ≤ (printString input).length) (hcontrol : endsControl input = false) {newsize : ℕ}
    (hsize : outputLength input ≤ newsize) (fresh : ℕ → ℕ → Char) :
    gapOf input (List.replicate 256 nul ++ (List.range (newsize - 256)).map fun i => fresh 1 (256 + i)) =
      (List.range (slack input)).map fun i => fresh 1 ((printString input).length + i) := by
  have hslack := length_add_slack input
  have hlength : (gapOf input
      (List.replicate 256 nul ++ (List.range (newsize - 256)).map fun i => fresh 1 (256 + i))).length = slack input := by
    simp only [gapOf, tailOf, hcontrol, Bool.false_eq_true, if_false, List.length_take, List.length_drop,
      List.length_append, List.length_replicate, List.length_map, List.length_range]
    omega
  apply List.ext_getElem
  · rw [hlength, List.length_map, List.length_range]
  · intro i hi _
    rw [hlength] at hi
    simp only [gapOf, tailOf, hcontrol, Bool.false_eq_true, if_false, List.getElem_take, List.getElem_drop,
      List.getElem_map, List.getElem_range]
    rw [List.getElem_append_right (by rw [List.length_replicate]; omega)]
    rw [List.getElem_map, List.getElem_range, List.length_replicate]
    exact congrArg (fresh 1) (by omega)

/-- **A long string** is followed by what the new memory held. -/
theorem loaderCJsonPrint_long (hinput : nul ∉ input.toList) (hlarge : outputLength input + 2 ≤ intMax)
    (hlong : 256 ≤ (printString input).length) (hcontrol : endsControl input = false) (fresh : ℕ → ℕ → Char) :
    loaderCJsonPrint (fun _ => true) fresh (.string input) = some (false, some (printString input ++
      ((List.range (slack input)).map fun i => fresh 1 ((printString input).length + i)).takeWhile (· != nul))) := by
  have hslack := length_add_slack input
  obtain ⟨newsize, hnew, hsize⟩ : ∃ newsize, newBufferSize (outputLength input + 1 + (0 + 1)) = some newsize ∧
      outputLength input + 2 ≤ newsize := by
    unfold newBufferSize
    split_ifs
    · exact ⟨_, rfl, hlarge⟩
    · exact ⟨_, rfl, by omega⟩
  -- the buffer is made larger
  have hensure : (PrintBuffer.mk (List.replicate 256 nul) 0 0 1).ensure ⟨true, false, fun _ => true, fresh⟩
      (outputLength input + 1) = .done ((PrintBuffer.mk (List.replicate 256 nul) 0 0 1).grown
        ⟨true, false, fun _ => true, fresh⟩ newsize) := by
    unfold PrintBuffer.ensure
    dsimp only
    rw [List.length_replicate, if_neg (by decide), if_neg (by omega), if_neg (by omega), if_neg Bool.false_ne_true, hnew]
    rfl
  have hgrown : ((PrintBuffer.mk (List.replicate 256 nul) 0 0 1).grown
      ⟨true, false, fun _ => true, fresh⟩ newsize).buffer =
      [] ++ (List.replicate 256 nul ++ (List.range (newsize - 256)).map fun i => fresh 1 (256 + i)) := by
    rw [List.nil_append, PrintBuffer.grown, List.length_replicate]
  -- the string is written, and the text ends where the gap has its first zero
  have hroom : outputLength input < (List.replicate 256 nul ++
      (List.range (newsize - 256)).map fun i => fresh 1 (256 + i)).length := by
    simp only [List.length_append, List.length_replicate, List.length_map, List.length_range]
    omega
  have hwrite := PrintBuffer.writeString_done hgrown rfl hroom
  rw [gapOf_grown hlong hcontrol (by omega) fresh] at hwrite
  obtain ⟨rest, hrest⟩ := PrintBuffer.exists_unended
    ((List.range (slack input)).map fun i => fresh 1 ((printString input).length + i))
    ((List.replicate 256 nul ++ (List.range (newsize - 256)).map fun i => fresh 1 (256 + i)).drop
      (outputLength input + 1))
  rw [hrest, ← List.append_assoc, List.append_assoc []] at hwrite
  have hunended : nul ∉ printString input ++
      ((List.range (slack input)).map fun i => fresh 1 ((printString input).length + i)).takeWhile (· != nul) := by
    rw [List.mem_append, not_or]
    exact ⟨nul_not_mem_printString hinput, PrintBuffer.nul_not_mem_takeWhile _⟩
  unfold loaderCJsonPrint printJson
  rw [if_pos rfl, PrintBuffer.printValue, PrintBuffer.printStringPtr, hensure, Printing.andThen, hwrite, Printing.andThen,
    PrintBuffer.updateOffset_done (Nat.zero_le _) rfl hunended rfl]
  dsimp only
  rw [if_pos rfl, List.length_nil, Nat.zero_add, List.nil_append, takeWhile_unended hunended]

/-- **What a string is printed as** depends on the new memory, but for short strings and those that leave no gap. -/
theorem loaderCJsonPrint_string_iff (hinput : nul ∉ input.toList) (hlarge : outputLength input + 2 ≤ intMax) :
    (∀ fresh, loaderCJsonPrint (fun _ => true) fresh (.string input) = some (false, some (printString input))) ↔
      (printString input).length < 256 ∨ Gapless input := by
  constructor
  · intro hall
    by_contra hgap
    rw [not_or, Gapless, not_or, not_lt, Bool.not_eq_true] at hgap
    have hlong := (hall fun _ _ => 'x').symm.trans (loaderCJsonPrint_long hinput hlarge hgap.1 hgap.2.2 _)
    have htext := Option.some.inj (Prod.mk.inj (Option.some.inj hlong)).2
    obtain ⟨n, hn⟩ := Nat.exists_eq_succ_of_ne_zero hgap.2.1
    rw [List.self_eq_append_right, hn, List.range_succ_eq_map, List.map_cons, List.takeWhile_cons_of_pos (by decide)] at htext
    cases htext
  · intro hplain fresh
    obtain ⟨-, n, hn⟩ | ⟨-, hmax⟩ | ⟨text, hprint, -, hexact⟩ :=
      loaderCJsonPrint_ends (v := .string input) (fun _ => true) fresh (by rwa [Printable])
    · cases hn
    · rw [reserveValue] at hmax
      omega
    · rw [hprint, hexact]
      · rw [CJson.printValue]
      · rw [CJson.printValue, strings]
        exact hplain.imp_right fun hgapless s hs => List.mem_singleton.1 hs ▸ hgapless

/-- A string with a quotation mark in it. -/
def quoteAnd (n : ℕ) : String := String.ofList ('"' :: List.replicate (n + 1) 'a')

theorem length_quoteAnd (n : ℕ) :
    (printString (quoteAnd n)).length = n + 2 ∧ outputLength (quoteAnd n) = n + 3 := by
  have hquote : printChar '"' = ['"'] ∧ charRoom '"' = 2 := by decide
  have hletter : printChar 'a' = ['a'] ∧ charRoom 'a' = 1 := by decide
  constructor
  · rw [printString, quoteAnd, String.toList_ofList, List.flatMap_cons, List.length_append, List.length_flatMap,
      List.map_replicate, List.sum_replicate_nat, hquote.1, hletter.1, List.length_singleton, List.length_singleton]
    omega
  · rw [outputLength_eq, quoteAnd, String.toList_ofList, List.map_cons, List.sum_cons, List.map_replicate,
      List.sum_replicate_nat, hquote.2, hletter.2]
    omega

theorem not_gapless_quoteAnd (n : ℕ) : ¬ Gapless (quoteAnd n) := by
  have hlast : (quoteAnd n).toList.getLast? = some 'a' := by
    rw [quoteAnd, String.toList_ofList, List.getLast?_cons, List.getLast?_replicate, if_neg n.succ_ne_zero]
    rfl
  rw [Gapless, slack, (length_quoteAnd n).1, (length_quoteAnd n).2, endsControl, hlast, not_or]
  exact ⟨by omega, by decide⟩

theorem nul_not_mem_quoteAnd (n : ℕ) : nul ∉ (quoteAnd n).toList := by
  rw [quoteAnd, String.toList_ofList, List.mem_cons, List.mem_replicate, not_or, not_and_or]
  exact ⟨by decide, .inr (by decide)⟩

theorem loaderCJsonPrint_string_iff_quoteAnd : ¬ ∀ fresh,
    loaderCJsonPrint (fun _ => true) fresh (.string (quoteAnd 255)) = some (false, some (printString (quoteAnd 255))) := by
  obtain ⟨hlength, hroom⟩ := length_quoteAnd 255
  rw [loaderCJsonPrint_string_iff (nul_not_mem_quoteAnd 255) (by rw [hroom]; decide), hlength, not_or]
  exact ⟨by decide, not_gapless_quoteAnd 255⟩

/-! ### Printing into an array -/

theorem PrintBuffer.gapOf_replicate (input : String) (n : ℕ) :
    ∃ k, gapOf input (List.replicate n nul) = List.replicate k nul := by
  unfold gapOf tailOf
  split_ifs
  · rw [List.drop_replicate, ← List.replicate_succ, List.take_replicate]
    exact ⟨_, rfl⟩
  · rw [List.drop_replicate, List.take_replicate]
    exact ⟨_, rfl⟩

/-- A string fits into an array with a byte to spare behind its room. -/
theorem ensure_preallocated {n : ℕ} (hn : n ≤ intMax) (format : Bool) :
    (PrintBuffer.mk (List.replicate n nul) 0 0 0).ensure ⟨format, true, fun _ => false, fun _ _ => nul⟩
        (outputLength input + 1) =
      if outputLength input + 2 ≤ n then .done (PrintBuffer.mk (List.replicate n nul) 0 0 0) else .failed false := by
  unfold PrintBuffer.ensure
  dsimp only
  rw [List.length_replicate]
  by_cases hfits : outputLength input + 2 ≤ n
  · rw [if_neg (by omega), if_neg (by omega), if_pos (by omega), if_pos hfits]
  · rw [if_neg (by omega)]
    by_cases hlarge : outputLength input + 1 > intMax
    · rw [if_pos hlarge, if_neg hfits]
    · rw [if_neg hlarge, if_neg hfits, if_pos rfl, if_neg hfits]

/-- **A string is printed into an array of zeros**: the array holds what is taken for the string, if it is one. -/
theorem loaderCJsonPrintPreallocated_string (hinput : nul ∉ input.toList) {n : ℕ} (hn : n ≤ intMax) {object : CJson}
    {key : String} (hitem : object.getObjectItem key = some (.string input)) (format : Bool) :
    (loaderCJsonPrintPreallocated (.string input) (List.replicate n nul) format).map
        (Option.map fun buffer => String.ofList (buffer.takeWhile (· != nul))) =
      some (loaderParseJsonStringToExistingStr object key n) := by
  unfold loaderCJsonPrintPreallocated loaderParseJsonStringToExistingStr
  rw [hitem, PrintBuffer.printValue, PrintBuffer.printStringPtr, ensure_preallocated hn]
  dsimp only
  split_ifs with hfits
  · have hwrite := @PrintBuffer.writeString_done [] (List.replicate n nul) input
      (PrintBuffer.mk (List.replicate n nul) 0 0 0) rfl rfl (by rw [List.length_replicate]; omega)
    obtain ⟨k, hgap⟩ := PrintBuffer.gapOf_replicate input n
    obtain ⟨rest, hrest⟩ := PrintBuffer.exists_unended (List.replicate k nul)
      ((List.replicate n nul).drop (outputLength input + 1))
    have hnone : (List.replicate k nul).takeWhile (· != nul) = [] := by cases k <;> rfl
    rw [hnone, List.nil_append] at hrest
    have htext : ∀ c ∈ printString input, (c != nul) = true := fun c hc =>
      bne_iff_ne.2 fun heq => nul_not_mem_printString hinput (heq ▸ hc)
    rw [Printing.andThen, hwrite, hgap, hrest, List.nil_append]
    dsimp only
    rw [Option.map_some, Option.map_some, List.takeWhile_append_of_pos htext, CJson.print, CJson.printValue]
    simp
  · rfl

end Print

end VulkanLoader
