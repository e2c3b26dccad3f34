import VulkanLoader.Manifests.JsonText

/-!
# String literals of JSON

`parse_string` goes over a literal twice.  The first pass looks for the closing quote and counts the escapes, which says
how much to allocate; the second pass writes.  The two do not always agree on where an escape begins: the four bytes
after a `\u` are taken for digits by the second pass even where the first has seen an escape in them.  The block is large
enough all the same.
-/

namespace VulkanLoader

/-! ### What is between the quotes -/

/-- What the first pass goes over: a backslash takes the byte that follows with it. -/
inductive StringBody : List UInt8 → Prop where
  | nil : StringBody []
  | plain {c : UInt8} {s : List UInt8} : c ≠ ascii '"' → c ≠ ascii '\\' → StringBody s → StringBody (c :: s)
  | escape {c : UInt8} {s : List UInt8} : StringBody s → StringBody (ascii '\\' :: c :: s)

/-- The escapes that a pass from the left sees. -/
def escapes : List UInt8 → ℕ
  | [] => 0
  | [c] => if c = ascii '\\' then 1 else 0
  | c :: d :: s => if c = ascii '\\' then escapes s + 1 else escapes (d :: s)

/-- The bytes that a body stands for.  A backslash at its very end escapes the closing quote. -/
inductive Unescapes : List UInt8 → List UInt8 → Prop where
  | nil : Unescapes [] []
  | plain {c : UInt8} {s t : List UInt8} : c ≠ ascii '\\' → Unescapes s t → Unescapes (c :: s) (c :: t)
  | short {e c : UInt8} {s t : List UInt8} :
      shortEscape e = some c → Unescapes s t → Unescapes (ascii '\\' :: e :: s) (c :: t)
  | unicode {n : ℕ} {s t bytes : List UInt8} :
      utf16LiteralToUtf8 (ascii '\\' :: ascii 'u' :: s) = some (n, bytes) →
      Unescapes ((ascii '\\' :: ascii 'u' :: s).drop n) t → Unescapes (ascii '\\' :: ascii 'u' :: s) (bytes ++ t)
  | last : Unescapes [ascii '\\'] [ascii '"']

theorem shortEscape_u : shortEscape (ascii 'u') = none := by decide

theorem Unescapes.unique {s t t' : List UInt8} (h : Unescapes s t) (h' : Unescapes s t') : t = t' := by
  induction h generalizing t' with
  | nil => cases h'; rfl
  | plain hc _ ih =>
    cases h' with
    | plain _ h' => rw [ih h']
    | short => exact absurd rfl hc
    | unicode => exact absurd rfl hc
    | last => exact absurd rfl hc
  | short he _ ih =>
    cases h' with
    | plain hc => exact absurd rfl hc
    | short he' h' =>
      rw [he] at he'
      rw [Option.some.inj he', ih h']
    | unicode => rw [shortEscape_u] at he; cases he
  | unicode hu _ ih =>
    cases h' with
    | plain hc => exact absurd rfl hc
    | short he => rw [shortEscape_u] at he; cases he
    | unicode hu' h' =>
      rw [hu] at hu'
      obtain ⟨rfl, rfl⟩ := Prod.mk.inj (Option.some.inj hu')
      rw [ih h']
  | last =>
    cases h' with
    | plain hc => exact absurd rfl hc
    | last => rfl

/-! ### How many escapes there are -/

theorem escapes_cons {c : UInt8} (hc : c ≠ ascii '\\') (s : List UInt8) : escapes (c :: s) = escapes s := by
  rcases s with _ | ⟨d, s⟩
  · exact if_neg hc
  · exact if_neg hc

theorem escapes_backslash (c : UInt8) (s : List UInt8) : escapes (ascii '\\' :: c :: s) = escapes s + 1 := by
  rw [escapes, if_pos rfl]

/-- A pass that begins a byte later sees no more escapes, and at most one less. -/
theorem escapes_tail (c : UInt8) (s : List UInt8) : escapes s ≤ escapes (c :: s) ∧ escapes (c :: s) ≤ escapes s + 1 := by
  by_cases hc : c = ascii '\\'
  · subst hc
    induction s with
    | nil => decide
    | cons d s ih =>
      rw [escapes_backslash]
      by_cases hd : d = ascii '\\'
      · subst hd
        omega
      · rw [escapes_cons hd]
        omega
  · rw [escapes_cons hc]
    omega

/-- The bytes that the second pass takes at once hold an escape for every two of them. -/
theorem escapes_append (l s : List UInt8) : 2 * escapes (l ++ s) ≤ l.length + 1 + 2 * escapes s := by
  match l with
  | [] => simp
  | [c] =>
    have htail := escapes_tail c s
    simp only [List.cons_append, List.nil_append, List.length_singleton]
    omega
  | c :: d :: l =>
    by_cases hc : c = ascii '\\'
    · have ih := escapes_append l s
      subst hc
      rw [List.cons_append, List.cons_append, escapes_backslash, List.length_cons, List.length_cons]
      omega
    · have ih := escapes_append (d :: l) s
      rw [List.cons_append, escapes_cons hc, List.length_cons]
      omega
  termination_by l.length

theorem escapes_le (s : List UInt8) : 2 * escapes s ≤ s.length + 1 := by
  have h := escapes_append s []
  rwa [List.append_nil] at h

/-! ### The first pass -/

theorem findStringEnd_quote (s : List UInt8) (inputEnd skipped : ℕ) :
    findStringEnd (ascii '"' :: s) inputEnd skipped = some (inputEnd, skipped) := by
  unfold findStringEnd
  exact if_pos rfl

theorem findStringEnd_plain {c : UInt8} (hquote : c ≠ ascii '"') (hback : c ≠ ascii '\\') (s : List UInt8)
    (inputEnd skipped : ℕ) :
    findStringEnd (c :: s) inputEnd skipped = findStringEnd s (inputEnd + 1) skipped := by
  rw [findStringEnd.eq_def]
  dsimp only
  rw [if_neg hquote, if_neg hback]

theorem findStringEnd_escape (c : UInt8) (s : List UInt8) (inputEnd skipped : ℕ) :
    findStringEnd (ascii '\\' :: c :: s) inputEnd skipped = findStringEnd s (inputEnd + 2) (skipped + 1) := by
  rw [findStringEnd.eq_def]
  dsimp only
  rw [if_neg (by decide), if_pos rfl]

theorem findStringEnd_body {body : List UInt8} (hbody : StringBody body) (r : List UInt8) (inputEnd skipped : ℕ) :
    findStringEnd (body ++ ascii '"' :: r) inputEnd skipped =
      some (inputEnd + body.length, skipped + escapes body) := by
  induction hbody generalizing inputEnd skipped with
  | nil => exact findStringEnd_quote r inputEnd skipped
  | @plain c s hquote hback _ ih =>
    rw [List.cons_append, findStringEnd_plain hquote hback, ih, escapes_cons hback, List.length_cons]
    congr 2
    omega
  | @escape c s _ ih =>
    rw [List.cons_append, List.cons_append, findStringEnd_escape, ih, escapes_backslash, List.length_cons,
      List.length_cons]
    congr 2 <;> omega

/-- **The first pass ends at the quote behind a body.** -/
theorem exists_body_of_findStringEnd {s : List UInt8} {inputEnd skipped : ℕ}
    (h : (findStringEnd s inputEnd skipped).isSome) : ∃ body r, StringBody body ∧ s = body ++ ascii '"' :: r := by
  fun_induction findStringEnd s inputEnd skipped with
  | case1 => cases h
  | case2 => exact ⟨[], _, .nil, rfl⟩
  | case3 => cases h
  | case4 inputEnd skipped c s _ ih =>
    obtain ⟨body, r, hbody, rfl⟩ := ih h
    exact ⟨_, r, .escape hbody, rfl⟩
  | case5 inputEnd skipped c s hquote hback ih =>
    obtain ⟨body, r, hbody, rfl⟩ := ih h
    exact ⟨_, r, .plain hquote hback hbody, rfl⟩

theorem findStringEnd_isSome_iff {s : List UInt8} {inputEnd skipped : ℕ} :
    (findStringEnd s inputEnd skipped).isSome ↔ ∃ body r, StringBody body ∧ s = body ++ ascii '"' :: r := by
  constructor
  · exact exists_body_of_findStringEnd
  · rintro ⟨body, r, hbody, rfl⟩
    rw [findStringEnd_body hbody, Option.isSome_some]

/-- A text has one body before its closing quote. -/
theorem StringBody.unique {body body' r r' : List UInt8} (hbody : StringBody body) (hbody' : StringBody body')
    (h : body ++ ascii '"' :: r = body' ++ ascii '"' :: r') : body = body' ∧ r = r' := by
  have hlength : body.length = body'.length := by
    have hfind := findStringEnd_body hbody r 0 0
    rw [h, findStringEnd_body hbody' r' 0 0] at hfind
    have hpair := Option.some.inj hfind
    simpa using (congrArg Prod.fst hpair).symm
  obtain ⟨hbodies, hrest⟩ := List.append_inj h hlength
  exact ⟨hbodies, (List.cons.inj hrest).2⟩

/-! ### UTF-16 literals -/

theorem length_utf8Tail (n codepoint : ℕ) (tail : List UInt8) :
    (utf8Tail n codepoint tail).2.length = n + tail.length := by
  induction n generalizing codepoint tail with
  | zero => exact (Nat.zero_add _).symm
  | succ n ih =>
    rw [utf8Tail, ih, List.length_cons]
    omega

theorem length_encodeUtf8 {utf8Length : ℕ} (h : 0 < utf8Length) (firstByteMark codepoint : ℕ) :
    (encodeUtf8 utf8Length firstByteMark codepoint).length = utf8Length := by
  unfold encodeUtf8
  dsimp only
  split_ifs
  all_goals
    rw [List.length_cons, length_utf8Tail, List.length_nil]
    omega

theorem hexDigit_lt {c : UInt8} {digit : ℕ} (h : hexDigit c = some digit) : digit < 16 := by
  have h0 : (ascii '0').toNat = 48 := by decide
  have h9 : (ascii '9').toNat = 57 := by decide
  have hA : (ascii 'A').toNat = 65 := by decide
  have hF : (ascii 'F').toNat = 70 := by decide
  have ha : (ascii 'a').toNat = 97 := by decide
  have hf : (ascii 'f').toNat = 102 := by decide
  unfold hexDigit at h
  split_ifs at h with hdigit hupper hlower
  all_goals
    obtain rfl := Option.some.inj h
    simp only [UInt8.le_iff_toNat_le] at *
    omega

/-- The number of four digits. -/
def hexNumber (x y z w : ℕ) : ℕ := x * 4096 + y * 256 + z * 16 + w

theorem parseHex4_digits {a b c d : UInt8} {x y z w : ℕ} (ha : hexDigit a = some x) (hb : hexDigit b = some y)
    (hc : hexDigit c = some z) (hd : hexDigit d = some w) (s : List UInt8) :
    parseHex4 (a :: b :: c :: d :: s) = hexNumber x y z w := by
  unfold parseHex4 hexNumber
  simp only [List.take_succ_cons, List.take_zero, parseHexDigits, ha, hb, hc, hd, Nat.shiftLeft_eq]
  simp
  omega

theorem parseHexDigits_lt {h i : ℕ} {cs : List UInt8} (hlength : i + cs.length ≤ 4) (hlast : h < 16 ^ 4)
    (hh : i < 4 → h + 16 ≤ 16 ^ (i + 1)) : parseHexDigits h i cs < 16 ^ 4 := by
  induction cs generalizing h i with
  | nil => exact hlast
  | cons c cs ih =>
    rw [List.length_cons] at hlength
    have hi : i < 4 := by omega
    have hbound := hh hi
    unfold parseHexDigits
    rcases hdigit : hexDigit c with _ | digit
    · exact Nat.pow_pos (by decide)
    · have hlt := hexDigit_lt hdigit
      -- the digits before the index `i` leave room for one more below `16 ^ (i + 1)`
      rcases (by omega : i = 0 ∨ i = 1 ∨ i = 2 ∨ i = 3) with rfl | rfl | rfl | rfl
      all_goals
        simp only [Nat.shiftLeft_eq] at *
        refine ih (by omega) ?_ fun _ => ?_
        all_goals
          simp at *
          try omega

theorem parseHex4_lt (input : List UInt8) : parseHex4 input < 16 ^ 4 :=
  parseHexDigits_lt (by rw [List.length_take]; omega) (by decide) fun _ => by decide

/-- **What `utf16_literal_to_utf8` takes and writes.** -/
theorem utf16LiteralToUtf8_bounds {input bytes : List UInt8} {n : ℕ}
    (h : utf16LiteralToUtf8 input = some (n, bytes)) :
    n ≤ input.length ∧ (n = 6 ∧ bytes.length ≤ 3 ∨ n = 12 ∧ bytes.length ≤ 4) := by
  obtain ⟨⟨codepoint, sequenceLength⟩, hliteral, hbytes⟩ := Option.bind_eq_some_iff.1 h
  -- a literal of one sequence has a code point below `16 ^ 4`
  have hsequence : sequenceLength ≤ input.length ∧ (sequenceLength = 6 ∧ codepoint < 16 ^ 4 ∨ sequenceLength = 12) := by
    have hlt := parseHex4_lt (input.drop 2)
    unfold utf16Literal at hliteral
    dsimp only at hliteral
    rw [List.length_drop] at hliteral
    split_ifs at hliteral with hlength hlow hhigh hsecond hback hcode
    · obtain ⟨-, rfl⟩ := Prod.mk.inj (Option.some.inj hliteral)
      exact ⟨by omega, .inr rfl⟩
    · obtain ⟨rfl, rfl⟩ := Prod.mk.inj (Option.some.inj hliteral)
      exact ⟨by omega, .inl ⟨rfl, hlt⟩⟩
  dsimp only at hbytes
  split_ifs at hbytes
  all_goals
    obtain ⟨rfl, rfl⟩ := Prod.mk.inj (Option.some.inj hbytes)
    rw [length_encodeUtf8 (by decide)]
    omega

/-! ### The second pass -/

namespace StringOutput

/-- A block that `bytes` have been written to, with zeros after them. -/
def written (bytes : List UInt8) (room : ℕ) : StringOutput := ⟨bytes ++ List.replicate room 0, bytes.length⟩

theorem write_written {more : List UInt8} {room : ℕ} (h : more.length ≤ room) (bytes : List UInt8) :
    (written bytes room).write more = some (written (bytes ++ more) (room - more.length)) := by
  unfold write written
  rw [if_pos (by simp only [List.length_append, List.length_replicate]; omega), List.take_left' rfl, List.drop_append,
    List.drop_eq_nil_of_le (Nat.le_add_right _ _), List.nil_append, List.drop_replicate, Nat.add_sub_cancel_left,
    List.length_append]

end StringOutput

/-- How the second pass ends for a body, after `out`: it has written what the body stands for and has room for the
terminator, or the body stands for nothing. -/
def PassEnds (inputEnd : ℕ) (body out : List UInt8) (result : Option (Bool × ℕ × StringOutput)) : Prop :=
  (∃ t room stop, Unescapes body t ∧ 0 < room ∧ result = some (true, stop, .written (out ++ t) room)) ∨
    (∀ t, ¬ Unescapes body t) ∧ ∃ stop output, stop ≤ inputEnd ∧ result = some (false, stop, output)

/-- A step of the second pass. -/
theorem PassEnds.step {inputEnd : ℕ} {body body' out pre : List UInt8} {result : Option (Bool × ℕ × StringOutput)}
    (h : PassEnds inputEnd body' (out ++ pre) result)
    (hstep : ∀ t, Unescapes body' t → Unescapes body (pre ++ t))
    (hback : ∀ t, Unescapes body t → ∃ t', Unescapes body' t') : PassEnds inputEnd body out result := by
  rcases h with ⟨t, room, stop, ht, hroom, hresult⟩ | ⟨hnone, hresult⟩
  · exact .inl ⟨pre ++ t, room, stop, hstep t ht, hroom, by rw [hresult, List.append_assoc]⟩
  · refine .inr ⟨fun t ht => ?_, hresult⟩
    obtain ⟨t', ht'⟩ := hback t ht
    exact hnone t' ht'

section SecondPass

variable {content : List UInt8} {inputEnd inputPointer : ℕ}

/-- What the second pass reads at a byte of the body. -/
theorem body_cons {c : UInt8} {s : List UInt8} (h : (content.take inputEnd).drop inputPointer = c :: s) :
    content[inputPointer]? = some c ∧ (content.take inputEnd).drop (inputPointer + 1) = s ∧
      inputPointer < inputEnd := by
  have hc : (content.take inputEnd)[inputPointer]? = some c := by
    rw [← List.head?_drop, h, List.head?_cons]
  rw [List.getElem?_take] at hc
  split_ifs at hc with hlt
  refine ⟨hc, ?_, hlt⟩
  rw [← List.tail_drop, h, List.tail_cons]

theorem unescape_end (h : inputEnd ≤ inputPointer) (rounds : ℕ) (output : StringOutput) :
    unescape content inputEnd rounds inputPointer output = some (true, inputPointer, output) := by
  rcases rounds with _ | rounds
  · rfl
  · exact if_neg (by omega)

theorem passEnds_nil (hbody : (content.take inputEnd).drop inputPointer = []) (hlength : inputEnd < content.length)
    (rounds : ℕ) (out : List UInt8) {room : ℕ} (hroom : 0 < room) :
    PassEnds inputEnd [] out (unescape content inputEnd rounds inputPointer (.written out room)) := by
  rw [List.drop_eq_nil_iff, List.length_take] at hbody
  rw [unescape_end (by omega)]
  exact .inl ⟨[], room, inputPointer, .nil, hroom, by rw [List.append_nil]⟩

/-- **The second pass.**  `room` is what the first pass has left for it. -/
theorem unescape_ends (hend : content[inputEnd]? = some (ascii '"')) (rounds : ℕ) (out : List UInt8) {room : ℕ}
    {body : List UInt8} (hbody : (content.take inputEnd).drop inputPointer = body)
    (hrounds : inputEnd ≤ inputPointer + rounds) (hroom : body.length + 2 ≤ room + escapes body) :
    PassEnds inputEnd body out (unescape content inputEnd rounds inputPointer (.written out room)) := by
  have hlength : inputEnd < content.length := (List.getElem?_eq_some_iff.1 hend).1
  induction rounds generalizing inputPointer out room body with
  | zero =>
    obtain rfl : body = [] := by
      rw [← hbody, List.drop_eq_nil_iff, List.length_take]
      omega
    exact passEnds_nil hbody hlength 0 out (by simp only [List.length_nil, escapes] at hroom; omega)
  | succ rounds ih =>
    rcases body with _ | ⟨c, s⟩
    · exact passEnds_nil hbody hlength _ out (by simp only [List.length_nil, escapes] at hroom; omega)
    obtain ⟨hc, hs, hlt⟩ := body_cons hbody
    have hhalf := escapes_le s
    rw [List.length_cons] at hroom
    rw [unescape, if_pos hlt, hc, Option.bind_some]
    by_cases hback : c = ascii '\\'
    · subst hback
      rw [if_neg (by simp)]
      rcases s with _ | ⟨e, s⟩
      · -- the backslash is the last byte of the body, and the closing quote comes next
        have hlast : inputPointer + 1 = inputEnd := by
          rw [List.drop_eq_nil_iff, List.length_take] at hs
          omega
        have hescapes : escapes [ascii '\\'] = 1 := by decide
        have hquote : shortEscape (ascii '"') = some (ascii '"') := by decide
        rw [hescapes, List.length_nil] at hroom
        rw [hlast, hend, Option.bind_some, hquote]
        dsimp only
        rw [StringOutput.write_written (by simp; omega), Option.bind_some, unescape_end (by omega)]
        exact .inl ⟨_, _, _, .last, by simp; omega, rfl⟩
      obtain ⟨he, hs', hlt'⟩ := body_cons hs
      have hhalf' := escapes_le s
      rw [escapes_backslash, List.length_cons] at hroom
      rw [he, Option.bind_some]
      rcases hshort : shortEscape e with _ | c
      · dsimp only
        by_cases hu : e = ascii 'u'
        · subst hu
          rw [if_pos rfl, hbody]
          rcases hutf : utf16LiteralToUtf8 (ascii '\\' :: ascii 'u' :: s) with _ | ⟨n, bytes⟩
          · refine .inr ⟨fun t ht => ?_, inputPointer, _, hlt.le, rfl⟩
            cases ht with
            | plain hc => exact hc rfl
            | short he => rw [hshort] at he; cases he
            | unicode hu => rw [hutf] at hu; cases hu
          · obtain ⟨hn, hsize⟩ := utf16LiteralToUtf8_bounds hutf
            have hrest := escapes_append ((ascii '\\' :: ascii 'u' :: s).take n) ((ascii '\\' :: ascii 'u' :: s).drop n)
            rw [List.take_append_drop, List.length_take, min_eq_left hn, escapes_backslash] at hrest
            rw [List.length_cons, List.length_cons] at hn
            have hdrop : (content.take inputEnd).drop (inputPointer + n) = (ascii '\\' :: ascii 'u' :: s).drop n := by
              rw [← hbody, List.drop_drop]
            dsimp only
            rw [StringOutput.write_written (by omega), Option.bind_some]
            refine (ih _ hdrop (by omega) ?_).step (fun t ht => .unicode hutf ht) fun t ht => ?_
            · rw [List.length_drop, List.length_cons, List.length_cons]
              omega
            · cases ht with
              | plain hc => exact absurd rfl hc
              | short he => rw [hshort] at he; cases he
              | unicode hu ht =>
                rw [hutf] at hu
                obtain ⟨rfl, rfl⟩ := Prod.mk.inj (Option.some.inj hu)
                exact ⟨_, ht⟩
        · rw [if_neg hu]
          refine .inr ⟨fun t ht => ?_, inputPointer, _, hlt.le, rfl⟩
          cases ht with
          | plain hc => exact hc rfl
          | short he => rw [hshort] at he; cases he
          | unicode => exact hu rfl
      · dsimp only
        rw [StringOutput.write_written (by simp; omega), Option.bind_some]
        refine (ih _ hs' (by omega) (by simp; omega)).step (fun t ht => .short hshort ht) fun t ht => ?_
        cases ht with
        | plain hc => exact absurd rfl hc
        | short _ ht => exact ⟨_, ht⟩
        | unicode => rw [shortEscape_u] at hshort; cases hshort
    · rw [escapes_cons hback] at hroom
      rw [if_pos hback, StringOutput.write_written (by simp; omega), Option.bind_some]
      refine (ih _ hs (by omega) (by simp; omega)).step (fun t ht => .plain hback ht) fun t ht => ?_
      cases ht with
      | plain _ ht => exact ⟨_, ht⟩
      | short => exact absurd rfl hback
      | unicode => exact absurd rfl hback
      | last => exact absurd rfl hback

end SecondPass

end VulkanLoader
