import VulkanLoader.Manifests.JsonStrings
import Mathlib.Data.List.DropRight
import Mathlib.Data.List.TakeWhile

/-!
# The language of the parser of JSON

The language of `loader_cJSON_ParseWithLength`, as a relation between a text, the value that is read off its beginning
and what is left of the text.  It is wider than that of JSON: every byte up to 32 is a blank, a string may hold control
characters, a number is whatever `strtod` takes, and anything may follow the value.

The parts of the parser that read no value decide their parts of it.
-/

namespace VulkanLoader

open VulkanLoader.Lib HandleEvent

/-! ### The language -/

/-- A text after its blanks. -/
def afterBlanks (s : List UInt8) : List UInt8 := s.dropWhile isBlank

/-- A literal at the beginning of a text, and the bytes that it stands for. -/
def ReadsString (s bytes r : List UInt8) : Prop :=
  ∃ body, StringBody body ∧ s = ascii '"' :: (body ++ ascii '"' :: r) ∧ Unescapes body bytes

/-- What the bytes of a literal read as. -/
def literalText (bytes : List UInt8) : String := ExtensionArray.text (stringBytes bytes)

/-- A text that the parser takes for a number. -/
def StartsNumber (s : List UInt8) : Prop := ∃ c t, s = c :: t ∧ (c = ascii '-' ∨ isDigit c)

/-- The bytes that `strtod` converts at the beginning of a text. -/
def convertedBytes (s : List UInt8) : List UInt8 := (numberCString s).take (strtodLength (numberCString s))

mutual

/-- A value at the beginning of a text, `depth` arrays and objects below the root. -/
inductive Reads (number : NumberValue) : ℕ → List UInt8 → CJson → List UInt8 → Prop where
  | null {depth : ℕ} {s r : List UInt8} : s = nullBytes ++ r → Reads number depth s .null r
  | false {depth : ℕ} {s r : List UInt8} : s = falseBytes ++ r → Reads number depth s (.bool false) r
  | true {depth : ℕ} {s r : List UInt8} : s = trueBytes ++ r → Reads number depth s (.bool true) r
  | string {depth : ℕ} {s bytes r : List UInt8} :
      ReadsString s bytes r → Reads number depth s (.string (literalText bytes)) r
  | number {depth : ℕ} {s : List UInt8} :
      StartsNumber s → strtodLength (numberCString s) ≠ 0 →
      Reads number depth s (.number (number (convertedBytes s)).1 (number (convertedBytes s)).2)
        (s.drop (strtodLength (numberCString s)))
  | emptyArray {depth : ℕ} {s t r : List UInt8} :
      depth < cjsonNestingLimit → s = ascii '[' :: t → afterBlanks t = ascii ']' :: r →
      Reads number depth s (.array []) r
  | array {depth : ℕ} {s t r : List UInt8} {items : List CJson} :
      depth < cjsonNestingLimit → s = ascii '[' :: t → ReadsItems number (depth + 1) t items r →
      Reads number depth s (.array items) r
  | emptyObject {depth : ℕ} {s t r : List UInt8} :
      depth < cjsonNestingLimit → s = ascii '{' :: t → afterBlanks t = ascii '}' :: r →
      Reads number depth s (.object []) r
  | object {depth : ℕ} {s t r : List UInt8} {members : List (String × CJson)} :
      depth < cjsonNestingLimit → s = ascii '{' :: t → ReadsMembers number (depth + 1) t members r →
      Reads number depth s (.object members) r

/-- The elements of an array, and the bracket that closes it. -/
inductive ReadsItems (number : NumberValue) : ℕ → List UInt8 → List CJson → List UInt8 → Prop where
  | last {depth : ℕ} {t u r : List UInt8} {item : CJson} :
      Reads number depth (afterBlanks t) item u → afterBlanks u = ascii ']' :: r →
      ReadsItems number depth t [item] r
  | more {depth : ℕ} {t u t' r : List UInt8} {item : CJson} {items : List CJson} :
      Reads number depth (afterBlanks t) item u → afterBlanks u = ascii ',' :: t' →
      ReadsItems number depth t' items r → ReadsItems number depth t (item :: items) r

/-- The members of an object, and the brace that closes it. -/
inductive ReadsMembers (number : NumberValue) : ℕ → List UInt8 → List (String × CJson) → List UInt8 → Prop where
  | last {depth : ℕ} {t key u u' w r : List UInt8} {value : CJson} :
      ReadsString (afterBlanks t) key u → afterBlanks u = ascii ':' :: u' →
      Reads number depth (afterBlanks u') value w → afterBlanks w = ascii '}' :: r →
      ReadsMembers number depth t [(literalText key, value)] r
  | more {depth : ℕ} {t key u u' w t' r : List UInt8} {value : CJson} {members : List (String × CJson)} :
      ReadsString (afterBlanks t) key u → afterBlanks u = ascii ':' :: u' →
      Reads number depth (afterBlanks u') value w → afterBlanks w = ascii ',' :: t' →
      ReadsMembers number depth t' members r →
      ReadsMembers number depth t ((literalText key, value) :: members) r

end

/-! ### How a run ends -/

namespace ParseBuffer

/-- The bytes from the offset on. -/
def rest (content : List UInt8) (b : ParseBuffer) : List UInt8 := content.drop b.offset

/-- From one state to a later one, the blocks that are held go from `held` to `held'`. -/
def Holds (held held' : Multiset ℕ) (b b' : ParseBuffer) : Prop := Turns held held' b.log b'.log

variable {held held' held'' : Multiset ℕ} {b b' b'' : ParseBuffer} {grants : ℕ → Bool} {block : ℕ}

theorem Holds.of_log_eq (h : b'.log = b.log) (held : Multiset ℕ) : Holds held held b b' :=
  ⟨[], by rw [h, List.append_nil], rfl⟩

theorem Holds.trans (h : Holds held held' b b') (h' : Holds held' held'' b' b'') : Holds held held'' b b'' :=
  Turns.trans h h'

theorem Holds.frame (h : Holds held held' b b') (frame : Multiset ℕ) : Holds (held + frame) (held' + frame) b b' :=
  Turns.frame h frame

/-- A request that is refused. -/
theorem calloc_none (h : b.calloc grants = (none, b')) :
    grants b.requests = false ∧ b' = { b with requests := b.requests + 1, outOfMemory := true } := by
  unfold calloc at h
  split_ifs at h with hgrant
  · cases (Prod.mk.inj h).1
  · exact ⟨Bool.eq_false_iff.2 hgrant, (Prod.mk.inj h).2.symm⟩

/-- A request that is granted. -/
theorem calloc_some (h : b.calloc grants = (some block, b')) :
    b' = { b with requests := b.requests + 1, log := b.log ++ [made block] } := by
  unfold calloc at h
  split_ifs at h
  · obtain ⟨hblock, hb⟩ := Prod.mk.inj h
    rw [← hb, Option.some.inj hblock]
  · cases (Prod.mk.inj h).1

theorem Holds.calloc (h : b.calloc grants = (some block, b')) (held : Multiset ℕ) :
    Holds held (block ::ₘ held) b b' := by
  rw [calloc_some h]
  exact Turns.made block held b.log

theorem Holds.free (blocks : List ℕ) (held : Multiset ℕ) : Holds (blocks + held) held b (b.free blocks) :=
  Turns.givenBack blocks held b.log

end ParseBuffer

open ParseBuffer

/-- How a part of the parser ends that started at `b` and is to read what `reads` says: with `result`, if it is `ok`. -/
structure ParseOutcome {τ : Type*} (content : List UInt8) (grants : ℕ → Bool) (reads : τ → List UInt8 → Prop)
    (held held' : Multiset ℕ) (b : ParseBuffer) (ok : Bool) (result : τ) (b' : ParseBuffer) : Prop where
  holds : Holds held held' b b'
  granted : (∀ i, grants i = true) → b'.outOfMemory = false
  refused : b'.outOfMemory = true → ok = false
  reading : b'.outOfMemory = false → ∀ v r, reads v r ↔ ok = true ∧ v = result ∧ r = b'.rest content
  bounds : ok = true → b.offset < b'.offset ∧ b'.offset ≤ content.length
  depth : ok = true → b'.depth = b.depth

theorem ParseOutcome.refusal {τ : Type*} {content : List UInt8} {grants : ℕ → Bool} {reads : τ → List UInt8 → Prop}
    {b b' b'' : ParseBuffer} {held held' : Multiset ℕ} (h : b.calloc grants = (none, b')) (hb : b''.outOfMemory = true)
    (hholds : Holds held held' b b'') (result : τ) :
    ParseOutcome content grants reads held held' b false result b'' where
  holds := hholds
  granted hall := absurd (hall b.requests) (by rw [(calloc_none h).1]; decide)
  refused _ := rfl
  reading hmemory := by rw [hb] at hmemory; cases hmemory
  bounds := nofun
  depth := nofun

/-- Nothing is read and nothing has been asked for. -/
theorem ParseOutcome.fail {τ : Type*} {content : List UInt8} {grants : ℕ → Bool} {reads : τ → List UInt8 → Prop}
    {b b' : ParseBuffer} {held held' : Multiset ℕ} (hholds : Holds held held' b b') (hmemory : b'.outOfMemory = false)
    (hreads : ∀ v r, ¬ reads v r) (result : τ) : ParseOutcome content grants reads held held' b false result b' where
  holds := hholds
  granted _ := hmemory
  refused _ := rfl
  reading _ v r := ⟨fun h => absurd h (hreads v r), nofun⟩
  bounds := nofun
  depth := nofun

/-- What comes before a part of the parser, and what is made of its result. -/
theorem ParseOutcome.after {τ τ' : Type*} {content : List UInt8} {grants : ℕ → Bool} {reads : τ → List UInt8 → Prop}
    {reads' : τ' → List UInt8 → Prop} {b b' b'' : ParseBuffer} {held held' held'' : Multiset ℕ} {ok : Bool}
    {result : τ} (h : ParseOutcome content grants reads held' held'' b' ok result b'') (f : τ → τ')
    (hholds : Holds held held' b b') (hoffset : b.offset ≤ b'.offset) (hdepth : b'.depth = b.depth)
    (hreads : ∀ v r, reads' v r ↔ ∃ w, reads w r ∧ v = f w) :
    ParseOutcome content grants reads' held held'' b ok (f result) b'' where
  holds := hholds.trans h.holds
  granted := h.granted
  refused := h.refused
  reading hmemory v r := by
    rw [hreads]
    constructor
    · rintro ⟨w, hw, rfl⟩
      obtain ⟨hok, rfl, hr⟩ := (h.reading hmemory w r).1 hw
      exact ⟨hok, rfl, hr⟩
    · rintro ⟨hok, rfl, hr⟩
      exact ⟨result, (h.reading hmemory result r).2 ⟨hok, rfl, hr⟩, rfl⟩
  bounds hok := ⟨hoffset.trans_lt (h.bounds hok).1, (h.bounds hok).2⟩
  depth hok := (h.depth hok).trans hdepth

/-- The result of a part that fails does not matter. -/
theorem ParseOutcome.of_fail {τ τ' : Type*} {content : List UInt8} {grants : ℕ → Bool} {reads : τ → List UInt8 → Prop}
    {reads' : τ' → List UInt8 → Prop} {b b' b'' b₁ : ParseBuffer} {held held' held'' : Multiset ℕ} {result : τ}
    (h : ParseOutcome content grants reads held' held'' b' false result b'') (hholds : Holds held held' b b')
    (hlog : b₁.log = b''.log) (hmemory : b₁.outOfMemory = b''.outOfMemory)
    (hreads : ∀ v r, reads' v r → ∃ w r', reads w r') (result' : τ') :
    ParseOutcome content grants reads' held held'' b false result' b₁ where
  holds := (hholds.trans h.holds).trans (.of_log_eq hlog _)
  granted hall := hmemory.trans (h.granted hall)
  refused _ := rfl
  reading hgranted v r := by
    refine ⟨fun hv => ?_, nofun⟩
    obtain ⟨w, r', hw⟩ := hreads v r hv
    cases ((h.reading (hmemory.symm.trans hgranted) w r').1 hw).1
  bounds := nofun
  depth := nofun

/-- Blocks that a part of the parser does not touch. -/
theorem ParseOutcome.frame {τ : Type*} {content : List UInt8} {grants : ℕ → Bool} {reads : τ → List UInt8 → Prop}
    {b b' : ParseBuffer} {held held' : Multiset ℕ} {ok : Bool} {result : τ}
    (h : ParseOutcome content grants reads held held' b ok result b') (frame : Multiset ℕ) :
    ParseOutcome content grants reads (held + frame) (held' + frame) b ok result b' :=
  { h with holds := h.holds.frame frame }

/-! ### Strings -/

section Strings

variable {content : List UInt8} {grants : ℕ → Bool} {item : CJsonItem} {b : ParseBuffer}

theorem stringBytes_terminated (t : List UInt8) (room : ℕ) :
    stringBytes (t ++ [0] ++ List.replicate room 0) = stringBytes t := by
  unfold stringBytes
  induction t with
  | nil => rfl
  | cons c t ih =>
    simp only [List.cons_append, List.takeWhile_cons]
    split_ifs
    · rw [ih]
    · rfl

/-- The fields of an item that have not been set. -/
def CJsonItem.IsBare (item : CJsonItem) : Prop := item.valuestring = none ∧ item.child = []

theorem CJsonItem.blocks_eq (item : CJsonItem) : item.blocks =
    chainBlocks item.child ++ stringBlock item.valuestring ++ stringBlock item.string ++ [item.block] := by
  cases item
  rfl

/-- What a literal reads as. -/
def ReadsText (s : List UInt8) (text : String) (r : List UInt8) : Prop :=
  ∃ bytes, ReadsString s bytes r ∧ text = literalText bytes

theorem ReadsString.unique {s bytes bytes' r r' : List UInt8} (h : ReadsString s bytes r)
    (h' : ReadsString s bytes' r') : bytes = bytes' ∧ r = r' := by
  obtain ⟨body, hbody, rfl, ht⟩ := h
  obtain ⟨body', hbody', hs, ht'⟩ := h'
  obtain ⟨rfl, rfl⟩ := hbody.unique hbody' (List.cons.inj hs).2
  exact ⟨ht.unique ht', rfl⟩

/-- A literal that is closed. -/
theorem parseString_body (hmemory : b.outOfMemory = false) (hitem : item.IsBare) {body r : List UInt8}
    (hbody : StringBody body) (hquote : content[b.offset]? = some (ascii '"'))
    (hs : content.drop (b.offset + 1) = body ++ ascii '"' :: r)
    (hrest : b.rest content = ascii '"' :: (body ++ ascii '"' :: r)) :
    ∃ ok item' b', parseString content grants item b = some (ok, item', b') ∧
      (ok = false → item' = item) ∧ (ok = true → ∃ v, item' = { item with type := .string, valuestring := some v }) ∧
      ParseOutcome content grants (ReadsText (b.rest content)) item.blocks item'.blocks b ok
        (CJsonItem.stringText item'.valuestring) b' := by
  unfold parseString
  rw [hquote, Option.bind_some]
  dsimp only
  rw [if_neg (by simp), hs, findStringEnd_body hbody]
  dsimp only
  rcases hcalloc : b.calloc grants with ⟨_ | block, b'⟩
  · obtain ⟨-, rfl⟩ := calloc_none hcalloc
    refine ⟨false, item, _, rfl, fun _ => rfl, fun h => absurd h (by decide), ?_⟩
    exact .refusal hcalloc (by rfl) (by exact .of_log_eq rfl _) _
  · obtain rfl := calloc_some hcalloc
    have hblock := Holds.calloc hcalloc (item.blocks : Multiset ℕ)
    set inputEnd := b.offset + 1 + body.length with hinputEnd
    have hquote' : content[inputEnd]? = some (ascii '"') := by
      rw [← List.head?_drop, hinputEnd, ← List.drop_drop, hs, List.drop_left' rfl, List.head?_cons]
    have hbody' : (content.take inputEnd).drop (b.offset + 1) = body := by
      rw [List.drop_take, hs, hinputEnd, Nat.add_sub_cancel_left, List.take_left' rfl]
    have hescapes := escapes_le body
    rcases unescape_ends hquote' (inputEnd - (b.offset + 1)) [] hbody' (by omega)
      (show body.length + 2 ≤ inputEnd - b.offset - (0 + escapes body) + 1 + escapes body by omega) with
      ⟨t, room, stop, ht, hroom, hresult⟩ | ⟨hnone, stop, output, -, hresult⟩
    · obtain ⟨room, rfl⟩ := Nat.exists_eq_succ_of_ne_zero hroom.ne'
      have hwrite : (StringOutput.written t (room + 1)).write [0] = some ⟨t ++ [0] ++ List.replicate room 0, _⟩ :=
        StringOutput.write_written (by simp) t
      refine ⟨true, { item with type := .string, valuestring := some (block, t ++ [0] ++ List.replicate room 0) },
        ⟨inputEnd + 1, b.depth, b.requests + 1, b.log ++ [made block], b.outOfMemory⟩, ?_, fun h => absurd h (by decide),
        fun _ => ⟨_, rfl⟩, ?_⟩
      · dsimp only
        rw [show unescape content inputEnd (inputEnd - (b.offset + 1)) (b.offset + 1)
          ⟨List.replicate (inputEnd - b.offset - (0 + escapes body) + 1) 0, 0⟩ = _ from hresult, Option.bind_some,
          List.nil_append]
        dsimp only
        rw [hwrite]
        rfl
      · have hr : r = content.drop (inputEnd + 1) := by
          rw [hinputEnd, ← List.drop_drop, ← List.drop_drop, hs, List.drop_left' rfl]
          rfl
        have htext : CJsonItem.stringText (some (block, t ++ [0] ++ List.replicate room 0)) = literalText t :=
          congrArg ExtensionArray.text (stringBytes_terminated t room)
        have hreads : ReadsString (b.rest content) t r := ⟨body, hbody, hrest, ht⟩
        refine ⟨?_, fun _ => hmemory, fun h => ?_, fun _ v r' => ?_, fun _ => ?_, fun _ => rfl⟩
        · rw [CJsonItem.blocks_eq, CJsonItem.blocks_eq, hitem.1, hitem.2] at *
          exact hblock
        · rw [hmemory] at h
          cases h
        · constructor
          · rintro ⟨bytes, hbytes, rfl⟩
            obtain ⟨rfl, rfl⟩ := hbytes.unique hreads
            exact ⟨rfl, htext.symm, hr⟩
          · rintro ⟨-, rfl, rfl⟩
            rw [hr] at hreads
            exact ⟨t, hreads, htext⟩
        · have hlength := congrArg List.length hs
          simp only [List.length_drop, List.length_append, List.length_cons] at hlength
          dsimp only
          omega
    · refine ⟨false, item,
        ⟨stop, b.depth, b.requests + 1, b.log ++ [made block] ++ [givenBack block], b.outOfMemory⟩, ?_,
        fun _ => rfl, fun h => absurd h (by decide), ?_⟩
      · dsimp only
        rw [show unescape content inputEnd (inputEnd - (b.offset + 1)) (b.offset + 1)
          ⟨List.replicate (inputEnd - b.offset - (0 + escapes body) + 1) 0, 0⟩ = _ from hresult, Option.bind_some]
        rfl
      · refine .fail (hblock.trans (by exact ⟨[givenBack block], rfl, outstanding_givenBack⟩)) (by exact hmemory) ?_ _
        rintro v r' ⟨bytes, ⟨body', hbody', hs', ht⟩, -⟩
        rw [hrest] at hs'
        obtain ⟨rfl, rfl⟩ := hbody.unique hbody' (List.cons.inj hs').2
        exact hnone _ ht

/-- **`parse_string`** stays within the buffer and within the block of its output, whatever the bytes are, and reads a
literal. -/
theorem parseString_ends (hoffset : b.offset < content.length) (hmemory : b.outOfMemory = false)
    (hitem : item.IsBare) : ∃ ok item' b', parseString content grants item b = some (ok, item', b') ∧
      (ok = false → item' = item) ∧ (ok = true → ∃ v, item' = { item with type := .string, valuestring := some v }) ∧
      ParseOutcome content grants (ReadsText (b.rest content)) item.blocks item'.blocks b ok
        (CJsonItem.stringText item'.valuestring) b' := by
  obtain ⟨first, hfirst⟩ : ∃ first, content[b.offset]? = some first := ⟨_, List.getElem?_eq_getElem hoffset⟩
  have hrest : b.rest content = first :: content.drop (b.offset + 1) := by
    rw [rest, List.drop_eq_getElem_cons hoffset, (List.getElem?_eq_some_iff.1 hfirst).2]
  by_cases hquote : first = ascii '"'
  · subst hquote
    rcases hend : findStringEnd (content.drop (b.offset + 1)) (b.offset + 1) 0 with _ | found
    · unfold parseString
      rw [hfirst, Option.bind_some]
      dsimp only
      rw [if_neg (by simp), hend]
      refine ⟨false, item, _, rfl, fun _ => rfl, fun h => absurd h (by decide), ?_⟩
      refine .fail (by exact .of_log_eq rfl _) (by exact hmemory) ?_ _
      rintro v r ⟨bytes, ⟨body, hbody, hs, -⟩, -⟩
      rw [hrest] at hs
      rw [(List.cons.inj hs).2, findStringEnd_body hbody] at hend
      cases hend
    · obtain ⟨body, r, hbody, hs⟩ := findStringEnd_isSome_iff.1 (Option.isSome_of_eq_some hend)
      exact parseString_body hmemory hitem hbody hfirst hs (hs ▸ hrest)
  · unfold parseString
    rw [hfirst, Option.bind_some]
    dsimp only
    rw [if_pos hquote]
    refine ⟨false, item, _, rfl, fun _ => rfl, fun h => absurd h (by decide), ?_⟩
    refine .fail (by exact .of_log_eq rfl _) (by exact hmemory) ?_ _
    rintro v r ⟨bytes, ⟨body, -, hs, -⟩, -⟩
    rw [hrest] at hs
    exact hquote (List.cons.inj hs).1

end Strings

/-! ### Blanks -/

section Blanks

variable {content : List UInt8} {b : ParseBuffer}

/-- `buffer_skip_whitespace` goes to what comes after the blanks.  If nothing does, it stays on one of them, or at the
end. -/
theorem bufferSkipWhitespace_ends (hoffset : b.offset ≤ content.length) :
    ∃ offset, bufferSkipWhitespace content b = { b with offset := offset } ∧ b.offset ≤ offset ∧
      offset ≤ content.length ∧ (b.offset < content.length → offset < content.length) ∧
      (content.drop offset = afterBlanks (b.rest content) ∨
        afterBlanks (b.rest content) = [] ∧ ∀ c ∈ content.drop offset, isBlank c) := by
  unfold bufferSkipWhitespace afterBlanks rest
  by_cases hend : content.length ≤ b.offset
  · rw [if_pos hend, List.drop_eq_nil_of_le hend]
    exact ⟨b.offset, rfl, le_rfl, hoffset, id, .inl (by rw [List.drop_eq_nil_of_le hend]; rfl)⟩
  · rw [if_neg hend]
    dsimp only
    have hsplit : (content.drop b.offset).takeWhile isBlank ++ (content.drop b.offset).dropWhile isBlank =
        content.drop b.offset := List.takeWhile_append_dropWhile
    have hblank : ∀ c ∈ (content.drop b.offset).takeWhile isBlank, isBlank c := fun c => List.mem_takeWhile_imp
    have hlength := congrArg List.length hsplit
    rw [List.length_append, List.length_drop] at hlength
    generalize (content.drop b.offset).takeWhile isBlank = blanks at *
    generalize (content.drop b.offset).dropWhile isBlank = after at *
    have hdrop : content.drop (b.offset + blanks.length) = after := by
      rw [← List.drop_drop, ← hsplit, List.drop_left' rfl]
    split_ifs with hlast
    · -- nothing comes after the blanks
      obtain rfl : after = [] := by rw [← hdrop, hlast, List.drop_length]
      rw [List.length_nil] at hlength
      refine ⟨_, rfl, by omega, by omega, fun _ => by omega, .inr ⟨rfl, fun c hc => hblank c ?_⟩⟩
      rw [Nat.add_sub_assoc (by omega), ← List.drop_drop, ← hsplit, List.append_nil] at hc
      exact List.mem_of_mem_drop hc
    · exact ⟨_, rfl, by omega, by omega, fun _ => by omega, .inl hdrop⟩

/-- A property of texts that do not begin with a blank. -/
def NeedsToken (P : List UInt8 → Prop) : Prop := ∀ s, P s → ∃ c t, s = c :: t ∧ isBlank c = false

theorem rest_bufferSkipWhitespace (hoffset : b.offset ≤ content.length) {P : List UInt8 → Prop} (hP : NeedsToken P) :
    P ((bufferSkipWhitespace content b).rest content) ↔ P (afterBlanks (b.rest content)) := by
  obtain ⟨offset, hskip, -, -, -, hafter | ⟨hafter, hblank⟩⟩ := bufferSkipWhitespace_ends hoffset
  · rw [hskip, ← hafter]
    rfl
  · rw [hskip, hafter]
    constructor
    · intro h
      obtain ⟨c, t, hs, hc⟩ := hP _ h
      rw [hblank c (by rw [show content.drop offset = c :: t from hs]; exact List.mem_cons_self)] at hc
      cases hc
    · intro h
      obtain ⟨c, t, hs, -⟩ := hP _ h
      cases hs

theorem afterBlanks_eq_of_skip (hoffset : b.offset ≤ content.length) :
    afterBlanks ((bufferSkipWhitespace content b).rest content) = afterBlanks (b.rest content) := by
  obtain ⟨offset, hskip, -, -, -, hafter | ⟨hafter, hblank⟩⟩ := bufferSkipWhitespace_ends hoffset
  · rw [hskip]
    exact (congrArg afterBlanks hafter).trans (List.dropWhile_idempotent isBlank _)
  · rw [hskip, hafter]
    exact List.dropWhile_eq_nil_iff.2 hblank

/-- A byte at the offset, once the blanks are skipped. -/
theorem afterBlanks_of_getElem? (hoffset : b.offset ≤ content.length) {c : UInt8} (hc : isBlank c = false)
    (h : content[(bufferSkipWhitespace content b).offset]? = some c) :
    afterBlanks (b.rest content) = c :: content.drop ((bufferSkipWhitespace content b).offset + 1) := by
  obtain ⟨hlt, rfl⟩ := List.getElem?_eq_some_iff.1 h
  rw [← afterBlanks_eq_of_skip hoffset, rest, List.drop_eq_getElem_cons hlt]
  exact List.dropWhile_cons_of_neg (by simp [hc])

theorem getElem?_of_afterBlanks (hoffset : b.offset ≤ content.length) {c : UInt8} {t : List UInt8}
    (h : afterBlanks (b.rest content) = c :: t) :
    content[(bufferSkipWhitespace content b).offset]? = some c ∧
      t = content.drop ((bufferSkipWhitespace content b).offset + 1) := by
  obtain ⟨offset, hskip, -, -, -, hafter | ⟨hafter, -⟩⟩ := bufferSkipWhitespace_ends hoffset
  · rw [hskip]
    rw [h] at hafter
    exact ⟨by rw [← List.head?_drop, hafter, List.head?_cons], by rw [← List.tail_drop, hafter, List.tail_cons]⟩
  · rw [hafter] at h
    cases h

end Blanks

/-! ### The first byte of a value -/

section FirstByte

variable {number : NumberValue} {depth : ℕ} {s t r : List UInt8} {c : UInt8} {v : CJson}

/-- **The first byte says what a value is.** -/
theorem reads_cons (h : Reads number depth (c :: t) v r) :
    (c = ascii 'n' ∧ c :: t = nullBytes ++ r ∧ v = .null) ∨
    (c = ascii 'f' ∧ c :: t = falseBytes ++ r ∧ v = .bool false) ∨
    (c = ascii 't' ∧ c :: t = trueBytes ++ r ∧ v = .bool true) ∨
    (c = ascii '"' ∧ ∃ text, ReadsText (c :: t) text r ∧ v = .string text) ∨
    ((c = ascii '-' ∨ isDigit c) ∧ strtodLength (numberCString (c :: t)) ≠ 0 ∧
      v = .number (number (convertedBytes (c :: t))).1 (number (convertedBytes (c :: t))).2 ∧
      r = (c :: t).drop (strtodLength (numberCString (c :: t)))) ∨
    (c = ascii '[' ∧ depth < cjsonNestingLimit ∧ (afterBlanks t = ascii ']' :: r ∧ v = .array [] ∨
      ∃ items, ReadsItems number (depth + 1) t items r ∧ v = .array items)) ∨
    (c = ascii '{' ∧ depth < cjsonNestingLimit ∧ (afterBlanks t = ascii '}' :: r ∧ v = .object [] ∨
      ∃ members, ReadsMembers number (depth + 1) t members r ∧ v = .object members)) := by
  cases h with
  | null hs => exact .inl ⟨(List.cons.inj hs).1, hs, rfl⟩
  | false hs => exact .inr (.inl ⟨(List.cons.inj hs).1, hs, rfl⟩)
  | true hs => exact .inr (.inr (.inl ⟨(List.cons.inj hs).1, hs, rfl⟩))
  | string hs =>
    have hfirst : c = ascii '"' := by
      obtain ⟨body, -, hs, -⟩ := hs
      exact (List.cons.inj hs).1
    exact .inr (.inr (.inr (.inl ⟨hfirst, _, ⟨_, hs, rfl⟩, rfl⟩)))
  | number hs hlength =>
    obtain ⟨d, u, hs, hfirst⟩ := hs
    rw [← (List.cons.inj hs).1] at hfirst
    exact .inr (.inr (.inr (.inr (.inl ⟨hfirst, hlength, rfl, rfl⟩))))
  | emptyArray hdepth hs hend =>
    obtain ⟨rfl, rfl⟩ := List.cons.inj hs
    exact .inr (.inr (.inr (.inr (.inr (.inl ⟨rfl, hdepth, .inl ⟨hend, rfl⟩⟩)))))
  | array hdepth hs hitems =>
    obtain ⟨rfl, rfl⟩ := List.cons.inj hs
    exact .inr (.inr (.inr (.inr (.inr (.inl ⟨rfl, hdepth, .inr ⟨_, hitems, rfl⟩⟩)))))
  | emptyObject hdepth hs hend =>
    obtain ⟨rfl, rfl⟩ := List.cons.inj hs
    exact .inr (.inr (.inr (.inr (.inr (.inr ⟨rfl, hdepth, .inl ⟨hend, rfl⟩⟩)))))
  | object hdepth hs hmembers =>
    obtain ⟨rfl, rfl⟩ := List.cons.inj hs
    exact .inr (.inr (.inr (.inr (.inr (.inr ⟨rfl, hdepth, .inr ⟨_, hmembers, rfl⟩⟩)))))

/-- A byte that a value may begin with. -/
def startsValue (c : UInt8) : Bool :=
  c = ascii 'n' || c = ascii 'f' || c = ascii 't' || c = ascii '"' || c = ascii '-' || isDigit c || c = ascii '[' ||
    c = ascii '{'

theorem startsValue_of_reads (h : Reads number depth (c :: t) v r) : startsValue c := by
  unfold startsValue
  rcases reads_cons h with ⟨rfl, -⟩ | ⟨rfl, -⟩ | ⟨rfl, -⟩ | ⟨rfl, -⟩ | ⟨rfl | hdigit, -⟩ | ⟨rfl, -⟩ | ⟨rfl, -⟩
  all_goals first | decide | simp [hdigit]

theorem isBlank_of_startsValue (h : startsValue c) : isBlank c = false := by
  unfold startsValue at h
  simp only [Bool.or_eq_true, decide_eq_true_eq] at h
  rcases h with ((((((rfl | rfl) | rfl) | rfl) | rfl) | hdigit) | rfl) | rfl
  case inl.inl.inr =>
    have h0 : (ascii '0').toNat = 48 := by decide
    have h32 : (32 : UInt8).toNat = 32 := rfl
    simp only [isDigit, isBlank, Bool.and_eq_true, decide_eq_true_eq, decide_eq_false_iff_not,
      UInt8.le_iff_toNat_le] at *
    omega
  all_goals decide

theorem needsToken_reads : NeedsToken fun s => Reads number depth s v r := by
  intro s h
  rcases s with _ | ⟨c, t⟩
  · cases h with
    | null hs => cases hs
    | false hs => cases hs
    | true hs => cases hs
    | string hs =>
      obtain ⟨body, -, hs, -⟩ := hs
      cases hs
    | number hs =>
      obtain ⟨c, t, hs, -⟩ := hs
      cases hs
    | emptyArray _ hs => cases hs
    | array _ hs => cases hs
    | emptyObject _ hs => cases hs
    | object _ hs => cases hs
  · exact ⟨c, t, rfl, isBlank_of_startsValue (startsValue_of_reads h)⟩

theorem needsToken_readsText {text : String} : NeedsToken fun s => ReadsText s text r := by
  rintro s ⟨bytes, ⟨body, -, rfl, -⟩, -⟩
  exact ⟨_, _, rfl, by decide⟩

theorem reads_null : Reads number depth (nullBytes ++ t) v r ↔ v = .null ∧ r = t := by
  constructor
  · intro h
    rcases reads_cons h with ⟨-, hs, hv⟩ | ⟨hc, -⟩ | ⟨hc, -⟩ | ⟨hc, -⟩ | ⟨hc | hc, -⟩ | ⟨hc, -⟩ | ⟨hc, -⟩
    case inl => exact ⟨hv, (List.append_cancel_left (show nullBytes ++ t = nullBytes ++ r from hs)).symm⟩
    all_goals exact absurd hc (by decide)
  · rintro ⟨rfl, rfl⟩
    exact .null rfl

theorem reads_false : Reads number depth (falseBytes ++ t) v r ↔ v = .bool false ∧ r = t := by
  constructor
  · intro h
    rcases reads_cons h with ⟨hc, -⟩ | ⟨-, hs, hv⟩ | ⟨hc, -⟩ | ⟨hc, -⟩ | ⟨hc | hc, -⟩ | ⟨hc, -⟩ | ⟨hc, -⟩
    case inr.inl => exact ⟨hv, (List.append_cancel_left (show falseBytes ++ t = falseBytes ++ r from hs)).symm⟩
    all_goals exact absurd hc (by decide)
  · rintro ⟨rfl, rfl⟩
    exact .false rfl

theorem reads_true : Reads number depth (trueBytes ++ t) v r ↔ v = .bool true ∧ r = t := by
  constructor
  · intro h
    rcases reads_cons h with ⟨hc, -⟩ | ⟨hc, -⟩ | ⟨-, hs, hv⟩ | ⟨hc, -⟩ | ⟨hc | hc, -⟩ | ⟨hc, -⟩ | ⟨hc, -⟩
    case inr.inr.inl => exact ⟨hv, (List.append_cancel_left (show trueBytes ++ t = trueBytes ++ r from hs)).symm⟩
    all_goals exact absurd hc (by decide)
  · rintro ⟨rfl, rfl⟩
    exact .true rfl

theorem reads_quote : Reads number depth (ascii '"' :: t) v r ↔
    ∃ text, ReadsText (ascii '"' :: t) text r ∧ v = .string text := by
  constructor
  · intro h
    rcases reads_cons h with ⟨hc, -⟩ | ⟨hc, -⟩ | ⟨hc, -⟩ | ⟨-, h⟩ | ⟨hc | hc, -⟩ | ⟨hc, -⟩ | ⟨hc, -⟩
    case inr.inr.inr.inl => exact h
    all_goals exact absurd hc (by decide)
  · rintro ⟨text, ⟨bytes, h, rfl⟩, rfl⟩
    exact .string h

theorem reads_bracket : Reads number depth (ascii '[' :: t) v r ↔
    depth < cjsonNestingLimit ∧ (afterBlanks t = ascii ']' :: r ∧ v = .array [] ∨
      ∃ items, ReadsItems number (depth + 1) t items r ∧ v = .array items) := by
  constructor
  · intro h
    rcases reads_cons h with ⟨hc, -⟩ | ⟨hc, -⟩ | ⟨hc, -⟩ | ⟨hc, -⟩ | ⟨hc | hc, -⟩ | ⟨-, h⟩ | ⟨hc, -⟩
    case inr.inr.inr.inr.inr.inl => exact h
    all_goals exact absurd hc (by decide)
  · rintro ⟨hdepth, ⟨hend, rfl⟩ | ⟨items, hitems, rfl⟩⟩
    · exact .emptyArray hdepth rfl hend
    · exact .array hdepth rfl hitems

theorem reads_brace : Reads number depth (ascii '{' :: t) v r ↔
    depth < cjsonNestingLimit ∧ (afterBlanks t = ascii '}' :: r ∧ v = .object [] ∨
      ∃ members, ReadsMembers number (depth + 1) t members r ∧ v = .object members) := by
  constructor
  · intro h
    rcases reads_cons h with ⟨hc, -⟩ | ⟨hc, -⟩ | ⟨hc, -⟩ | ⟨hc, -⟩ | ⟨hc | hc, -⟩ | ⟨hc, -⟩ | ⟨-, h⟩
    case inr.inr.inr.inr.inr.inr => exact h
    all_goals exact absurd hc (by decide)
  · rintro ⟨hdepth, ⟨hend, rfl⟩ | ⟨members, hmembers, rfl⟩⟩
    · exact .emptyObject hdepth rfl hend
    · exact .object hdepth rfl hmembers

theorem ne_of_isDigit {d : UInt8} (hc : c = ascii '-' ∨ isDigit c) (hd : isDigit d = false) (hminus : d ≠ ascii '-') :
    c ≠ d := by
  rintro rfl
  rcases hc with hc | hc
  · exact hminus hc
  · rw [hd] at hc
    cases hc

theorem reads_digit (hdigit : c = ascii '-' ∨ isDigit c) : Reads number depth (c :: t) v r ↔
    strtodLength (numberCString (c :: t)) ≠ 0 ∧
      v = .number (number (convertedBytes (c :: t))).1 (number (convertedBytes (c :: t))).2 ∧
      r = (c :: t).drop (strtodLength (numberCString (c :: t))) := by
  constructor
  · intro h
    rcases reads_cons h with ⟨hc, -⟩ | ⟨hc, -⟩ | ⟨hc, -⟩ | ⟨hc, -⟩ | ⟨-, h⟩ | ⟨hc, -⟩ | ⟨hc, -⟩
    case inr.inr.inr.inr.inl => exact h
    all_goals exact absurd hc (ne_of_isDigit hdigit (by decide) (by decide))
  · rintro ⟨hlength, rfl, rfl⟩
    exact .number ⟨c, t, rfl, hdigit⟩ hlength

end FirstByte

/-! ### Numbers -/

theorem digitsLength_le (s : List UInt8) : digitsLength s ≤ s.length := (List.takeWhile_prefix _).length_le

theorem pos_of_head? {s : List UInt8} {c : UInt8} (h : s.head? = some c) : 1 ≤ s.length := by
  rcases s with _ | ⟨d, s⟩
  · cases h
  · exact Nat.succ_le_succ (Nat.zero_le _)

theorem signLength_le (s : List UInt8) : signLength s ≤ s.length := by
  unfold signLength
  split_ifs with h
  · rcases h with h | h
    · exact pos_of_head? h
    · exact pos_of_head? h
  · exact Nat.zero_le _

theorem mantissaLength_le (s : List UInt8) : mantissaLength s ≤ s.length := by
  have hwhole := digitsLength_le s
  have hfraction := digitsLength_le (s.drop (digitsLength s + 1))
  unfold mantissaLength
  dsimp only
  split_ifs with hpoint
  · omega
  · have hpos := pos_of_head? hpoint
    rw [List.length_drop] at hpos hfraction
    omega
  · exact hwhole

theorem exponentLength_le (s : List UInt8) : exponentLength s ≤ s.length := by
  have hsign := signLength_le (s.drop 1)
  have hdigits := digitsLength_le (s.drop (1 + signLength (s.drop 1)))
  unfold exponentLength
  dsimp only
  split_ifs with he
  · omega
  · have hpos : 1 ≤ s.length := by
      rcases he with he | he
      · exact pos_of_head? he
      · exact pos_of_head? he
    rw [List.length_drop] at hsign hdigits
    omega
  · omega

theorem strtodLength_le (s : List UInt8) : strtodLength s ≤ s.length := by
  have hsign := signLength_le s
  have hmantissa := mantissaLength_le (s.drop (signLength s))
  have hexponent := exponentLength_le (s.drop (signLength s + mantissaLength (s.drop (signLength s))))
  rw [List.length_drop] at hmantissa hexponent
  unfold strtodLength
  dsimp only
  split_ifs
  · omega
  · omega

theorem length_numberCString_le (s : List UInt8) : (numberCString s).length ≤ s.length := by
  refine (List.takeWhile_prefix _).length_le.trans ?_
  rw [List.length_take]
  exact min_le_right _ _

/-! ### Lists -/

section Lists

variable {number : NumberValue} {depth : ℕ} {t r : List UInt8}

theorem readsItems_iff {items : List CJson} : ReadsItems number depth t items r ↔
    ∃ item u, Reads number depth (afterBlanks t) item u ∧ (afterBlanks u = ascii ']' :: r ∧ items = [item] ∨
      ∃ t' rest, afterBlanks u = ascii ',' :: t' ∧ ReadsItems number depth t' rest r ∧ items = item :: rest) := by
  constructor
  · intro h
    cases h with
    | last hitem hend => exact ⟨_, _, hitem, .inl ⟨hend, rfl⟩⟩
    | more hitem hcomma hrest => exact ⟨_, _, hitem, .inr ⟨_, _, hcomma, hrest, rfl⟩⟩
  · rintro ⟨item, u, hitem, ⟨hend, rfl⟩ | ⟨t', rest, hcomma, hrest, rfl⟩⟩
    · exact .last hitem hend
    · exact .more hitem hcomma hrest

/-- A member of an object. -/
def ReadsMember (number : NumberValue) (depth : ℕ) (t : List UInt8) (member : String × CJson) (w : List UInt8) : Prop :=
  ∃ u, ReadsText (afterBlanks t) member.1 u ∧ ∃ u', afterBlanks u = ascii ':' :: u' ∧
    Reads number depth (afterBlanks u') member.2 w

theorem readsMembers_iff {members : List (String × CJson)} : ReadsMembers number depth t members r ↔
    ∃ member w, ReadsMember number depth t member w ∧ (afterBlanks w = ascii '}' :: r ∧ members = [member] ∨
      ∃ t' rest, afterBlanks w = ascii ',' :: t' ∧ ReadsMembers number depth t' rest r ∧ members = member :: rest) := by
  constructor
  · intro h
    cases h with
    | last hkey hcolon hvalue hend => exact ⟨(_, _), _, ⟨_, ⟨_, hkey, rfl⟩, _, hcolon, hvalue⟩, .inl ⟨hend, rfl⟩⟩
    | more hkey hcolon hvalue hcomma hrest =>
      exact ⟨(_, _), _, ⟨_, ⟨_, hkey, rfl⟩, _, hcolon, hvalue⟩, .inr ⟨_, _, hcomma, hrest, rfl⟩⟩
  · rintro ⟨⟨key, value⟩, w, ⟨u, ⟨bytes, hkey, hbytes⟩, u', hcolon, hvalue⟩, hlast | ⟨t', rest, hcomma, hrest, rfl⟩⟩
    · obtain ⟨hend, rfl⟩ := hlast
      dsimp only at hbytes
      subst hbytes
      exact .last hkey hcolon hvalue hend
    · dsimp only at hbytes
      subst hbytes
      exact .more hkey hcolon hvalue hcomma hrest

end Lists

end VulkanLoader
