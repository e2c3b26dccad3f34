import VulkanLoader.Manifests.JsonReading

/-!
# Texts of JSON are read

The texts that RFC 8259 gives a value, with any white space and any escapes, and that the parser reads each of them as
that value, its strings in UTF-8.  Numbers of more than 63 bytes and values that are nested too deeply are left out.
-/

namespace VulkanLoader

open VulkanLoader.Lib HandleEvent

/-! ### Texts -/

/-- `ws`. -/
def WhiteSpace (s : List UInt8) : Prop := ∀ c ∈ s, c ∈ [ascii ' ', ascii '\t', ascii '\n', ascii '\r']

instance (s : List UInt8) : Decidable (WhiteSpace s) :=
  List.decidableBAll (· ∈ [ascii ' ', ascii '\t', ascii '\n', ascii '\r']) s

/-- A digit of a hexadecimal number, in either case. -/
def HexSpells (digit : ℕ) (c : UInt8) : Prop :=
  digit < 16 ∧ (c = ascii digit.digitChar ∨ c = ascii digit.digitChar.toUpper)

instance (digit : ℕ) (c : UInt8) : Decidable (HexSpells digit c) := inferInstanceAs (Decidable (_ ∧ _))

/-- `\uXXXX`. -/
def UnicodeEscape (n : ℕ) (s : List UInt8) : Prop :=
  ∃ x y z w a b c d, n = hexNumber x y z w ∧ HexSpells x a ∧ HexSpells y b ∧ HexSpells z c ∧ HexSpells w d ∧
    s = [ascii '\\', ascii 'u', a, b, c, d]

/-- The characters that have an escape of two bytes, and what it ends with. -/
def twoByteEscapes : List (Char × Char) :=
  [('"', '"'), ('\\', '\\'), ('/', '/'), ('\x08', 'b'), ('\x0c', 'f'), ('\n', 'n'), ('\r', 'r'), ('\t', 't')]

/-- `char`: a character of a string, as itself or escaped. -/
inductive SpellsChar : Char → List UInt8 → Prop where
  | unescaped {c : Char} : 0x20 ≤ c.toNat → c ≠ '"' → c ≠ '\\' → SpellsChar c (String.utf8EncodeChar c)
  | twoByte {c e : Char} : (c, e) ∈ twoByteEscapes → SpellsChar c [ascii '\\', ascii e]
  | unicode {c : Char} {s : List UInt8} : UnicodeEscape c.toNat s → SpellsChar c s
  | surrogates {c : Char} {s t : List UInt8} : 0x10000 ≤ c.toNat →
      UnicodeEscape (0xD800 + (c.toNat - 0x10000) / 0x400) s → UnicodeEscape (0xDC00 + (c.toNat - 0x10000) % 0x400) t →
      SpellsChar c (s ++ t)

/-- The characters of a string. -/
inductive SpellsChars : List Char → List UInt8 → Prop where
  | nil : SpellsChars [] []
  | cons {c : Char} {cs : List Char} {s t : List UInt8} :
      SpellsChar c s → SpellsChars cs t → SpellsChars (c :: cs) (s ++ t)

/-- `string`. -/
def SpellsString (cs : List Char) (s : List UInt8) : Prop := ∃ t, SpellsChars cs t ∧ s = ascii '"' :: (t ++ [ascii '"'])

/-- The string of the loader for characters: bytes of UTF-8, up to a `NUL`. -/
def utf8Text (cs : List Char) : String := literalText (cs.flatMap String.utf8EncodeChar)

/-- Digits, at least one. -/
def Digits (s : List UInt8) : Prop := s ≠ [] ∧ ∀ c ∈ s, isDigit c

/-- `int`. -/
def IntSpells (s : List UInt8) : Prop := s = [ascii '0'] ∨ Digits s ∧ s.head? ≠ some (ascii '0')

/-- `frac`, if it is there. -/
def FracSpells (s : List UInt8) : Prop := s = [] ∨ ∃ ds, Digits ds ∧ s = ascii '.' :: ds

/-- `exp`, if it is there. -/
def ExpSpells (s : List UInt8) : Prop :=
  s = [] ∨ ∃ e sign ds, (e = ascii 'e' ∨ e = ascii 'E') ∧ (sign = [] ∨ sign = [ascii '+'] ∨ sign = [ascii '-']) ∧
    Digits ds ∧ s = e :: (sign ++ ds)

/-- `number`. -/
def SpellsNumber (s : List UInt8) : Prop :=
  ∃ minus int frac exp, (minus = [] ∨ minus = [ascii '-']) ∧ IntSpells int ∧ FracSpells frac ∧ ExpSpells exp ∧
    s = minus ++ int ++ frac ++ exp

mutual

/-- `value`, below `depth` arrays and objects. -/
inductive SpellsValue (number : NumberValue) : ℕ → CJson → List UInt8 → Prop where
  | null {depth : ℕ} : SpellsValue number depth .null nullBytes
  | false {depth : ℕ} : SpellsValue number depth (.bool false) falseBytes
  | true {depth : ℕ} : SpellsValue number depth (.bool true) trueBytes
  | number {depth : ℕ} {s : List UInt8} :
      SpellsNumber s → s.length ≤ 63 → SpellsValue number depth (.number (number s).1 (number s).2) s
  | string {depth : ℕ} {cs : List Char} {s : List UInt8} :
      SpellsString cs s → SpellsValue number depth (.string (utf8Text cs)) s
  | emptyArray {depth : ℕ} {ws : List UInt8} :
      depth < cjsonNestingLimit → WhiteSpace ws →
      SpellsValue number depth (.array []) (ascii '[' :: (ws ++ [ascii ']']))
  | array {depth : ℕ} {items : List CJson} {s : List UInt8} :
      depth < cjsonNestingLimit → SpellsItems number (depth + 1) items s →
      SpellsValue number depth (.array items) (ascii '[' :: (s ++ [ascii ']']))
  | emptyObject {depth : ℕ} {ws : List UInt8} :
      depth < cjsonNestingLimit → WhiteSpace ws →
      SpellsValue number depth (.object []) (ascii '{' :: (ws ++ [ascii '}']))
  | object {depth : ℕ} {members : List (String × CJson)} {s : List UInt8} :
      depth < cjsonNestingLimit → SpellsMembers number (depth + 1) members s →
      SpellsValue number depth (.object members) (ascii '{' :: (s ++ [ascii '}']))

/-- The values of an array. -/
inductive SpellsItems (number : NumberValue) : ℕ → List CJson → List UInt8 → Prop where
  | last {depth : ℕ} {item : CJson} {ws s ws' : List UInt8} :
      WhiteSpace ws → SpellsValue number depth item s → WhiteSpace ws' →
      SpellsItems number depth [item] (ws ++ (s ++ ws'))
  | more {depth : ℕ} {item : CJson} {items : List CJson} {ws s ws' t : List UInt8} :
      WhiteSpace ws → SpellsValue number depth item s → WhiteSpace ws' → SpellsItems number depth items t →
      SpellsItems number depth (item :: items) (ws ++ (s ++ (ws' ++ ascii ',' :: t)))

/-- The members of an object. -/
inductive SpellsMembers (number : NumberValue) : ℕ → List (String × CJson) → List UInt8 → Prop where
  | last {depth : ℕ} {cs : List Char} {value : CJson} {ws key ws₁ ws₂ s ws' : List UInt8} :
      WhiteSpace ws → SpellsString cs key → WhiteSpace ws₁ → WhiteSpace ws₂ → SpellsValue number depth value s →
      WhiteSpace ws' →
      SpellsMembers number depth [(utf8Text cs, value)] (ws ++ (key ++ (ws₁ ++ ascii ':' :: (ws₂ ++ (s ++ ws')))))
  | more {depth : ℕ} {cs : List Char} {value : CJson} {members : List (String × CJson)}
      {ws key ws₁ ws₂ s ws' t : List UInt8} :
      WhiteSpace ws → SpellsString cs key → WhiteSpace ws₁ → WhiteSpace ws₂ → SpellsValue number depth value s →
      WhiteSpace ws' → SpellsMembers number depth members t →
      SpellsMembers number depth ((utf8Text cs, value) :: members)
        (ws ++ (key ++ (ws₁ ++ ascii ':' :: (ws₂ ++ (s ++ (ws' ++ ascii ',' :: t))))))

end

/-! ### UTF-8 -/

theorem hexDigit_of_spells {digit : ℕ} {c : UInt8} (h : HexSpells digit c) : hexDigit c = some digit := by
  obtain ⟨hlt, hc⟩ := h
  have hall : ∀ digit < 16, hexDigit (ascii digit.digitChar) = some digit ∧
      hexDigit (ascii digit.digitChar.toUpper) = some digit := by decide
  rcases hc with rfl | rfl
  · exact (hall digit hlt).1
  · exact (hall digit hlt).2

/-- What holds of the first 256 numbers holds of every byte. -/
theorem forall_byte {P : UInt8 → Prop} (h : ∀ n < 256, P (UInt8.ofNat n)) (c : UInt8) : P c := by
  have hc := h c.toNat c.toNat_lt
  rwa [UInt8.ofNat_toNat] at hc

theorem continuation_byte (n : ℕ) : UInt8.ofNat ((n ||| 0x80) &&& 0xBF) = UInt8.ofNat (n % 64 + 128) := by
  have hall : ∀ c : UInt8, (c ||| 0x80) &&& 0xBF = UInt8.ofNat (c.toNat % 64 + 128) := forall_byte (by decide +kernel)
  have h := hall (UInt8.ofNat n)
  rw [UInt8.toNat_ofNat', show n % 2 ^ 8 % 64 = n % 64 by omega] at h
  rw [← h, UInt8.ofNat_and, UInt8.ofNat_or]
  rfl

theorem leading_bytes : (∀ r < 32, (r ||| 0xC0) &&& 0xFF = r + 192) ∧ (∀ r < 16, (r ||| 0xE0) &&& 0xFF = r + 224) ∧
    ∀ r < 8, (r ||| 0xF0) &&& 0xFF = r + 240 := by decide

/-- **The bytes that are written for a code point are its UTF-8.** -/
theorem utf16LiteralToUtf8_of_literal {c : Char} {n : ℕ} {input : List UInt8}
    (h : utf16Literal input = some (c.toNat, n)) :
    utf16LiteralToUtf8 input = some (n, String.utf8EncodeChar c) := by
  have hlt : c.toNat < 0x110000 := by
    have hvalid := c.valid
    rcases hvalid with hvalid | hvalid
    · exact hvalid.trans (by decide)
    · exact hvalid.2
  obtain ⟨hlead₂, hlead₃, hlead₄⟩ := leading_bytes
  unfold utf16LiteralToUtf8 String.utf8EncodeChar
  rw [h, Option.bind_some]
  have hval : c.val.toNat = c.toNat := rfl
  dsimp only
  rw [hval]
  generalize c.toNat = v at *
  simp only [encodeUtf8, utf8Tail, continuation_byte, Nat.shiftRight_eq_div_pow, Nat.div_div_eq_div_mul]
  split_ifs
  all_goals try omega
  · change some (n, [UInt8.ofNat (v &&& (2 ^ 7 - 1))]) = _
    rw [Nat.and_two_pow_sub_one_eq_mod, Nat.mod_eq_of_lt (by omega)]
  · rw [hlead₂ _ (by omega), Nat.mod_eq_of_lt (show v / 64 < 32 by omega)]
  · rw [hlead₃ _ (by omega), Nat.mod_eq_of_lt (show v / 4096 < 16 by omega)]
  · rw [hlead₄ _ (by omega), Nat.mod_eq_of_lt (show v / 262144 < 8 by omega)]

/-! ### Escapes -/

theorem parseHex4_of_escape {n : ℕ} {s : List UInt8} (h : UnicodeEscape n s) (t : List UInt8) :
    parseHex4 ((s ++ t).drop 2) = n := by
  obtain ⟨x, y, z, w, a, b, c, d, rfl, ha, hb, hc, hd, rfl⟩ := h
  exact parseHex4_digits (hexDigit_of_spells ha) (hexDigit_of_spells hb) (hexDigit_of_spells hc)
    (hexDigit_of_spells hd) t

theorem length_of_escape {n : ℕ} {s : List UInt8} (h : UnicodeEscape n s) : s.length = 6 := by
  obtain ⟨x, y, z, w, a, b, c, d, -, -, -, -, -, rfl⟩ := h
  rfl

theorem utf16Literal_bmp {c : Char} {s : List UInt8} (h : UnicodeEscape c.toNat s) (t : List UInt8) :
    utf16Literal (s ++ t) = some (c.toNat, 6) := by
  have hlength := length_of_escape h
  have hvalid : c.toNat < 0xD800 ∨ 0xDFFF < c.toNat := by
    rcases c.valid with hvalid | hvalid
    · exact .inl hvalid
    · exact .inr hvalid.1
  unfold utf16Literal
  rw [parseHex4_of_escape h, if_neg (by rw [List.length_append]; omega)]
  dsimp only
  rw [if_neg (by omega), if_neg (by omega)]

theorem utf16Literal_surrogates {c : Char} {s t : List UInt8} (hc : 0x10000 ≤ c.toNat)
    (hs : UnicodeEscape (0xD800 + (c.toNat - 0x10000) / 0x400) s)
    (ht : UnicodeEscape (0xDC00 + (c.toNat - 0x10000) % 0x400) t) (u : List UInt8) :
    utf16Literal (s ++ t ++ u) = some (c.toNat, 12) := by
  have hlength := length_of_escape hs
  have hlength' := length_of_escape ht
  have hlt : c.toNat < 0x110000 := by
    rcases c.valid with hvalid | hvalid
    · exact hvalid.trans (by decide)
    · exact hvalid.2
  have hprefix : (t ++ u).take 2 = [ascii '\\', ascii 'u'] := by
    obtain ⟨x, y, z, w, a, b, c, d, -, -, -, -, -, rfl⟩ := ht
    rfl
  unfold utf16Literal
  rw [List.append_assoc, parseHex4_of_escape hs, if_neg (by rw [List.length_append]; omega)]
  dsimp only
  rw [List.drop_left' hlength, if_neg (by omega), if_pos (by omega), if_neg (by rw [List.length_append]; omega), hprefix,
    if_neg (by simp), parseHex4_of_escape ht, if_neg (by omega)]
  -- the low ten bits of the two codes
  have hhigh : (0xD800 + (c.toNat - 0x10000) / 0x400) &&& 0x3FF = (c.toNat - 0x10000) / 0x400 := by
    rw [show 0x3FF = 2 ^ 10 - 1 by rfl, Nat.and_two_pow_sub_one_eq_mod]
    omega
  have hlow : (0xDC00 + (c.toNat - 0x10000) % 0x400) &&& 0x3FF = (c.toNat - 0x10000) % 0x400 := by
    rw [show 0x3FF = 2 ^ 10 - 1 by rfl, Nat.and_two_pow_sub_one_eq_mod]
    omega
  have hsum : 0x10000 + ((c.toNat - 0x10000) / 0x400 * 2 ^ 10 + (c.toNat - 0x10000) % 0x400) = c.toNat := by omega
  rw [hhigh, hlow, ← Nat.shiftLeft_add_eq_or_of_lt (by omega), Nat.shiftLeft_eq, hsum]

/-! ### Strings -/

/-- A byte that stands for itself. -/
theorem unescapes_plain {u : List UInt8} (hu : ∀ c ∈ u, c ≠ ascii '\\') {s t : List UInt8} (h : Unescapes s t) :
    Unescapes (u ++ s) (u ++ t) := by
  induction u with
  | nil => exact h
  | cons c u ih => exact .plain (hu c List.mem_cons_self) (ih fun d hd => hu d (List.mem_cons_of_mem _ hd))

theorem stringBody_plain {u : List UInt8} (hu : ∀ c ∈ u, c ≠ ascii '"' ∧ c ≠ ascii '\\') {s : List UInt8}
    (h : StringBody s) : StringBody (u ++ s) := by
  induction u with
  | nil => exact h
  | cons c u ih =>
    obtain ⟨hquote, hback⟩ := hu c List.mem_cons_self
    exact .plain hquote hback (ih fun d hd => hu d (List.mem_cons_of_mem _ hd))

theorem hexSpells_plain {digit : ℕ} {c : UInt8} (h : HexSpells digit c) : c ≠ ascii '"' ∧ c ≠ ascii '\\' := by
  have hdigit := hexDigit_of_spells h
  constructor
  · rintro rfl
    exact absurd hdigit (by rw [show hexDigit (ascii '"') = none by decide]; nofun)
  · rintro rfl
    exact absurd hdigit (by rw [show hexDigit (ascii '\\') = none by decide]; nofun)

theorem stringBody_escape {n : ℕ} {u : List UInt8} (hu : UnicodeEscape n u) {s : List UInt8} (h : StringBody s) :
    StringBody (u ++ s) := by
  obtain ⟨x, y, z, w, a, b, c, d, -, ha, hb, hc, hd, rfl⟩ := hu
  refine .escape (@stringBody_plain [a, b, c, d] (fun e he => ?_) _ h)
  simp only [List.mem_cons, List.not_mem_nil, or_false] at he
  rcases he with rfl | rfl | rfl | rfl
  exacts [hexSpells_plain ha, hexSpells_plain hb, hexSpells_plain hc, hexSpells_plain hd]

/-- A byte of more than seven bits is no character of ASCII. -/
theorem ofNat_ne_ascii {n : ℕ} (h : 128 ≤ n) (h' : n < 256) :
    UInt8.ofNat n ≠ ascii '"' ∧ UInt8.ofNat n ≠ ascii '\\' := by
  have hn : (UInt8.ofNat n).toNat = n := by
    rw [UInt8.toNat_ofNat']
    omega
  have hquote : (ascii '"').toNat = 34 := by decide
  have hback : (ascii '\\').toNat = 92 := by decide
  refine ⟨fun heq => ?_, fun heq => ?_⟩
  · rw [heq] at hn
    omega
  · rw [heq] at hn
    omega

/-- The bytes of a character that needs no escape. -/
theorem utf8EncodeChar_plain {c : Char} (hquote : c ≠ '"') (hback : c ≠ '\\') :
    ∀ b ∈ String.utf8EncodeChar c, b ≠ ascii '"' ∧ b ≠ ascii '\\' := by
  intro b hb
  have hne : c.val.toNat ≠ 34 ∧ c.val.toNat ≠ 92 := by
    refine ⟨fun h => hquote (Char.ext ?_), fun h => hback (Char.ext ?_)⟩
    · exact UInt32.toNat_inj.1 h
    · exact UInt32.toNat_inj.1 h
  unfold String.utf8EncodeChar at hb
  dsimp only at hb
  generalize c.val.toNat = v at *
  split_ifs at hb
  · have hn : (UInt8.ofNat v).toNat = v := by
      rw [UInt8.toNat_ofNat']
      omega
    rw [List.mem_singleton.1 hb]
    refine ⟨fun heq => hne.1 ?_, fun heq => hne.2 ?_⟩
    · rw [← hn, heq]
      decide
    · rw [← hn, heq]
      decide
  all_goals
    simp only [List.mem_cons, List.not_mem_nil, or_false] at hb
    rcases hb with rfl | rfl | rfl | rfl
  all_goals exact ofNat_ne_ascii (by omega) (by omega)

/-- **A character in a literal**: both passes go over it, and the second writes its bytes. -/
theorem SpellsChar.passes {c : Char} {u : List UInt8} (h : SpellsChar c u) {s : List UInt8} :
    (StringBody s → StringBody (u ++ s)) ∧
      ∀ t, Unescapes s t → Unescapes (u ++ s) (String.utf8EncodeChar c ++ t) := by
  cases h with
  | unescaped _ hquote hback =>
    have hplain := utf8EncodeChar_plain hquote hback
    exact ⟨stringBody_plain hplain, fun t => unescapes_plain fun b hb => (hplain b hb).2⟩
  | @twoByte e hce =>
    have hshort : ∀ p ∈ twoByteEscapes,
        shortEscape (ascii p.2) = some (ascii p.1) ∧ String.utf8EncodeChar p.1 = [ascii p.1] := by decide
    obtain ⟨hescape, hbytes⟩ := hshort _ hce
    rw [hbytes]
    exact ⟨.escape, fun t => .short hescape⟩
  | unicode hu =>
    refine ⟨stringBody_escape hu, fun t ht => ?_⟩
    have hutf := utf16LiteralToUtf8_of_literal (utf16Literal_bmp hu s)
    obtain ⟨x, y, z, w, a, b, d, e, -, -, -, -, -, rfl⟩ := hu
    exact .unicode hutf ht
  | @surrogates v w hc hv hw =>
    refine ⟨fun hs => ?_, fun t ht => ?_⟩
    · rw [List.append_assoc]
      exact stringBody_escape hv (stringBody_escape hw hs)
    · have hutf := utf16LiteralToUtf8_of_literal (utf16Literal_surrogates hc hv hw s)
      obtain ⟨x, y, z, q, a, b, d, e, -, -, -, -, -, rfl⟩ := hv
      obtain ⟨x', y', z', q', a', b', d', e', -, -, -, -, -, rfl⟩ := hw
      exact .unicode hutf ht

theorem SpellsChars.passes {cs : List Char} {s : List UInt8} (h : SpellsChars cs s) :
    StringBody s ∧ Unescapes s (cs.flatMap String.utf8EncodeChar) := by
  induction h with
  | nil => exact ⟨.nil, .nil⟩
  | cons hc _ ih =>
    obtain ⟨hbody, hunescape⟩ := hc.passes
    exact ⟨hbody ih.1, hunescape _ ih.2⟩

/-- **A string is read as its characters.** -/
theorem SpellsString.reads {cs : List Char} {s : List UInt8} (h : SpellsString cs s) (r : List UInt8) :
    ReadsString (s ++ r) (cs.flatMap String.utf8EncodeChar) r := by
  obtain ⟨t, ht, rfl⟩ := h
  obtain ⟨hbody, hunescape⟩ := ht.passes
  exact ⟨t, hbody, by simp, hunescape⟩

/-! ### Numbers -/

/-- A text that does not go on with a byte of this kind. -/
def StopsAt (p : UInt8 → Bool) (r : List UInt8) : Prop := ∀ c ∈ r.head?, p c = false

theorem takeWhile_append_stop {p : UInt8 → Bool} {s r : List UInt8} (hs : ∀ c ∈ s, p c) (hr : StopsAt p r) :
    (s ++ r).takeWhile p = s := by
  rw [List.takeWhile_append_of_pos hs]
  rcases r with _ | ⟨c, r⟩
  · rw [List.takeWhile_nil, List.append_nil]
  · rw [List.takeWhile_cons_of_neg (by rw [hr c rfl]; decide), List.append_nil]

theorem digitsLength_append {s r : List UInt8} (hs : ∀ c ∈ s, isDigit c) (hr : StopsAt isDigit r) :
    digitsLength (s ++ r) = s.length := by
  rw [digitsLength, takeWhile_append_stop hs hr]

theorem IntSpells.digits {s : List UInt8} (h : IntSpells s) : Digits s := by
  rcases h with rfl | ⟨h, -⟩
  · exact ⟨by simp, fun c hc => by rw [List.mem_singleton.1 hc]; decide⟩
  · exact h

theorem signLength_digits {s : List UInt8} (h : Digits s) (r : List UInt8) : signLength (s ++ r) = 0 := by
  obtain ⟨hne, hs⟩ := h
  rcases s with _ | ⟨c, s⟩
  · exact absurd rfl hne
  · have hc := hs c List.mem_cons_self
    unfold signLength
    rw [if_neg]
    rw [List.cons_append, List.head?_cons, Option.some.injEq, Option.some.injEq]
    rintro (rfl | rfl)
    · exact absurd hc (by decide)
    · exact absurd hc (by decide)

theorem exponentLength_exp {s : List UInt8} (h : ExpSpells s) : exponentLength s = s.length := by
  rcases h with rfl | ⟨e, sign, ds, he, hsign, hds, rfl⟩
  · rfl
  · have hhead : (e :: (sign ++ ds)).head? = some (ascii 'e') ∨ (e :: (sign ++ ds)).head? = some (ascii 'E') := by
      rcases he with rfl | rfl
      · exact .inl rfl
      · exact .inr rfl
    have hlength : signLength (sign ++ ds) = sign.length := by
      rcases hsign with rfl | rfl | rfl
      · have h := signLength_digits hds []
        rwa [List.append_nil] at h
      · rfl
      · rfl
    have hdigits : digitsLength ds = ds.length := by
      have h := @digitsLength_append ds [] hds.2 nofun
      rwa [List.append_nil] at h
    unfold exponentLength
    rw [if_pos hhead]
    dsimp only
    rw [List.drop_succ_cons, List.drop_zero, hlength, Nat.add_comm 1, List.drop_succ_cons, List.drop_left' rfl, hdigits,
      if_neg (by simpa using hds.1), List.length_cons, List.length_append]
    omega

/-- What may come after the digits of a number. -/
theorem ExpSpells.stops {s : List UInt8} (h : ExpSpells s) :
    StopsAt isDigit s ∧ s.head? ≠ some (ascii '.') := by
  rcases h with rfl | ⟨e, sign, ds, he, -, -, rfl⟩
  · exact ⟨nofun, nofun⟩
  · rcases he with rfl | rfl
    · exact ⟨fun c hc => by rw [← Option.some.inj hc]; decide, by rw [List.head?_cons]; decide⟩
    · exact ⟨fun c hc => by rw [← Option.some.inj hc]; decide, by rw [List.head?_cons]; decide⟩

theorem mantissaLength_append {int frac exp : List UInt8} (hint : IntSpells int) (hfrac : FracSpells frac)
    (hexp : ExpSpells exp) : mantissaLength (int ++ (frac ++ exp)) = int.length + frac.length := by
  have hdigits := hint.digits
  obtain ⟨hstop, hpoint⟩ := hexp.stops
  have hpos : int.length ≠ 0 := by simpa using hdigits.1
  rcases hfrac with rfl | ⟨ds, hds, rfl⟩
  · have hwhole : digitsLength (int ++ exp) = int.length := digitsLength_append hdigits.2 hstop
    unfold mantissaLength
    dsimp only
    rw [List.nil_append, hwhole, List.drop_left' rfl, if_neg hpoint]
    rfl
  · have hwhole : digitsLength (int ++ (ascii '.' :: ds ++ exp)) = int.length :=
      digitsLength_append hdigits.2 fun c hc => by
        rw [← Option.some.inj hc]
        decide
    have hfraction : digitsLength (ds ++ exp) = ds.length := digitsLength_append hds.2 hstop
    have hdrop : (int ++ (ascii '.' :: ds ++ exp)).drop (int.length + 1) = ds ++ exp := by
      rw [← List.drop_drop, List.drop_left' rfl]
      rfl
    unfold mantissaLength
    dsimp only
    rw [hwhole, List.drop_left' rfl, List.cons_append, List.head?_cons, if_pos rfl, ← List.cons_append, hdrop, hfraction,
      if_neg (by omega), List.length_cons]
    omega

/-- **A number is converted as a whole.** -/
theorem SpellsNumber.converted {s : List UInt8} (h : SpellsNumber s) : strtodLength s = s.length := by
  obtain ⟨minus, int, frac, exp, hminus, hint, hfrac, hexp, rfl⟩ := h
  have hmantissa := mantissaLength_append hint hfrac hexp
  have hpos : int.length ≠ 0 := by simpa using hint.digits.1
  have hsign : signLength (minus ++ (int ++ (frac ++ exp))) = minus.length := by
    rcases hminus with rfl | rfl
    · exact signLength_digits hint.digits _
    · rfl
  unfold strtodLength
  dsimp only
  rw [List.append_assoc, List.append_assoc, hsign, List.drop_left' rfl, hmantissa, if_neg (by omega), ← List.drop_drop,
    List.drop_left' rfl, ← List.append_assoc int, List.drop_left' List.length_append, exponentLength_exp hexp]
  simp only [List.length_append]
  omega

theorem numberByte_of_digits {s : List UInt8} (h : Digits s) : ∀ c ∈ s, isNumberByte c := fun c hc => by
  unfold isNumberByte
  rw [h.2 c hc, Bool.true_or]

theorem SpellsNumber.bytes {s : List UInt8} (h : SpellsNumber s) : ∀ c ∈ s, isNumberByte c := by
  obtain ⟨minus, int, frac, exp, hminus, hint, hfrac, hexp, rfl⟩ := h
  simp only [List.mem_append]
  rintro c (((hc | hc) | hc) | hc)
  · rcases hminus with rfl | rfl
    · cases hc
    · rw [List.mem_singleton.1 hc]
      decide
  · exact numberByte_of_digits hint.digits c hc
  · rcases hfrac with rfl | ⟨ds, hds, rfl⟩
    · cases hc
    · rcases List.mem_cons.1 hc with rfl | hc
      · decide
      · exact numberByte_of_digits hds c hc
  · rcases hexp with rfl | ⟨e, sign, ds, he, hsign, hds, rfl⟩
    · cases hc
    · rcases List.mem_cons.1 hc with rfl | hc
      · rcases he with rfl | rfl
        · decide
        · decide
      · rcases List.mem_append.1 hc with hc | hc
        · rcases hsign with rfl | rfl | rfl
          · cases hc
          · rw [List.mem_singleton.1 hc]
            decide
          · rw [List.mem_singleton.1 hc]
            decide
        · exact numberByte_of_digits hds c hc

theorem SpellsNumber.starts {s : List UInt8} (h : SpellsNumber s) (r : List UInt8) : StartsNumber (s ++ r) := by
  obtain ⟨minus, int, frac, exp, hminus, hint, -, -, rfl⟩ := h
  obtain ⟨hne, hdigits⟩ := hint.digits
  rcases hminus with rfl | rfl
  · rcases int with _ | ⟨c, int⟩
    · exact absurd rfl hne
    · exact ⟨c, _, rfl, .inr (hdigits c List.mem_cons_self)⟩
  · exact ⟨ascii '-', _, rfl, .inl rfl⟩

theorem numberCString_append {s r : List UInt8} (h : SpellsNumber s) (hlength : s.length ≤ 63)
    (hr : StopsAt isNumberByte r) : numberCString (s ++ r) = s := by
  unfold numberCString
  rw [List.take_append, List.take_of_length_le hlength]
  refine takeWhile_append_stop h.bytes fun c hc => hr c ?_
  rw [List.head?_take] at hc
  split_ifs at hc
  · cases hc
  · exact hc

/-! ### Values -/

theorem isBlank_of_whiteSpace {ws : List UInt8} (h : WhiteSpace ws) : ∀ c ∈ ws, isBlank c := fun c hc => by
  have hc := h c hc
  simp only [List.mem_cons, List.not_mem_nil, or_false] at hc
  rcases hc with rfl | rfl | rfl | rfl
  all_goals decide

theorem afterBlanks_append {ws : List UInt8} (h : WhiteSpace ws) (s : List UInt8) :
    afterBlanks (ws ++ s) = afterBlanks s := by
  induction ws with
  | nil => rfl
  | cons c ws ih =>
    have hc := isBlank_of_whiteSpace h c List.mem_cons_self
    rw [← ih fun d hd => h d (List.mem_cons_of_mem _ hd)]
    exact List.dropWhile_cons_of_pos hc

theorem afterBlanks_cons {c : UInt8} (h : isBlank c = false) (s : List UInt8) : afterBlanks (c :: s) = c :: s :=
  List.dropWhile_cons_of_neg (by rw [h]; decide)

/-- White space, and then something else. -/
theorem stopsAt_whiteSpace {ws : List UInt8} (h : WhiteSpace ws) {c : UInt8} (hc : isNumberByte c = false)
    (s : List UInt8) : StopsAt isNumberByte (ws ++ c :: s) := by
  rcases ws with _ | ⟨d, ws⟩
  · intro e he
    rwa [← Option.some.inj he]
  · intro e he
    have hd := h d List.mem_cons_self
    rw [← Option.some.inj he]
    simp only [List.mem_cons, List.not_mem_nil, or_false] at hd
    rcases hd with rfl | rfl | rfl | rfl
    all_goals decide

/-- A text with a token at its beginning has no blanks to skip. -/
theorem afterBlanks_token {P : List UInt8 → Prop} (hP : NeedsToken P) {ws s : List UInt8} (h : WhiteSpace ws)
    (hs : P s) : afterBlanks (ws ++ s) = s := by
  obtain ⟨c, t, rfl, hc⟩ := hP s hs
  rw [afterBlanks_append h, afterBlanks_cons hc]

theorem reads_of_number {number : NumberValue} {depth : ℕ} {s r : List UInt8} (h : SpellsNumber s)
    (hlength : s.length ≤ 63) (hr : StopsAt isNumberByte r) :
    Reads number depth (s ++ r) (.number (number s).1 (number s).2) r := by
  have hstring := numberCString_append h hlength hr
  have hconverted : convertedBytes (s ++ r) = s := by
    unfold convertedBytes
    rw [hstring, h.converted, List.take_length]
  have hpos : strtodLength (numberCString (s ++ r)) ≠ 0 := by
    obtain ⟨c, t, hs, -⟩ := h.starts []
    rw [List.append_nil] at hs
    rw [hstring, h.converted, hs]
    exact Nat.succ_ne_zero _
  have hreads := @Reads.number number depth _ (h.starts r) hpos
  rwa [hconverted, hstring, h.converted, List.drop_left' rfl] at hreads

section Values

variable {number : NumberValue}

mutual

/-- **Each text of a value is read as the value.** -/
theorem SpellsValue.reads {depth : ℕ} {v : CJson} {s : List UInt8} (h : SpellsValue number depth v s) {r : List UInt8}
    (hr : StopsAt isNumberByte r) : Reads number depth (s ++ r) v r := by
  cases h with
  | null => exact .null rfl
  | false => exact .false rfl
  | true => exact .true rfl
  | number hs hlength => exact reads_of_number hs hlength hr
  | string hs => exact .string (hs.reads r)
  | @emptyArray _ ws hdepth hws =>
    refine .emptyArray hdepth (by rw [List.cons_append, List.append_assoc]) ?_
    rw [afterBlanks_append hws]
    rfl
  | array hdepth hitems =>
    exact .array hdepth (by rw [List.cons_append, List.append_assoc]; rfl) (hitems.reads r)
  | @emptyObject _ ws hdepth hws =>
    refine .emptyObject hdepth (by rw [List.cons_append, List.append_assoc]) ?_
    rw [afterBlanks_append hws]
    rfl
  | object hdepth hmembers =>
    exact .object hdepth (by rw [List.cons_append, List.append_assoc]; rfl) (hmembers.reads r)

theorem SpellsItems.reads {depth : ℕ} {items : List CJson} {s : List UInt8}
    (h : SpellsItems number depth items s) (r : List UInt8) :
    ReadsItems number depth (s ++ ascii ']' :: r) items r := by
  cases h with
  | @last _ item ws s ws' hws hs hws' =>
    have hitem := hs.reads (stopsAt_whiteSpace hws' (c := ascii ']') (by decide) r)
    rw [List.append_assoc, List.append_assoc]
    refine .last (u := ws' ++ ascii ']' :: r) ?_ ?_
    · rwa [afterBlanks_token needsToken_reads hws hitem]
    · rw [afterBlanks_append hws', afterBlanks_cons (by decide)]
  | @more _ item items ws s ws' t hws hs hws' hitems =>
    have hrest := hitems.reads r
    have hitem := hs.reads (stopsAt_whiteSpace hws' (c := ascii ',') (by decide) (t ++ ascii ']' :: r))
    rw [List.append_assoc, List.append_assoc, List.append_assoc, List.cons_append]
    refine .more (u := ws' ++ ascii ',' :: (t ++ ascii ']' :: r)) ?_ ?_ hrest
    · rwa [afterBlanks_token needsToken_reads hws hitem]
    · rw [afterBlanks_append hws', afterBlanks_cons (by decide)]

theorem SpellsMembers.reads {depth : ℕ} {members : List (String × CJson)} {s : List UInt8}
    (h : SpellsMembers number depth members s) (r : List UInt8) :
    ReadsMembers number depth (s ++ ascii '}' :: r) members r := by
  cases h with
  | @last _ cs value ws key ws₁ ws₂ s ws' hws hkey hws₁ hws₂ hs hws' =>
    have hvalue := hs.reads (stopsAt_whiteSpace hws' (c := ascii '}') (by decide) r)
    have hname := hkey.reads (ws₁ ++ ascii ':' :: (ws₂ ++ (s ++ (ws' ++ ascii '}' :: r))))
    simp only [List.append_assoc, List.cons_append]
    refine @ReadsMembers.last _ _ _ _ (ws₁ ++ ascii ':' :: (ws₂ ++ (s ++ (ws' ++ ascii '}' :: r))))
      (ws₂ ++ (s ++ (ws' ++ ascii '}' :: r))) (ws' ++ ascii '}' :: r) _ _ ?_ ?_ ?_ ?_
    · rwa [afterBlanks_token needsToken_readsText hws ⟨_, hname, rfl⟩]
    · rw [afterBlanks_append hws₁, afterBlanks_cons (by decide)]
    · rwa [afterBlanks_token needsToken_reads hws₂ hvalue]
    · rw [afterBlanks_append hws', afterBlanks_cons (by decide)]
  | @more _ cs value members ws key ws₁ ws₂ s ws' t hws hkey hws₁ hws₂ hs hws' hmembers =>
    have hrest := hmembers.reads r
    have hvalue := hs.reads (stopsAt_whiteSpace hws' (c := ascii ',') (by decide) (t ++ ascii '}' :: r))
    have hname := hkey.reads (ws₁ ++ ascii ':' :: (ws₂ ++ (s ++ (ws' ++ ascii ',' :: (t ++ ascii '}' :: r)))))
    simp only [List.append_assoc, List.cons_append]
    refine @ReadsMembers.more _ _ _ _ (ws₁ ++ ascii ':' :: (ws₂ ++ (s ++ (ws' ++ ascii ',' :: (t ++ ascii '}' :: r)))))
      (ws₂ ++ (s ++ (ws' ++ ascii ',' :: (t ++ ascii '}' :: r)))) (ws' ++ ascii ',' :: (t ++ ascii '}' :: r)) _ _ _ _
      ?_ ?_ ?_ ?_ hrest
    · rwa [afterBlanks_token needsToken_readsText hws ⟨_, hname, rfl⟩]
    · rw [afterBlanks_append hws₁, afterBlanks_cons (by decide)]
    · rwa [afterBlanks_token needsToken_reads hws₂ hvalue]
    · rw [afterBlanks_append hws', afterBlanks_cons (by decide)]

end

end Values

/-! ### Files -/

/-- What becomes of a file in `loader_read_entire_file`: it cannot be opened, its size cannot be found out, or it has a
size and as many bytes can be read of it as there are in `bytes`. -/
inductive JsonFile where
  | notOpened
  | noSize
  | opened (stSize : ℕ) (bytes : List UInt8)

/-- `loader_read_entire_file`: the buffer and whether one was allocated. -/
def loaderReadEntireFile (granted : Bool) : JsonFile → VkResult × Option (List UInt8) × Bool
  | .notOpened => (.errorInitializationFailed, none, false)
  | .noSize => (.errorInitializationFailed, none, false)
  | .opened stSize bytes =>
    if granted then
      let read := bytes.take stSize
      if read.length = stSize then (.success, some (read ++ [0]), true) else (.errorInitializationFailed, none, true)
    else (.errorOutOfHostMemory, none, false)

/-- `loader_get_json`, and what its allocator was asked for: `none` is the buffer, and the other blocks are those of the
parser. -/
def loaderGetJson (file : JsonFile) (granted : Bool) (grants : ℕ → Bool) (number : NumberValue) :
    Option (VkResult × Option CJsonItem × List (HandleEvent (Option ℕ))) :=
  match loaderReadEntireFile granted file with
  | (.success, some jsonBuf, _) =>
    (parseWithLength jsonBuf grants number).map fun (json, b) =>
      let log := made none :: b.log.map (fun e => e.map some) ++ [givenBack none]
      if b.outOfMemory then (.errorOutOfHostMemory, none, log ++ (heldBlocks json).map (fun n => givenBack (some n)))
      else (.success, json, log)
  | (res, _, allocated) => some (res, none, if allocated then [made none, givenBack none] else [])

/-- **A text of JSON is parsed as its value**: whatever white space and escapes are used, with a byte order mark or
without, the parser gives the tree of the value, with its strings in UTF-8. -/
theorem parseWithLength_spells (number : NumberValue) {v : CJson} {text ws ws' bom : List UInt8}
    (hbom : bom = [] ∨ bom = [0xEF, 0xBB, 0xBF]) (hws : WhiteSpace ws) (htext : SpellsValue number 0 v text)
    (hws' : WhiteSpace ws') : ∃ item b,
      parseWithLength (bom ++ (ws ++ (text ++ ws')) ++ [0]) (fun _ => true) number = some (some item, b) ∧
      item.tree = v := by
  have hstop : StopsAt isNumberByte (ws' ++ [0]) := stopsAt_whiteSpace hws' (by decide) []
  have hreads := htext.reads hstop
  have hstart : textStart (bom ++ (ws ++ (text ++ ws')) ++ [0]) = text ++ (ws' ++ [0]) := by
    obtain ⟨c, t, htoken, hc⟩ := needsToken_reads _ hreads
    have hne : text ≠ [] := by
      rintro rfl
      have hmem : c ∈ ws' ++ [0] := by
        rw [List.nil_append] at htoken
        rw [htoken]
        exact List.mem_cons_self
      rcases List.mem_append.1 hmem with hmem | hmem
      · rw [isBlank_of_whiteSpace hws' c hmem] at hc
        cases hc
      · rw [List.mem_singleton.1 hmem] at hc
        exact absurd hc (by decide)
    have hafter := afterBlanks_token needsToken_reads hws hreads
    have hrest : ws ++ (text ++ ws') ++ [0] = ws ++ (text ++ (ws' ++ [0])) := by simp only [List.append_assoc]
    unfold textStart
    rcases hbom with rfl | rfl
    · rw [List.nil_append, hrest, if_neg fun h => ?_, hafter]
      -- no blank and no value begins like a byte order mark
      have hfirst : (ws ++ (text ++ (ws' ++ [0]))).head? ≠ some 0xEF := by
        rcases ws with _ | ⟨d, ws⟩
        · rw [List.nil_append, htoken, List.head?_cons]
          rw [htoken] at hreads
          intro h
          rw [Option.some.inj h] at hreads
          exact absurd (startsValue_of_reads hreads) (by decide)
        · have hd := isBlank_of_whiteSpace hws d List.mem_cons_self
          intro h
          rw [Option.some.inj h] at hd
          exact absurd hd (by decide)
      obtain ⟨u, hu⟩ := List.isPrefixOf_iff_prefix.1 h.2
      rw [← hu] at hfirst
      exact hfirst rfl
    · have hlength := List.length_pos_iff.2 hne
      have hlong : 4 < ([0xEF, 0xBB, 0xBF] ++ (ws ++ (text ++ (ws' ++ [0])))).length := by
        simp only [List.length_append, List.length_cons, List.length_nil]
        omega
      rw [List.append_assoc, hrest, if_pos ⟨hlong, rfl⟩]
      exact hafter
  obtain ⟨item, b, hparse, hiff⟩ := parseWithLength_iff (bom ++ (ws ++ (text ++ ws')) ++ [0]) number
  rw [hstart] at hiff
  rcases item with _ | item
  · cases (hiff v).2 ⟨_, hreads⟩
  · exact ⟨item, b, hparse, Option.some.inj ((hiff v).2 ⟨_, hreads⟩)⟩

/-- A character outside of the basic plane, as two escapes, and a value after it. -/
theorem parseWithLength_spells_surrogates : ∃ item b,
    parseWithLength ([] ++ ([ascii ' '] ++ (ascii '[' :: ([] ++ ((ascii '"' :: (([ascii '\\', ascii 'u', ascii 'd',
      ascii '8', ascii '3', ascii 'D', ascii '\\', ascii 'u', ascii 'd', ascii 'e', ascii '0', ascii '0'] ++ []) ++
        [ascii '"'])) ++ ([ascii '\t'] ++ ascii ',' :: ([ascii ' '] ++ (trueBytes ++ [])))) ++ [ascii ']']) ++
          [ascii '\n'])) ++ [0]) (fun _ => true) (fun _ => (0, "0")) = some (some item, b) ∧
      item.tree = .array [.string (utf8Text ['😀']), .bool true] := by
  have hstring : SpellsString ['😀'] (ascii '"' :: (([ascii '\\', ascii 'u', ascii 'd', ascii '8', ascii '3',
      ascii 'D', ascii '\\', ascii 'u', ascii 'd', ascii 'e', ascii '0', ascii '0'] ++ []) ++ [ascii '"'])) :=
    ⟨_, .cons (.surrogates (s := [ascii '\\', ascii 'u', ascii 'd', ascii '8', ascii '3', ascii 'D'])
      (t := [ascii '\\', ascii 'u', ascii 'd', ascii 'e', ascii '0', ascii '0']) (by decide)
      ⟨13, 8, 3, 13, _, _, _, _, by decide, by decide, by decide, by decide, by decide, rfl⟩
      ⟨13, 14, 0, 0, _, _, _, _, by decide, by decide, by decide, by decide, by decide, rfl⟩) .nil, rfl⟩
  exact parseWithLength_spells (fun _ => (0, "0")) (.inl rfl) (by decide)
    (.array (by decide) (.more nofun (.string hstring) (by decide) (.last (by decide) .true nofun))) (by decide)

/-- The file can be read as far as it is said to reach. -/
def JsonFile.Holds (file : JsonFile) (text : List UInt8) : Prop :=
  ∃ stSize bytes, file = .opened stSize bytes ∧ stSize ≤ bytes.length ∧ text = bytes.take stSize

theorem loaderReadEntireFile_ends (granted : Bool) (file : JsonFile) :
    (∃ text, file.Holds text ∧ loaderReadEntireFile granted file = (.success, some (text ++ [0]), true) ∧
        granted = true) ∨
      (loaderReadEntireFile granted file).1 ≠ .success ∧ (granted = true → ∀ text, ¬ file.Holds text) := by
  rcases file with _ | _ | ⟨stSize, bytes⟩
  · exact .inr ⟨nofun, fun _ _ ⟨_, _, h, _⟩ => by cases h⟩
  · exact .inr ⟨nofun, fun _ _ ⟨_, _, h, _⟩ => by cases h⟩
  · unfold loaderReadEntireFile
    dsimp only
    rw [List.length_take]
    split_ifs with hgranted hsize
    · exact .inl ⟨_, ⟨stSize, bytes, rfl, by omega, rfl⟩, rfl, hgranted⟩
    · refine .inr ⟨nofun, fun _ text h => ?_⟩
      obtain ⟨_, _, hfile, hle, -⟩ := h
      cases hfile
      omega
    · exact .inr ⟨nofun, fun h => absurd h hgranted⟩

/-- **Reading a manifest**: whatever the file system does and whatever requests are refused, the call ends with an item
or with an error or with neither; all it has allocated, the buffer among it, is freed but for the item; a file that can
be read and is granted its memory is parsed, and with success even where there is no value in it. -/
theorem loaderGetJson_ends (file : JsonFile) (granted : Bool) (grants : ℕ → Bool) (number : NumberValue) :
    ∃ res json log, loaderGetJson file granted grants number = some (res, json, log) ∧
      outstanding 0 log = some (((heldBlocks json).map some : List (Option ℕ)) : Multiset (Option ℕ)) ∧
      (res ≠ .success → json = none) ∧
      (res = .success → ∃ text, file.Holds text ∧
        ∀ v, json.map CJsonItem.tree = some v ↔ ∃ r, Reads number 0 (textStart (text ++ [0])) v r) ∧
      ((∃ text, file.Holds text) → granted = true → (∀ i, grants i = true) → res = .success) := by
  unfold loaderGetJson
  rcases loaderReadEntireFile_ends granted file with ⟨text, hfile, hread, -⟩ | ⟨hres, hfile⟩
  · obtain ⟨json, b, hparse, hlog, hgranted, hrefused, hreads⟩ := parseWithLength_ends (text ++ [0]) grants number
    have hbuffer : outstanding 0 (made none :: b.log.map (fun e => e.map some) ++ [givenBack none]) =
        some (((heldBlocks json).map some : List (Option ℕ)) : Multiset (Option ℕ)) := by
      have hframe := outstanding_frame {none} (outstanding_map some hlog)
      rw [Multiset.map_zero, Multiset.zero_add, Multiset.map_coe, Multiset.add_comm, Multiset.singleton_add] at hframe
      rw [List.cons_append, outstanding_made, outstanding_append]
      rw [show none ::ₘ (0 : Multiset (Option ℕ)) = {none} from rfl, hframe, Option.bind_some]
      exact outstanding_givenBack
    rw [hread]
    dsimp only
    rw [hparse, Option.map_some]
    dsimp only
    split_ifs with hmemory
    · obtain rfl := hrefused hmemory
      refine ⟨_, _, _, rfl, ?_, fun _ => rfl, nofun, fun _ _ hall => ?_⟩
      · rw [show (heldBlocks none).map (fun n => givenBack (some n)) = [] from rfl, List.append_nil]
        exact hbuffer
      · rw [hgranted hall] at hmemory
        cases hmemory
    · refine ⟨_, _, _, rfl, hbuffer, fun h => absurd rfl h, fun _ => ⟨text, hfile, ?_⟩, fun _ _ _ => rfl⟩
      exact hreads (by simpa using hmemory)
  · rcases hread : loaderReadEntireFile granted file with ⟨res, jsonBuf, allocated⟩
    rw [hread] at hres
    refine ⟨res, none, if allocated then [made none, givenBack none] else [], ?_, ?_, fun _ => rfl, fun h => absurd h hres,
      fun ⟨text, htext⟩ hgranted => absurd htext (hfile hgranted text)⟩
    · split
      · next heq => exact absurd (congrArg Prod.fst heq) hres
      · next heq =>
        obtain ⟨rfl, -, rfl⟩ := heq
        rfl
    · rcases allocated with _ | _
      · rfl
      · exact outstanding_givenBack

end VulkanLoader
