import VulkanLoader.Base
import Mathlib.Data.UInt
import Mathlib.Tactic.Common

/-!
# The validation of names (`vk_string_validate`)

The string is read byte by byte through its pointer; the indices of the bytes that are read are kept.  The loop over the
bytes and the loop over the rest of a sequence advance one index.
-/

namespace VulkanLoader

/-- `VkStringErrorFlags`. -/
structure VkStringErrorFlags where
  length : Bool := false
  badData : Bool := false
  nullPtr : Bool := false
  deriving DecidableEq

/-- `VK_STRING_ERROR_NONE`. -/
def VkStringErrorFlags.none : VkStringErrorFlags := {}

/-- `MaxLoaderStringLength`. -/
def maxLoaderStringLength : ℕ := 256

/-- `UTF8_DATA_BYTE_MASK` and `UTF8_DATA_BYTE_CODE`. -/
def isDataByte (b : UInt8) : Bool := b &&& 0xC0 == 0x80

/-- The printable bytes of ASCII. -/
def isPrintable (b : UInt8) : Bool := b ≥ 0x20 && b < 0x7f

/-- How many bytes a byte that starts a sequence announces. -/
def announcedBytes (b : UInt8) : Option ℕ :=
  if b &&& 0xE0 == 0xC0 then some 1
  else if b &&& 0xF0 == 0xE0 then some 2
  else if b &&& 0xF8 == 0xF0 then some 3
  else none

/-- The locals of `vk_string_validate`, and the indices that were read. -/
structure StringValidation where
  i : ℕ
  numCharBytes : ℕ
  result : VkStringErrorFlags
  reads : List ℕ

/-- `num_char_bytes` and the result, by the byte. -/
def StringValidation.classify (s : StringValidation) (b : UInt8) : StringValidation :=
  if isPrintable b then { s with numCharBytes := 0 }
  else
    match announcedBytes b with
    | some n => { s with numCharBytes := n }
    -- `num_char_bytes` is that of the byte before
    | none => { s with result := { VkStringErrorFlags.none with badData := true } }

section Validate

variable (maxLength : ℕ) (utf8 : ℕ → UInt8)

/-- The loop over the bytes that are announced; `true` is `return`. -/
def validateDataBytes : ℕ → StringValidation → Bool × StringValidation
  | 0, s => (false, s)
  | n + 1, s =>
    if s.i < maxLength then
      let i := s.i + 1
      if i = maxLength then (false, { s with i := i, result := { s.result with length := true } })
      else
        let s := { s with i := i, reads := s.reads ++ [i] }
        if utf8 i = 0 then (true, { s with result := { s.result with badData := true } })
        else if isDataByte (utf8 i) then validateDataBytes n s
        else validateDataBytes n { s with result := { s.result with badData := true } }
    else (false, s)

/-- The loop over the string, for so many rounds. -/
def validateBytes : ℕ → StringValidation → StringValidation
  | 0, s => s
  | rounds + 1, s =>
    if s.i ≤ maxLength then
      let s := { s with reads := s.reads ++ [s.i] }
      if utf8 s.i = 0 then s
      else if s.i = maxLength then { s with result := { s.result with length := true } }
      else
        let s := s.classify (utf8 s.i)
        match validateDataBytes maxLength utf8 s.numCharBytes s with
        | (true, s) => s
        | (false, s) => validateBytes rounds { s with i := s.i + 1 }
    else s

/-- `vk_string_validate`, with what it reads; each round of the loop advances the index. -/
def vkStringValidate (utf8 : Option (ℕ → UInt8)) : VkStringErrorFlags × List ℕ :=
  match utf8 with
  | none => ({ VkStringErrorFlags.none with nullPtr := true }, [])
  | some utf8 =>
    let s := validateBytes maxLength utf8 (maxLength + 1) ⟨0, 0, .none, []⟩
    (s.result, s.reads)

end Validate

/-- The bytes that the characters of a string stand for, and the `NUL` after them. -/
def cString (str : String) (k : ℕ) : UInt8 := (str.toList.map Char.toUInt8).getD k 0

/-! ### Well-formed text -/

/-- How many data bytes follow a byte that is printable, or that starts a sequence. -/
def charBytes (b : UInt8) : Option ℕ := if isPrintable b then some 0 else announcedBytes b

/-- Printable bytes of ASCII, and sequences of a byte and as many data bytes as it announces. -/
inductive IsText : List UInt8 → Prop where
  | nil : IsText []
  | printable {b : UInt8} {rest : List UInt8} (hb : isPrintable b) (hrest : IsText rest) : IsText (b :: rest)
  | sequence {b : UInt8} {data rest : List UInt8} (hb : announcedBytes b = some data.length)
    (hdata : ∀ c ∈ data, isDataByte c) (hrest : IsText rest) : IsText (b :: (data ++ rest))

/-- The bytes from `i` on, up to `n`. -/
def bytesFrom (utf8 : ℕ → UInt8) (i n : ℕ) : List UInt8 := (List.range' i (n - i)).map utf8

/-- **A well-formed bounded string**: it ends at an index of at most `maxLength`, and what comes before is text. -/
def IsBoundedText (maxLength : ℕ) (utf8 : ℕ → UInt8) (i : ℕ) : Prop :=
  ∃ n, i ≤ n ∧ n ≤ maxLength ∧ utf8 n = 0 ∧ IsText (bytesFrom utf8 i n)

section Text

variable {maxLength i n m : ℕ} {utf8 : ℕ → UInt8} {b : UInt8} {rest : List UInt8}

set_option maxRecDepth 2000 in
theorem not_isPrintable_of_announced (hb : announcedBytes b = some m) : isPrintable b = false := by
  have h : ∀ x : Fin 256, (announcedBytes ⟨⟨x⟩⟩).isSome → isPrintable ⟨⟨x⟩⟩ = false := by decide
  exact h b.toBitVec.toFin (by
    change (announcedBytes b).isSome
    rw [hb]
    rfl)

theorem isDataByte_ne_zero (hb : isDataByte b) : b ≠ 0 := by
  rintro rfl
  exact absurd hb (by decide)

/-- What a text is made of. -/
theorem isText_cons_iff : IsText (b :: rest) ↔
    ∃ m, charBytes b = some m ∧ m ≤ rest.length ∧ (∀ c ∈ rest.take m, isDataByte c) ∧ IsText (rest.drop m) := by
  constructor
  · intro h
    cases h with
    | printable hb hrest => exact ⟨0, if_pos hb, Nat.zero_le _, by simp, hrest⟩
    | @sequence _ data rest hb hdata hrest =>
      refine ⟨data.length, ?_, ?_, ?_, ?_⟩
      · rw [charBytes, not_isPrintable_of_announced hb, if_neg Bool.false_ne_true, hb]
      · rw [List.length_append]
        omega
      · rwa [List.take_left' rfl]
      · rwa [List.drop_left' rfl]
  · rintro ⟨m, hb, hm, hdata, hrest⟩
    unfold charBytes at hb
    split_ifs at hb with hprintable
    · obtain rfl := Option.some.inj hb
      exact .printable hprintable hrest
    · have hlen : (rest.take m).length = m := List.length_take_of_le hm
      have h := IsText.sequence (hb.trans (congrArg some hlen.symm)) hdata hrest
      rwa [List.take_append_drop] at h

theorem bytesFrom_self : bytesFrom utf8 n n = [] := by
  rw [bytesFrom, Nat.sub_self]
  rfl

theorem length_bytesFrom : (bytesFrom utf8 i n).length = n - i := by
  rw [bytesFrom, List.length_map, List.length_range']

theorem bytesFrom_cons (h : i < n) : bytesFrom utf8 i n = utf8 i :: bytesFrom utf8 (i + 1) n := by
  have hlen : n - i = n - (i + 1) + 1 := by omega
  rw [bytesFrom, bytesFrom, hlen, List.range'_succ, List.map_cons]

theorem drop_bytesFrom : (bytesFrom utf8 i n).drop m = bytesFrom utf8 (i + m) n := by
  have hlen : n - (i + m) = n - i - m := by omega
  rw [bytesFrom, bytesFrom, ← List.map_drop, List.drop_range', Nat.mul_one, hlen]

theorem mem_take_bytesFrom (h : m ≤ n - i) {p : UInt8 → Prop} :
    (∀ c ∈ (bytesFrom utf8 i n).take m, p c) ↔ ∀ k, i ≤ k → k < i + m → p (utf8 k) := by
  rw [bytesFrom, ← List.map_take, List.take_range'_of_length_ge h]
  simp only [List.forall_mem_map, List.mem_range'_1, and_imp]

/-- **One character** of a bounded text. -/
theorem isBoundedText_iff (hb : utf8 i ≠ 0) : IsBoundedText maxLength utf8 i ↔ ∃ m, charBytes (utf8 i) = some m ∧
    i + m < maxLength ∧ (∀ k, i < k → k ≤ i + m → isDataByte (utf8 k)) ∧
      IsBoundedText maxLength utf8 (i + m + 1) := by
  constructor
  · rintro ⟨n, hin, hn, hzero, htext⟩
    have hlt : i < n := lt_of_le_of_ne hin fun heq => hb (heq ▸ hzero)
    rw [bytesFrom_cons hlt, isText_cons_iff, length_bytesFrom] at htext
    obtain ⟨m, hm, hlen, hdata, hrest⟩ := htext
    rw [mem_take_bytesFrom hlen] at hdata
    rw [drop_bytesFrom, Nat.add_right_comm] at hrest
    exact ⟨m, hm, by omega, fun k hk hk' => hdata k (by omega) (by omega), n, by omega, hn, hzero, hrest⟩
  · rintro ⟨m, hm, hlen, hdata, n, hin, hn, hzero, htext⟩
    refine ⟨n, by omega, hn, hzero, ?_⟩
    rw [bytesFrom_cons (by omega), isText_cons_iff, length_bytesFrom]
    refine ⟨m, hm, by omega, ?_, ?_⟩
    · rw [mem_take_bytesFrom (by omega)]
      exact fun k hk hk' => hdata k (by omega) (by omega)
    · rwa [drop_bytesFrom, Nat.add_right_comm]

end Text

/-! ### The loops -/

section Loops

variable {maxLength : ℕ} {utf8 : ℕ → UInt8} {s : StringValidation}

theorem badData_ne_none (result : VkStringErrorFlags) : { result with badData := true } ≠ VkStringErrorFlags.none :=
  fun h => Bool.noConfusion (congrArg VkStringErrorFlags.badData h)

theorem length_ne_none (result : VkStringErrorFlags) : { result with length := true } ≠ VkStringErrorFlags.none :=
  fun h => Bool.noConfusion (congrArg VkStringErrorFlags.length h)

theorem classify_of_charBytes {b : UInt8} {m : ℕ} (hb : charBytes b = some m) :
    s.classify b = { s with numCharBytes := m } := by
  unfold charBytes at hb
  unfold StringValidation.classify
  split_ifs at hb ⊢ with hprintable
  · obtain rfl := Option.some.inj hb
    rfl
  · rw [hb]

theorem classify_of_charBytes_none {b : UInt8} (hb : charBytes b = none) : (s.classify b).result ≠ .none := by
  unfold charBytes at hb
  unfold StringValidation.classify
  split_ifs at hb ⊢
  rw [hb]
  exact badData_ne_none _

theorem classify_i (b : UInt8) : (s.classify b).i = s.i := by
  unfold StringValidation.classify
  split
  · rfl
  · split <;> rfl

theorem classify_reads (b : UInt8) : (s.classify b).reads = s.reads := by
  unfold StringValidation.classify
  split
  · rfl
  · split <;> rfl

/-- An error stays. -/
theorem classify_error (b : UInt8) (hs : s.result ≠ .none) : (s.classify b).result ≠ .none := by
  unfold StringValidation.classify
  split
  · exact hs
  · split
    · exact hs
    · exact badData_ne_none _

/-- In the inner loop the index does not go back, and an error stays. -/
theorem validateDataBytes_error (n : ℕ) (s : StringValidation) :
    let r := validateDataBytes maxLength utf8 n s
    s.i ≤ r.2.i ∧ (s.result ≠ .none → r.2.result ≠ .none) ∧ (r.1 = true → r.2.result ≠ .none) := by
  induction n generalizing s with
  | zero => exact ⟨le_rfl, id, nofun⟩
  | succ n ih =>
    dsimp only [validateDataBytes]
    split_ifs with hlt hmax hzero hdata
    · exact ⟨Nat.le_succ _, fun _ => length_ne_none _, nofun⟩
    · exact ⟨Nat.le_succ _, fun _ => badData_ne_none _, fun _ => badData_ne_none _⟩
    · obtain ⟨hi, herror, hreturn⟩ := ih { s with i := s.i + 1, reads := s.reads ++ [s.i + 1] }
      exact ⟨Nat.le_of_succ_le hi, herror, hreturn⟩
    · obtain ⟨hi, herror, hreturn⟩ := ih { s with
        i := s.i + 1, reads := s.reads ++ [s.i + 1], result := { s.result with badData := true } }
      exact ⟨Nat.le_of_succ_le hi, fun _ => herror (badData_ne_none _), hreturn⟩
    · exact ⟨le_rfl, id, nofun⟩

/-- What the inner loop finds of a string that was well-formed so far. -/
theorem validateDataBytes_result (n : ℕ) (s : StringValidation) (hs : s.result = .none) (hlt : s.i < maxLength) :
    let r := validateDataBytes maxLength utf8 n s
    (r.2.result = .none ↔ s.i + n < maxLength ∧ ∀ k, s.i < k → k ≤ s.i + n → isDataByte (utf8 k)) ∧
      (r.2.result = .none → r.1 = false ∧ r.2.i = s.i + n) := by
  induction n generalizing s with
  | zero => exact ⟨iff_of_true hs ⟨hlt, fun k hk hk' => absurd hk (by omega)⟩, fun _ => ⟨rfl, rfl⟩⟩
  | succ n ih =>
    have hfail : ∀ (result : VkStringErrorFlags) (atEnd : Prop), result ≠ .none →
        ¬ (s.i + (n + 1) < maxLength ∧ ∀ k, s.i < k → k ≤ s.i + (n + 1) → isDataByte (utf8 k)) →
        (result = .none ↔ s.i + (n + 1) < maxLength ∧ ∀ k, s.i < k → k ≤ s.i + (n + 1) → isDataByte (utf8 k)) ∧
          (result = .none → atEnd) :=
      fun result atEnd hr hnot => ⟨iff_of_false hr hnot, fun h => absurd h hr⟩
    dsimp only [validateDataBytes]
    rw [if_pos hlt]
    split_ifs with hmax hzero hdata
    · exact hfail _ _ (length_ne_none s.result) fun h => absurd h.1 (by omega)
    · exact hfail _ _ (badData_ne_none s.result) fun h =>
        isDataByte_ne_zero (h.2 (s.i + 1) (Nat.lt_succ_self _) (by omega)) hzero
    · obtain ⟨hiff, hend⟩ := ih { s with i := s.i + 1, reads := s.reads ++ [s.i + 1] } hs (by dsimp only; omega)
      have hsum : s.i + 1 + n = s.i + (n + 1) := by omega
      dsimp only at hiff hend
      rw [hsum] at hiff hend
      refine ⟨hiff.trans (and_congr_right fun _ => ⟨fun h k hk hk' => ?_, fun h k hk => h k (by omega)⟩), hend⟩
      rcases Nat.eq_or_lt_of_le hk with rfl | hk
      · exact hdata
      · exact h k hk hk'
    · obtain ⟨-, herror, -⟩ := @validateDataBytes_error maxLength utf8 n { s with
        i := s.i + 1, reads := s.reads ++ [s.i + 1], result := { s.result with badData := true } }
      refine hfail _ _ (herror (badData_ne_none s.result)) fun h => ?_
      exact hdata (h.2 (s.i + 1) (Nat.lt_succ_self _) (by omega))

/-- A byte that may be read: it is within the bound, and none before it is the end. -/
def MayRead (maxLength : ℕ) (utf8 : ℕ → UInt8) (k : ℕ) : Prop := k ≤ maxLength ∧ ∀ m < k, utf8 m ≠ 0

/-- The bytes up to the index are within the bound, and not the end. -/
theorem validateDataBytes_reads (n : ℕ) (s : StringValidation) (hreads : ∀ k ∈ s.reads, MayRead maxLength utf8 k)
    (hbefore : s.i < maxLength → ∀ m ≤ s.i, utf8 m ≠ 0) :
    let r := validateDataBytes maxLength utf8 n s
    (∀ k ∈ r.2.reads, MayRead maxLength utf8 k) ∧
      (r.1 = false → r.2.i < maxLength → ∀ m ≤ r.2.i, utf8 m ≠ 0) := by
  induction n generalizing s with
  | zero => exact ⟨hreads, fun _ => hbefore⟩
  | succ n ih =>
    dsimp only [validateDataBytes]
    by_cases hlt : s.i < maxLength
    · have hread : ∀ k ∈ s.reads ++ [s.i + 1], MayRead maxLength utf8 k := by
        intro k hk
        rcases List.mem_append.1 hk with hk | hk
        · exact hreads k hk
        · obtain rfl := List.mem_singleton.1 hk
          exact ⟨hlt, fun m hm => hbefore hlt m (Nat.le_of_lt_succ hm)⟩
      rw [if_pos hlt]
      by_cases hmax : s.i + 1 = maxLength
      · rw [if_pos hmax]
        exact ⟨hreads, fun _ h => absurd h (by dsimp only; omega)⟩
      rw [if_neg hmax]
      by_cases hzero : utf8 (s.i + 1) = 0
      · rw [if_pos hzero]
        exact ⟨hread, nofun⟩
      have hnext : s.i + 1 < maxLength → ∀ m ≤ s.i + 1, utf8 m ≠ 0 := fun _ m hm => by
        rcases Nat.lt_or_eq_of_le hm with hm | rfl
        · exact hbefore hlt m (Nat.le_of_lt_succ hm)
        · exact hzero
      rw [if_neg hzero]
      split_ifs
      · exact ih { s with i := s.i + 1, reads := s.reads ++ [s.i + 1] } hread hnext
      · exact ih { s with
          i := s.i + 1, reads := s.reads ++ [s.i + 1], result := { s.result with badData := true } } hread hnext
    · rw [if_neg hlt]
      exact ⟨hreads, fun _ => hbefore⟩

/-- What the rounds that are left find: enough of them are left to come to the end. -/
theorem validateBytes_result (rounds : ℕ) (s : StringValidation) (hrounds : maxLength + 1 ≤ s.i + rounds)
    (hs : s.i ≤ maxLength ∨ s.result ≠ .none) :
    (validateBytes maxLength utf8 rounds s).result = .none ↔ s.result = .none ∧ IsBoundedText maxLength utf8 s.i := by
  induction rounds generalizing s with
  | zero =>
    have herror := hs.resolve_left (by omega)
    exact iff_of_false herror fun h => herror h.1
  | succ rounds ih =>
    dsimp only [validateBytes]
    by_cases hle : s.i ≤ maxLength
    swap
    · rw [if_neg hle]
      have herror := hs.resolve_left hle
      exact iff_of_false herror fun h => herror h.1
    rw [if_pos hle]
    by_cases hzero : utf8 s.i = 0
    · rw [if_pos hzero]
      exact (and_iff_left ⟨s.i, le_rfl, hle, hzero, by rw [bytesFrom_self]; exact .nil⟩).symm
    rw [if_neg hzero]
    by_cases hmax : s.i = maxLength
    · rw [if_pos hmax]
      refine iff_of_false (length_ne_none s.result) ?_
      rintro ⟨-, n, hin, hn, hend, -⟩
      have heq : s.i = n := by omega
      exact hzero (heq ▸ hend)
    rw [if_neg hmax]
    have hlt : s.i < maxLength := lt_of_le_of_ne hle hmax
    generalize hs₁ : StringValidation.classify { s with reads := s.reads ++ [s.i] } (utf8 s.i) = s₁
    have hi₁ : s₁.i = s.i := by rw [← hs₁, classify_i]
    obtain ⟨hi, herror, hreturn⟩ := @validateDataBytes_error maxLength utf8 s₁.numCharBytes s₁
    -- the rounds after the inner loop
    have hnext : ∀ r : Bool × StringValidation, validateDataBytes maxLength utf8 s₁.numCharBytes s₁ = r →
        (r.2.result = .none → r.1 = false ∧ r.2.i < maxLength) →
        ((match r with
          | (true, s) => s
          | (false, s) => validateBytes maxLength utf8 rounds { s with i := s.i + 1 }).result = .none ↔
        r.2.result = .none ∧ IsBoundedText maxLength utf8 (r.2.i + 1)) := by
      rintro ⟨returned, s₂⟩ hr hwithin
      rw [hr] at hi herror hreturn
      cases returned with
      | true => exact iff_of_false (hreturn rfl) fun h => hreturn rfl h.1
      | false =>
        refine ih { s₂ with i := s₂.i + 1 } (by dsimp only at hi ⊢; omega) ?_
        by_cases hnone : s₂.result = .none
        · exact .inl (hwithin hnone).2
        · exact .inr hnone
    -- after an error there is nothing more to find
    have hbad : s₁.result ≠ .none → ¬ (s.result = .none ∧ IsBoundedText maxLength utf8 s.i) → _ := fun hbad hnot =>
      (hnext _ rfl fun h => absurd h (herror hbad)).trans (iff_of_false (fun h => herror hbad h.1) hnot)
    by_cases hnone : s.result = .none
    · rcases hchar : charBytes (utf8 s.i) with _ | m
      · refine hbad (hs₁ ▸ classify_of_charBytes_none hchar) fun h => ?_
        obtain ⟨m, hm, -⟩ := (isBoundedText_iff hzero).1 h.2
        cases hchar.symm.trans hm
      · rw [classify_of_charBytes hchar] at hs₁
        have hm : s₁.numCharBytes = m := by rw [← hs₁]
        have hnone₁ : s₁.result = .none := by rw [← hs₁, ← hnone]
        rw [hm] at hnext ⊢
        obtain ⟨hiff, hend⟩ := @validateDataBytes_result maxLength utf8 m s₁ hnone₁ (by omega)
        rw [hi₁] at hiff hend
        have hstep : IsBoundedText maxLength utf8 s.i ↔ s.i + m < maxLength ∧
            (∀ k, s.i < k → k ≤ s.i + m → isDataByte (utf8 k)) ∧ IsBoundedText maxLength utf8 (s.i + m + 1) := by
          rw [isBoundedText_iff hzero, hchar]
          simp
        rw [hnext _ rfl fun h => ⟨(hend h).1, (hend h).2.symm ▸ (hiff.1 h).1⟩, and_iff_right hnone, hstep,
          ← and_assoc, ← hiff]
        exact and_congr_right fun h => by rw [(hend h).2]
    · exact hbad (hs₁ ▸ classify_error _ hnone) fun h => hnone h.1

/-- What the rounds read: no byte after the end, and none beyond the bound. -/
theorem validateBytes_reads (rounds : ℕ) (s : StringValidation) (hreads : ∀ k ∈ s.reads, MayRead maxLength utf8 k)
    (hbefore : s.i ≤ maxLength → ∀ m < s.i, utf8 m ≠ 0) :
    ∀ k ∈ (validateBytes maxLength utf8 rounds s).reads, MayRead maxLength utf8 k := by
  induction rounds generalizing s with
  | zero => exact hreads
  | succ rounds ih =>
    dsimp only [validateBytes]
    by_cases hle : s.i ≤ maxLength
    swap
    · rw [if_neg hle]
      exact hreads
    have hread : ∀ k ∈ s.reads ++ [s.i], MayRead maxLength utf8 k := by
      intro k hk
      rcases List.mem_append.1 hk with hk | hk
      · exact hreads k hk
      · obtain rfl := List.mem_singleton.1 hk
        exact ⟨hle, hbefore hle⟩
    rw [if_pos hle]
    split_ifs with hzero hmax
    · exact hread
    · exact hread
    generalize hs₁ : StringValidation.classify { s with reads := s.reads ++ [s.i] } (utf8 s.i) = s₁
    have hi₁ : s₁.i = s.i := by rw [← hs₁, classify_i]
    have hreads₁ : ∀ k ∈ s₁.reads, MayRead maxLength utf8 k := by rwa [← hs₁, classify_reads]
    obtain ⟨hreads₂, hbefore₂⟩ := validateDataBytes_reads s₁.numCharBytes s₁ hreads₁ fun _ m hm => by
      rcases Nat.lt_or_eq_of_le hm with hm | rfl
      · exact hbefore hle m (hi₁ ▸ hm)
      · rwa [hi₁]
    rcases hr : validateDataBytes maxLength utf8 s₁.numCharBytes s₁ with ⟨returned, s₂⟩
    rw [hr] at hreads₂ hbefore₂
    cases returned with
    | true => exact hreads₂
    | false => exact ih { s₂ with i := s₂.i + 1 } hreads₂ fun hle m hm => hbefore₂ rfl hle m (Nat.le_of_lt_succ hm)

end Loops

/-- What `vk_string_validate` finds. -/
theorem vkStringValidate_eq_none_iff (maxLength : ℕ) (utf8 : ℕ → UInt8) :
    (vkStringValidate maxLength (some utf8)).1 = .none ↔
      ∃ n ≤ maxLength, utf8 n = 0 ∧ IsText ((List.range n).map utf8) := by
  refine (validateBytes_result (maxLength + 1) ⟨0, 0, .none, []⟩ (by simp) (.inl (Nat.zero_le _))).trans ?_
  simp [IsBoundedText, bytesFrom, List.range_eq_range']

/-- **`vk_string_validate` accepts the well-formed bounded strings**, and reads neither past the end of a string nor
beyond the bound. -/
theorem vkStringValidate_iff (maxLength : ℕ) (utf8 : ℕ → UInt8) :
    ((vkStringValidate maxLength (some utf8)).1 = .none ↔
      ∃ n ≤ maxLength, utf8 n = 0 ∧ IsText ((List.range n).map utf8)) ∧
      ∀ k ∈ (vkStringValidate maxLength (some utf8)).2, k ≤ maxLength ∧ ∀ m < k, utf8 m ≠ 0 := by
  constructor
  · exact vkStringValidate_eq_none_iff maxLength utf8
  · exact validateBytes_reads (maxLength + 1) ⟨0, 0, .none, []⟩ (by simp) (by simp)

end VulkanLoader
