import VulkanLoader.Manifests.Fields
import Mathlib.Data.Prod.Lex

/-!
# Versions as strings

`loader_parse_version_string` cuts every part of a version down to 16 bits and packs the parts as they are.  A printed
version gives its own fields again.  A part that is larger than its field goes on into the field above, and no further
(`value_loaderParseVersionString`).
-/

namespace VulkanLoader

open VulkanLoader.Lib

/-- A field of a packed version. -/
inductive VersionField where
  | variant
  | major
  | minor
  | patch
  deriving DecidableEq

namespace VersionField

/-- How many numbers fit into the field. -/
def range : VersionField → ℕ
  | .variant => 8
  | .major => 128
  | .minor => 1024
  | .patch => 4096

/-- `VK_API_VERSION_VARIANT`, `VK_API_VERSION_MAJOR`, `VK_API_VERSION_MINOR` or `VK_API_VERSION_PATCH`. -/
def value (f : VersionField) (version : UInt32) : ℕ :=
  match f with
  | .variant => (vkApiVersionVariant version).toNat
  | .major => (loaderMakeFullVersion version).major
  | .minor => (loaderMakeFullVersion version).minor
  | .patch => (loaderMakeFullVersion version).patch

/-- The place of the field among the parts of a version. -/
def place : VersionField → ℕ
  | .variant => 0
  | .major => 1
  | .minor => 2
  | .patch => 3

/-- What the parts of a version say for the fields, from the variant on: with four parts or more they begin with the
variant, else with the major version. -/
def texts (tokens : List (List Char)) : List (List Char) := if 4 ≤ tokens.length then tokens else [] :: tokens

/-- What a version string says for the field, if it says anything. -/
def text (f : VersionField) (versStr : String) : List Char := (texts (versionTokens versStr)).getD f.place []

/-- The number that a version string gives for the field. -/
def component (f : VersionField) (versStr : String) : ℕ := (versionPart (f.text versStr)).toNat

/-- What the number for the field below is in excess of that field. -/
def excess (f : VersionField) (versStr : String) : ℕ :=
  match f with
  | .variant => major.component versStr / major.range
  | .major => minor.component versStr / minor.range
  | .minor => patch.component versStr / patch.range
  | .patch => 0

end VersionField

/-- A version whose parts fit into their fields. -/
@[ext] structure VkVersion where
  field : VersionField → ℕ
  inRange : ∀ f, field f < f.range

namespace VkVersion

open VersionField

/-- The version packed. -/
def packed (v : VkVersion) : UInt32 :=
  vkMakeApiVersion (.ofNat (v.field variant)) (.ofNat (v.field major)) (.ofNat (v.field minor)) (.ofNat (v.field patch))

/-- The version in three parts. -/
def threeParts (v : VkVersion) : String :=
  toString (v.field major) ++ "." ++ (toString (v.field minor) ++ "." ++ toString (v.field patch))

/-- The version in four parts. -/
def fourParts (v : VkVersion) : String := toString (v.field variant) ++ "." ++ v.threeParts

/-- The string is the version printed; the variant may be left out if it is zero. -/
def Prints (v : VkVersion) (s : String) : Prop := s = v.fourParts ∨ (v.field variant = 0 ∧ s = v.threeParts)

/-- Versions are compared by the variant first and by the patch last. -/
def key (v : VkVersion) : ℕ ×ₗ ℕ ×ₗ ℕ ×ₗ ℕ :=
  toLex (v.field variant, toLex (v.field major, toLex (v.field minor, v.field patch)))

end VkVersion

/-- What is printed is parsed as the version itself, so that the versions keep their order. -/
structure ParsesPrinted : Prop where
  exact : ∀ v s, VkVersion.Prints v s →
    loaderParseVersionString s = v.packed ∧ ∀ f, f.value (loaderParseVersionString s) = v.field f
  distinct : ∀ v w s t, VkVersion.Prints v s → VkVersion.Prints w t →
    (loaderParseVersionString s = loaderParseVersionString t ↔ v = w)
  ordered : ∀ v w s t, VkVersion.Prints v s → VkVersion.Prints w t →
    (loaderParseVersionString s < loaderParseVersionString t ↔ v.key < w.key)

/-- Besides, each field depends on its own text alone. -/
structure ParsesFieldByField : Prop extends ParsesPrinted where
  apart : ∀ s t (f : VersionField), f.text s = f.text t →
    f.value (loaderParseVersionString s) = f.value (loaderParseVersionString t)

/-- Besides, each field takes its own number, and the excess of the field below goes into it. -/
structure ParsesWithExcess : Prop extends ParsesPrinted where
  fields : ∀ s (f : VersionField), f.value (loaderParseVersionString s) = (f.component s ||| f.excess s) % f.range
  apart : ∀ s t (f : VersionField), f.text s = f.text t → f.excess s = f.excess t →
    f.value (loaderParseVersionString s) = f.value (loaderParseVersionString t)

/-! ### Packing -/

section Packing

/-- The lowest bit of the field. -/
def VersionField.shift : VersionField → ℕ
  | .variant => 29
  | .major => 22
  | .minor => 12
  | .patch => 0

/-- The field in a number. -/
def VersionField.bits (f : VersionField) (x : ℕ) : ℕ := x / 2 ^ f.shift % f.range

theorem toNat_vkMakeApiVersion (variant major minor patch : UInt32) :
    (vkMakeApiVersion variant major minor patch).toNat =
      variant.toNat * 2 ^ VersionField.variant.shift % 2 ^ 32 |||
        major.toNat * 2 ^ VersionField.major.shift % 2 ^ 32 |||
        minor.toNat * 2 ^ VersionField.minor.shift % 2 ^ 32 |||
        patch.toNat * 2 ^ VersionField.patch.shift % 2 ^ 32 := by
  have hpatch : patch.toNat % 2 ^ 32 = patch.toNat := Nat.mod_eq_of_lt patch.toNat_lt
  simp only [VersionField.shift, pow_zero, Nat.mul_one, hpatch]
  simp [vkMakeApiVersion, Nat.shiftLeft_eq]

theorem value_eq_bits (f : VersionField) (version : UInt32) : f.value version = f.bits version.toNat := by
  have hmask : ∀ n x : ℕ, x &&& (2 ^ n - 1) = x % 2 ^ n := fun n x => Nat.and_two_pow_sub_one_eq_mod x n
  have hlt := version.toNat_lt
  cases f with
  | variant =>
    change (version >>> 29).toNat = version.toNat / 2 ^ 29 % 8
    rw [Nat.mod_eq_of_lt (by omega)]
    simp [Nat.shiftRight_eq_div_pow]
  | major =>
    change (version >>> 22 &&& 0x7f).toNat = version.toNat / 2 ^ 22 % 2 ^ 7
    rw [← hmask]
    simp [Nat.shiftRight_eq_div_pow]
  | minor =>
    change (version >>> 12 &&& 0x3ff).toNat = version.toNat / 2 ^ 12 % 2 ^ 10
    rw [← hmask]
    simp [Nat.shiftRight_eq_div_pow]
  | patch =>
    change (version &&& 0xfff).toNat = version.toNat / 2 ^ 0 % 2 ^ 12
    rw [← hmask]
    simp

theorem range_eq (f : VersionField) : ∃ n, f.range = 2 ^ n := by
  cases f with
  | variant => exact ⟨3, rfl⟩
  | major => exact ⟨7, rfl⟩
  | minor => exact ⟨10, rfl⟩
  | patch => exact ⟨12, rfl⟩

/-- Numbers are cut down to a field bit by bit. -/
theorem or_mod_range (x y : ℕ) (f : VersionField) : (x ||| y) % f.range = x % f.range ||| y % f.range := by
  obtain ⟨n, hn⟩ := range_eq f
  rw [hn, Nat.or_mod_two_pow]

theorem bits_or (f : VersionField) (x y : ℕ) : f.bits (x ||| y) = f.bits x ||| f.bits y := by
  unfold VersionField.bits
  rw [Nat.or_div_two_pow, or_mod_range]

/-- **What a part of a version puts into a field**: the part is shifted to the field `g`, and `f` takes what of its 16
bits comes to lie in it. -/
theorem bits_shifted {n : ℕ} (hn : n < 2 ^ 16) (g f : VersionField) : f.bits (n * 2 ^ g.shift % 2 ^ 32) =
    if g.shift ≤ f.shift ∧ f.shift < g.shift + 16 then n / 2 ^ (f.shift - g.shift) % f.range else 0 := by
  unfold VersionField.bits
  cases g <;> cases f <;> simp [VersionField.shift, VersionField.range] <;> omega

end Packing

/-- The number that a part of a version gives has 16 bits. -/
theorem versionPart_lt (token : List Char) : (versionPart token).toNat < 2 ^ 16 := by
  unfold versionPart
  rw [UInt16.toNat_toUInt32]
  exact UInt16.toNat_lt _

/-! ### The fields of a string -/

section Fields

theorem versionPart_nil : versionPart [] = 0 := by decide

/-- The parts that are packed are the numbers of the fields. -/
theorem loaderParseVersionString_eq (versStr : String) : loaderParseVersionString versStr =
    vkMakeApiVersion (versionPart (VersionField.variant.text versStr)) (versionPart (VersionField.major.text versStr))
      (versionPart (VersionField.minor.text versStr)) (versionPart (VersionField.patch.text versStr)) := by
  unfold loaderParseVersionString VersionField.text
  rcases versionTokens versStr with _ | ⟨a, _ | ⟨b, _ | ⟨c, _ | ⟨d, tokens⟩⟩⟩⟩
  · decide
  · simp [VersionField.texts, VersionField.place, versionPart_nil]
  · simp [VersionField.texts, VersionField.place, versionPart_nil]
  · simp [VersionField.texts, VersionField.place, versionPart_nil]
  · simp [VersionField.texts, VersionField.place]

/-- **What a field takes**: its own number, cut down to the field, and the excess of the field below. -/
theorem value_loaderParseVersionString (versStr : String) (f : VersionField) :
    f.value (loaderParseVersionString versStr) = (f.component versStr ||| f.excess versStr) % f.range := by
  rw [value_eq_bits, loaderParseVersionString_eq, toNat_vkMakeApiVersion, bits_or, bits_or, bits_or,
    bits_shifted (versionPart_lt _), bits_shifted (versionPart_lt _), bits_shifted (versionPart_lt _),
    bits_shifted (versionPart_lt _), or_mod_range]
  unfold VersionField.excess VersionField.component
  cases f with
  | variant => simp [VersionField.shift, VersionField.range]
  | major => simp [VersionField.shift, VersionField.range]
  | minor => simp [VersionField.shift, VersionField.range]
  | patch => simp [VersionField.shift, VersionField.range]

end Fields

/-! ### Printed numbers -/

section Printed

variable {n : ℕ} {v w : VkVersion} {s t : String} {f : VersionField}

theorem isDigit_of_mem_toDigits {c : Char} (hc : c ∈ Nat.toDigits 10 n) : c.isDigit = true :=
  Nat.isDigit_of_mem_toDigits (by decide) (by decide) hc

theorem digitsValue_toDigits (n : ℕ) : digitsValue (Nat.toDigits 10 n) = n := by
  have hdigits : (Nat.toDigits 10 n).takeWhile Char.isDigit = Nat.toDigits 10 n :=
    List.takeWhile_eq_self_iff.2 fun c hc => isDigit_of_mem_toDigits hc
  unfold digitsValue
  rw [hdigits]
  exact Nat.ofDigitChars_ten_toDigits

theorem atoi_toDigits (hn : n < 2 ^ 63) : atoi (Nat.toDigits 10 n) = n := by
  obtain ⟨c, cs, hcs⟩ := List.exists_cons_of_ne_nil (@Nat.toDigits_ne_nil n 10)
  have hdigit : c.isDigit = true := isDigit_of_mem_toDigits (n := n) (by rw [hcs]; exact List.mem_cons_self)
  have hspace : isSpace c = false := by
    by_contra h
    rw [Bool.not_eq_false, isSpace, decide_eq_true_iff] at h
    simp only [List.mem_cons, List.not_mem_nil, or_false] at h
    rcases h with rfl | rfl | rfl | rfl | rfl | rfl <;> cases hdigit
  have hvalue := digitsValue_toDigits n
  unfold atoi
  rw [hcs] at hvalue ⊢
  rw [List.dropWhile_cons_of_neg (by simp [hspace])]
  split
  · rename_i h
    obtain ⟨rfl, -⟩ := List.cons_eq_cons.1 h
    cases hdigit
  · rename_i h
    obtain ⟨rfl, -⟩ := List.cons_eq_cons.1 h
    cases hdigit
  · change max _ (min _ (digitsValue (c :: cs) : ℤ)) = n
    rw [hvalue]
    omega

theorem versionPart_toDigits (hn : n < 2 ^ 16) : versionPart (Nat.toDigits 10 n) = .ofNat n := by
  have hcast : UInt16.ofInt (n : ℤ) = UInt16.ofNat n := by
    unfold UInt16.ofInt
    congr 1
    omega
  unfold versionPart
  rw [atoi_toDigits (by omega), hcast]
  refine UInt32.toNat_inj.1 ?_
  rw [UInt16.toNat_toUInt32, UInt16.toNat_ofNat', UInt32.toNat_ofNat', Nat.mod_eq_of_lt hn, Nat.mod_eq_of_lt (by omega)]

/-! ### Printed versions -/

theorem not_mem_toDigits (n : ℕ) : '.' ∉ Nat.toDigits 10 n := fun hmem => by
  have hdigit := isDigit_of_mem_toDigits hmem
  cases hdigit

/-- Digits are not changed before the string is cut. -/
theorem map_toDigits (n : ℕ) :
    ((Nat.toDigits 10 n).map fun c => if c ∈ ['"', '\n', '\r'] then '.' else c) = Nat.toDigits 10 n := by
  refine (List.map_congr_left fun c hc => if_neg fun hmem => ?_).trans (List.map_id _)
  have hdigit := isDigit_of_mem_toDigits hc
  simp only [List.mem_cons, List.not_mem_nil, or_false] at hmem
  rcases hmem with rfl | rfl | rfl <;> cases hdigit

theorem versionTokens_toString (n : ℕ) : versionTokens (toString n) = [Nat.toDigits 10 n] := by
  unfold versionTokens
  rw [Nat.toString_eq_repr, Nat.toList_repr, map_toDigits,
    segments_eq_singleton (not_mem_toDigits n) Nat.toDigits_ne_nil]

/-- A number and a separator are cut off. -/
theorem versionTokens_append (n : ℕ) (s : String) :
    versionTokens (toString n ++ "." ++ s) = Nat.toDigits 10 n :: versionTokens s := by
  have hlist : (toString n ++ "." ++ s).toList = Nat.toDigits 10 n ++ '.' :: s.toList := by
    simp [String.toList_append]
  unfold versionTokens
  rw [hlist, List.map_append, map_toDigits, List.map_cons, if_neg (by decide),
    segments_append_cons (not_mem_toDigits n) Nat.toDigits_ne_nil]

theorem versionTokens_threeParts (v : VkVersion) : versionTokens v.threeParts =
    [Nat.toDigits 10 (v.field .major), Nat.toDigits 10 (v.field .minor), Nat.toDigits 10 (v.field .patch)] := by
  unfold VkVersion.threeParts
  rw [versionTokens_append, versionTokens_append, versionTokens_toString]

theorem versionTokens_fourParts (v : VkVersion) :
    versionTokens v.fourParts = Nat.toDigits 10 (v.field .variant) :: versionTokens v.threeParts :=
  versionTokens_append _ _

/-- **The parts of a printed version** are those of the version. -/
theorem versionPart_text (h : v.Prints s) (f : VersionField) : versionPart (f.text s) = .ofNat (v.field f) := by
  have hdigits : ∀ f, versionPart (Nat.toDigits 10 (v.field f)) = .ofNat (v.field f) := fun f => by
    refine versionPart_toDigits ((v.inRange f).trans_le ?_)
    cases f <;> decide
  unfold VersionField.text
  rcases h with rfl | ⟨hvariant, rfl⟩
  · rw [versionTokens_fourParts, versionTokens_threeParts]
    cases f with
    | variant => exact hdigits .variant
    | major => exact hdigits .major
    | minor => exact hdigits .minor
    | patch => exact hdigits .patch
  · rw [versionTokens_threeParts]
    cases f with
    | variant =>
      rw [hvariant]
      exact versionPart_nil
    | major => exact hdigits .major
    | minor => exact hdigits .minor
    | patch => exact hdigits .patch

theorem component_of_prints (h : v.Prints s) (f : VersionField) : f.component s = v.field f := by
  unfold VersionField.component
  rw [versionPart_text h, UInt32.toNat_ofNat']
  refine Nat.mod_eq_of_lt ((v.inRange f).trans_le ?_)
  cases f <;> decide

/-- Nothing of a printed version goes into the field above. -/
theorem excess_of_prints (h : v.Prints s) (f : VersionField) : f.excess s = 0 := by
  have hfits : ∀ g : VersionField, g.component s / g.range = 0 := fun g => by
    rw [component_of_prints h]
    exact Nat.div_eq_of_lt (v.inRange g)
  cases f with
  | variant => exact hfits .major
  | major => exact hfits .minor
  | minor => exact hfits .patch
  | patch => rfl

/-- **A printed version is parsed as the version.** -/
theorem value_of_prints (h : v.Prints s) (f : VersionField) : f.value (loaderParseVersionString s) = v.field f := by
  rw [value_loaderParseVersionString, component_of_prints h, excess_of_prints h, Nat.or_zero]
  exact Nat.mod_eq_of_lt (v.inRange f)

theorem loaderParseVersionString_of_prints (h : v.Prints s) : loaderParseVersionString s = v.packed := by
  rw [loaderParseVersionString_eq, versionPart_text h, versionPart_text h, versionPart_text h, versionPart_text h]
  rfl

end Printed

/-! ### The order of versions -/

/-- A packed version is put together from its fields. -/
theorem toNat_eq_values (version : UInt32) : version.toNat =
    VersionField.variant.value version * 2 ^ 29 + VersionField.major.value version * 2 ^ 22 +
      VersionField.minor.value version * 2 ^ 12 + VersionField.patch.value version := by
  have hlt := version.toNat_lt
  simp only [value_eq_bits, VersionField.bits, VersionField.shift, VersionField.range]
  omega

/-- Two numbers with fields within their ranges are compared as the fields are. -/
theorem lt_iff_key_lt {s t : String} {v w : VkVersion} (hs : v.Prints s) (ht : w.Prints t) :
    loaderParseVersionString s < loaderParseVersionString t ↔ v.key < w.key := by
  rw [UInt32.lt_iff_toNat_lt, toNat_eq_values, toNat_eq_values]
  simp only [value_of_prints hs, value_of_prints ht, VkVersion.key, Prod.Lex.toLex_lt_toLex]
  -- a lower field never makes up for one of the higher fields
  have hv1 := v.inRange .major
  have hv2 := v.inRange .minor
  have hv3 := v.inRange .patch
  have hw1 := w.inRange .major
  have hw2 := w.inRange .minor
  have hw3 := w.inRange .patch
  simp only [VersionField.range] at hv1 hv2 hv3 hw1 hw2 hw3
  omega

theorem eq_iff_version_eq {s t : String} {v w : VkVersion} (hs : v.Prints s) (ht : w.Prints t) :
    loaderParseVersionString s = loaderParseVersionString t ↔ v = w := by
  constructor
  · intro h
    ext f
    rw [← value_of_prints hs, h, value_of_prints ht]
  · rintro rfl
    rw [loaderParseVersionString_of_prints hs, loaderParseVersionString_of_prints ht]

theorem parsesPrinted : ParsesPrinted where
  exact _ _ h := ⟨loaderParseVersionString_of_prints h, value_of_prints h⟩
  distinct _ _ _ _ hs ht := eq_iff_version_eq hs ht
  ordered _ _ _ _ hs ht := lt_iff_key_lt hs ht

/-- **What parsing a version does**: a printed version is parsed as itself, and what is too large for a field goes into
the next field and no further. -/
theorem parsesWithExcess : ParsesWithExcess where
  toParsesPrinted := parsesPrinted
  fields := value_loaderParseVersionString
  apart s t f htext hexcess := by
    have hcomponent : f.component s = f.component t := congrArg (fun token => (versionPart token).toNat) htext
    rw [value_loaderParseVersionString, value_loaderParseVersionString, hcomponent, hexcess]

/-- A patch version of 4096 is read as the next minor version. -/
theorem not_parsesFieldByField : ¬ ParsesFieldByField := by
  intro h
  have hminor := h.apart "1.0.0" "1.0.4096" .minor (by decide)
  revert hminor
  decide

end VulkanLoader
