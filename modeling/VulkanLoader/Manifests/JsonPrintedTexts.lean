import VulkanLoader.Manifests.JsonPrinter

/-!
# The texts that the printer leaves in its buffer

The text of a value, but behind each string with escapes there may be some of what was in the buffer, at most a character
for each escape.  Below the *zone* the buffer held zeros only, so that nothing comes from there.
-/

namespace VulkanLoader

open CJson (printString outputLength hasShortEscape isControl printChar)

/-! ### Texts -/

/-- The room of a string that is not written. -/
def slack (input : String) : ℕ := outputLength input - (printString input).length

/-- The last character is written by `snprintf`, with a zero behind it. -/
def endsControl (input : String) : Bool := (input.toList.getLast?.map isControl).getD false

/-- The text of a string at a place. -/
def StringPrints (zone pos : ℕ) (input : String) (text : List Char) : Prop :=
  ∃ gap, text = printString input ++ gap ∧ gap.length ≤ slack input ∧ nul ∉ gap ∧
    (pos + (printString input).length < zone ∨ endsControl input → gap = [])

mutual

/-- The text of a value at a place. -/
def ValuePrints (zone pos depth : ℕ) : CJson → List Char → Prop
  | .null, text => text = "null".toList
  | .bool value, text => text = if value then "true".toList else "false".toList
  | .number _ number, text => text = number.toList
  | .string valuestring, text => StringPrints zone pos valuestring text
  | .array items, text => ∃ inner, text = '[' :: inner ++ [']'] ∧ ItemsPrint zone (pos + 1) (depth + 1) items inner
  | .object members, text => ∃ inner, text = '{' :: '\n' :: inner ++ List.replicate depth '\t' ++ ['}'] ∧
      MembersPrint zone (pos + 2) (depth + 1) members inner

/-- The text of the items of an array. -/
def ItemsPrint (zone pos depth : ℕ) : List CJson → List Char → Prop
  | [], text => text = []
  | item :: items, text => ∃ first rest, text = first ++ (if items.isEmpty then [] else [',', ' ']) ++ rest ∧
      ValuePrints zone pos depth item first ∧
      ItemsPrint zone (pos + (first ++ (if items.isEmpty then [] else [',', ' '])).length) depth items rest

/-- The text of the members of an object. -/
def MembersPrint (zone pos depth : ℕ) : List (String × CJson) → List Char → Prop
  | [], text => text = []
  | member :: members, text => ∃ first rest, text = first ++ (if members.isEmpty then [] else [',']) ++ '\n' :: rest ∧
      MemberPrints zone pos depth member first ∧
      MembersPrint zone (pos + (first ++ (if members.isEmpty then [] else [','])).length + 1) depth members rest

/-- The text of a member. -/
def MemberPrints (zone pos depth : ℕ) : String × CJson → List Char → Prop
  | (key, value), text => ∃ name rest, text = List.replicate depth '\t' ++ name ++ ':' :: '\t' :: rest ∧
      StringPrints zone (pos + depth) key name ∧ ValuePrints zone (pos + depth + name.length + 2) depth value rest

end

mutual

/-- The room that a value is given. -/
def reserveValue (depth : ℕ) : CJson → ℕ
  | .null => 4
  | .bool _ => 5
  | .number _ number => number.length
  | .string valuestring => outputLength valuestring
  | .array items => reserveItems (depth + 1) items + 2
  | .object members => reserveMembers (depth + 1) members + depth + 3

/-- The room of the items of an array. -/
def reserveItems (depth : ℕ) : List CJson → ℕ
  | [] => 0
  | item :: items => reserveValue depth item + 2 + reserveItems depth items

/-- The room of the members of an object. -/
def reserveMembers (depth : ℕ) : List (String × CJson) → ℕ
  | [] => 0
  | member :: members => reserveMember depth member + 2 + reserveMembers depth members

/-- The room of a member. -/
def reserveMember (depth : ℕ) : String × CJson → ℕ
  | (key, value) => depth + outputLength key + 2 + reserveValue depth value

end

mutual

/-- The strings have no zero in them, and a number has a text of at most 25 characters. -/
def Printable : CJson → Prop
  | .number _ number => number.length ≤ 25 ∧ nul ∉ number.toList
  | .string valuestring => nul ∉ valuestring.toList
  | .array items => PrintableItems items
  | .object members => PrintableMembers members
  | _ => True

/-- The items are printable. -/
def PrintableItems : List CJson → Prop
  | [] => True
  | item :: items => Printable item ∧ PrintableItems items

/-- The members are printable. -/
def PrintableMembers : List (String × CJson) → Prop
  | [] => True
  | member :: members => PrintableMember member ∧ PrintableMembers members

/-- The member is printable. -/
def PrintableMember : String × CJson → Prop
  | (key, value) => nul ∉ key.toList ∧ Printable value

end

/-! ### Strings -/

/-- The room of a character. -/
def charRoom (c : Char) : ℕ := 1 + if hasShortEscape c then 1 else if isControl c then 5 else 0

theorem outputLength_eq (input : String) : outputLength input = (input.toList.map charRoom).sum := by
  unfold outputLength
  rw [← String.length_toList]
  induction input.toList with
  | nil => rfl
  | cons c cs ih =>
    rw [List.map_cons, List.map_cons, List.sum_cons, List.sum_cons, ← ih, List.length_cons, charRoom]
    omega

theorem isControl_of_escape {c : Char} (hcopied : ¬ (c.toNat > 31 ∧ c ≠ '"' ∧ c ≠ '\\'))
    (hshort : ¬ hasShortEscape c) : isControl c := by
  unfold isControl
  unfold hasShortEscape at hshort ⊢
  simp only [Bool.and_eq_true, decide_eq_true_eq, Bool.not_eq_true', decide_eq_false_iff_not] at hshort ⊢
  refine ⟨?_, hshort⟩
  by_contra hlarge
  refine hcopied ⟨by omega, ?_, ?_⟩
  · rintro rfl
    exact hshort (by decide)
  · rintro rfl
    exact hshort (by decide)

theorem printChar_of_not_control {c : Char} (h : ¬ isControl c) : printChar c = [c] := if_neg h

theorem length_printChar_of_control {c : Char} (h : isControl c) : (printChar c).length = 5 := by
  rw [printChar, if_pos h]
  rfl

theorem charRoom_of_control {c : Char} (h : isControl c) : charRoom c = 6 := by
  have hshort : ¬ hasShortEscape c := by
    unfold isControl at h
    simp only [Bool.and_eq_true, Bool.not_eq_true'] at h
    rw [h.2]
    exact Bool.false_ne_true
  rw [charRoom, if_neg hshort, if_pos h]

theorem not_isControl_of_copied {c : Char} (h : c.toNat > 31 ∧ c ≠ '"' ∧ c ≠ '\\' ∨ hasShortEscape c) :
    ¬ isControl c := by
  unfold isControl
  simp only [Bool.and_eq_true, decide_eq_true_eq, Bool.not_eq_true', not_and]
  rcases h with h | h
  · exact fun hsmall => absurd h.1 (by omega)
  · exact fun _ => by rw [h]; exact Bool.noConfusion

/-- The text of a string takes at most its room. -/
theorem length_printChar_le (c : Char) : (printChar c).length ≤ charRoom c := by
  by_cases h : isControl c
  · rw [length_printChar_of_control h, charRoom_of_control h]
    omega
  · rw [printChar_of_not_control h, charRoom, List.length_singleton]
    omega

theorem length_flatMap_printChar_le (input : List Char) :
    (input.flatMap printChar).length ≤ (input.map charRoom).sum := by
  induction input with
  | nil => exact le_rfl
  | cons c cs ih =>
    have hc := length_printChar_le c
    rw [List.flatMap_cons, List.length_append, List.map_cons, List.sum_cons]
    omega

theorem length_printString_le (input : String) : (printString input).length ≤ outputLength input := by
  rw [outputLength_eq]
  exact length_flatMap_printChar_le input.toList

theorem length_add_slack (input : String) : (printString input).length + slack input = outputLength input :=
  Nat.add_sub_cancel' (length_printString_le input)

theorem nul_not_mem_printChar {c : Char} (h : c ≠ nul) : nul ∉ printChar c := by
  by_cases hcontrol : isControl c
  · have hsmall : c.toNat < 32 := by
      unfold isControl at hcontrol
      simp only [Bool.and_eq_true, decide_eq_true_eq] at hcontrol
      exact hcontrol.1
    have hdigits : ∀ n < 32, nul ∉ ['u', '0', '0', Nat.digitChar (n / 16), Nat.digitChar (n % 16)] := by decide
    rw [printChar, if_pos hcontrol]
    exact hdigits _ hsmall
  · rw [printChar_of_not_control hcontrol, List.mem_singleton]
    exact fun heq => h heq.symm

theorem nul_not_mem_printString {input : String} (h : nul ∉ input.toList) : nul ∉ printString input := by
  intro hmem
  obtain ⟨c, hc, hprint⟩ := List.mem_flatMap.1 hmem
  exact nul_not_mem_printChar (fun heq => h (heq ▸ hc)) hprint

/-- A string without slack has no escape. -/
theorem printChar_of_room {c : Char} (h : charRoom c = 1) : printChar c = [c] ∧ isControl c = false := by
  have hcontrol : ¬ isControl c := by
    intro hcontrol
    rw [charRoom_of_control hcontrol] at h
    cases h
  exact ⟨printChar_of_not_control hcontrol, Bool.not_eq_true _ ▸ hcontrol⟩

theorem length_le_sum_charRoom (input : List Char) : input.length ≤ (input.map charRoom).sum := by
  induction input with
  | nil => exact le_rfl
  | cons c input ih =>
    have hpos : 1 ≤ charRoom c := Nat.le_add_right 1 _
    rw [List.length_cons, List.map_cons, List.sum_cons]
    omega

/-- A string whose room is its length. -/
theorem plain_of_outputLength {input : String} (h : outputLength input = input.length) :
    printString input = input.toList ∧ endsControl input = false := by
  have hrooms : ∀ cs : List Char, (cs.map charRoom).sum = cs.length → ∀ c ∈ cs, charRoom c = 1 := by
    intro cs hsum
    induction cs with
    | nil => exact nofun
    | cons c cs ih =>
      have hpos : 1 ≤ charRoom c := Nat.le_add_right 1 _
      have hrest := length_le_sum_charRoom cs
      rw [List.map_cons, List.sum_cons, List.length_cons] at hsum
      exact List.forall_mem_cons.2 ⟨by omega, ih (by omega)⟩
  rw [outputLength_eq, ← String.length_toList] at h
  have hplain := fun c hc => printChar_of_room (hrooms _ h c hc)
  refine ⟨?_, ?_⟩
  · unfold printString
    rw [List.flatMap_congr fun c hc => (hplain c hc).1, List.flatMap_singleton']
  · unfold endsControl
    rcases hlast : input.toList.getLast? with _ | c
    · rfl
    · exact (hplain c (List.mem_of_getLast? hlast)).2

/-! ### Lengths -/

theorem StringPrints.length_le {zone pos : ℕ} {input : String} {text : List Char} (h : StringPrints zone pos input text) :
    text.length ≤ outputLength input := by
  obtain ⟨gap, rfl, hgap, -⟩ := h
  have hslack := length_add_slack input
  rw [List.length_append]
  omega

mutual

theorem ValuePrints.length_le {zone pos depth : ℕ} :
    ∀ {v : CJson} {text : List Char}, ValuePrints zone pos depth v text → text.length ≤ reserveValue depth v
  | .null, text, h => by
    rw [ValuePrints] at h
    exact h ▸ le_rfl
  | .bool value, text, h => by
    rw [ValuePrints] at h
    subst h
    rw [reserveValue]
    cases value <;> decide
  | .number _ number, text, h => by
    rw [ValuePrints] at h
    rw [h, reserveValue, String.length_toList]
  | .string valuestring, text, h => by
    rw [ValuePrints] at h
    rw [reserveValue]
    exact h.length_le
  | .array items, text, h => by
    rw [ValuePrints] at h
    obtain ⟨inner, rfl, hinner⟩ := h
    have hitems := hinner.length_le
    simp only [reserveValue, List.length_append, List.length_cons, List.length_nil]
    omega
  | .object members, text, h => by
    rw [ValuePrints] at h
    obtain ⟨inner, rfl, hinner⟩ := h
    have hmembers := hinner.length_le
    simp only [reserveValue, List.length_append, List.length_cons, List.length_replicate, List.length_nil]
    omega

theorem ItemsPrint.length_le {zone pos depth : ℕ} :
    ∀ {items : List CJson} {text : List Char}, ItemsPrint zone pos depth items text → text.length ≤ reserveItems depth items
  | [], text, h => by
    rw [ItemsPrint] at h
    exact h ▸ Nat.zero_le _
  | item :: items, text, h => by
    rw [ItemsPrint] at h
    obtain ⟨first, rest, rfl, hfirst, hrest⟩ := h
    have hitem := hfirst.length_le
    have hitems := hrest.length_le
    rw [reserveItems, List.length_append, List.length_append]
    split_ifs <;> simp only [List.length_nil, List.length_cons] <;> omega

theorem MembersPrint.length_le {zone pos depth : ℕ} : ∀ {members : List (String × CJson)} {text : List Char},
    MembersPrint zone pos depth members text → text.length ≤ reserveMembers depth members
  | [], text, h => by
    rw [MembersPrint] at h
    exact h ▸ Nat.zero_le _
  | member :: members, text, h => by
    rw [MembersPrint] at h
    obtain ⟨first, rest, rfl, hfirst, hrest⟩ := h
    have hmember := hfirst.length_le
    have hmembers := hrest.length_le
    rw [reserveMembers, List.length_append, List.length_append]
    split_ifs <;> simp only [List.length_nil, List.length_cons] <;> omega

theorem MemberPrints.length_le {zone pos depth : ℕ} : ∀ {member : String × CJson} {text : List Char},
    MemberPrints zone pos depth member text → text.length ≤ reserveMember depth member
  | (key, value), text, h => by
    rw [MemberPrints] at h
    obtain ⟨name, rest, rfl, hname, hrest⟩ := h
    have hkey := hname.length_le
    have hvalue := hrest.length_le
    simp only [reserveMember, List.length_append, List.length_cons, List.length_replicate]
    omega

end

/-! ### Texts without gaps -/

/-- Nothing can be left behind the string. -/
def Gapless (input : String) : Prop := slack input = 0 ∨ endsControl input

mutual

/-- The strings of a value. -/
def strings : CJson → List String
  | .string valuestring => [valuestring]
  | .array items => stringsOfItems items
  | .object members => stringsOfMembers members
  | _ => []

/-- The strings of items. -/
def stringsOfItems : List CJson → List String
  | [] => []
  | item :: items => strings item ++ stringsOfItems items

/-- The strings of members. -/
def stringsOfMembers : List (String × CJson) → List String
  | [] => []
  | member :: members => stringsOfMember member ++ stringsOfMembers members

/-- The strings of a member. -/
def stringsOfMember : String × CJson → List String
  | (key, value) => key :: strings value

end

/-- The text that ends here is in the zone, or none of the strings leaves a gap. -/
def IsPlain (zone last : ℕ) (inputs : List String) : Prop := last < zone ∨ ∀ input ∈ inputs, Gapless input

section Plain

variable {zone pos depth last last' : ℕ} {inputs inputs' : List String}

theorem IsPlain.mono (h : IsPlain zone last inputs) (hlast : last' ≤ last) (hinputs : inputs' ⊆ inputs) :
    IsPlain zone last' inputs' :=
  h.imp (fun hlt => lt_of_le_of_lt hlast hlt) fun hall input hmem => hall input (hinputs hmem)

theorem StringPrints.eq_of_plain {input : String} {text : List Char} (h : StringPrints zone pos input text)
    (hplain : IsPlain zone (pos + (printString input).length) [input]) : text = printString input := by
  obtain ⟨gap, rfl, hgap, -, hzero⟩ := h
  have hnone : gap = [] := by
    rcases hplain with hzone | hgapless
    · exact hzero (.inl hzone)
    · rcases hgapless input List.mem_cons_self with hslack | hcontrol
      · exact List.length_eq_zero_iff.1 (by omega)
      · exact hzero (.inr hcontrol)
  rw [hnone, List.append_nil]

mutual

theorem ValuePrints.eq_of_plain : ∀ {v : CJson} {pos depth : ℕ} {text : List Char}, ValuePrints zone pos depth v text →
    IsPlain zone (pos + (CJson.printValue depth v).length) (strings v) → text = CJson.printValue depth v
  | .null, pos, depth, text, h, _ => by rwa [ValuePrints] at h
  | .bool value, pos, depth, text, h, _ => by rwa [ValuePrints] at h
  | .number _ number, pos, depth, text, h, _ => by rwa [ValuePrints] at h
  | .string valuestring, pos, depth, text, h, hplain => by
    rw [ValuePrints] at h
    rw [CJson.printValue, strings] at hplain
    exact h.eq_of_plain hplain
  | .array items, pos, depth, text, h, hplain => by
    rw [ValuePrints] at h
    obtain ⟨inner, rfl, hinner⟩ := h
    rw [CJson.printValue, strings] at hplain
    rw [CJson.printValue, hinner.eq_of_plain (hplain.mono ?_ (List.Subset.refl _))]
    rw [List.length_append, List.length_cons]
    omega
  | .object members, pos, depth, text, h, hplain => by
    rw [ValuePrints] at h
    obtain ⟨inner, rfl, hinner⟩ := h
    rw [CJson.printValue, strings] at hplain
    rw [CJson.printValue, hinner.eq_of_plain (hplain.mono ?_ (List.Subset.refl _))]
    simp only [List.length_append, List.length_cons]
    omega

theorem ItemsPrint.eq_of_plain : ∀ {items : List CJson} {pos depth : ℕ} {text : List Char},
    ItemsPrint zone pos depth items text → IsPlain zone (pos + (CJson.printItems depth items).length) (stringsOfItems items) →
    text = CJson.printItems depth items
  | [], pos, depth, text, h, _ => by rwa [ItemsPrint] at h
  | item :: items, pos, depth, text, h, hplain => by
    rw [ItemsPrint] at h
    obtain ⟨first, rest, rfl, hfirst, hrest⟩ := h
    rw [CJson.printItems, stringsOfItems] at hplain
    have heq := hfirst.eq_of_plain (hplain.mono (by simp only [List.length_append]; omega) (List.subset_append_left _ _))
    subst heq
    rw [CJson.printItems, hrest.eq_of_plain (hplain.mono ?_ (List.subset_append_right _ _))]
    simp only [List.length_append]
    omega

theorem MembersPrint.eq_of_plain : ∀ {members : List (String × CJson)} {pos depth : ℕ} {text : List Char},
    MembersPrint zone pos depth members text →
    IsPlain zone (pos + (CJson.printMembers depth members).length) (stringsOfMembers members) →
    text = CJson.printMembers depth members
  | [], pos, depth, text, h, _ => by rwa [MembersPrint] at h
  | member :: members, pos, depth, text, h, hplain => by
    rw [MembersPrint] at h
    obtain ⟨first, rest, rfl, hfirst, hrest⟩ := h
    rw [CJson.printMembers, stringsOfMembers] at hplain
    have heq := hfirst.eq_of_plain (hplain.mono (by simp only [List.length_append]; omega) (List.subset_append_left _ _))
    subst heq
    rw [CJson.printMembers, hrest.eq_of_plain (hplain.mono ?_ (List.subset_append_right _ _))]
    simp only [List.length_append, List.length_cons]
    omega

theorem MemberPrints.eq_of_plain : ∀ {member : String × CJson} {pos depth : ℕ} {text : List Char},
    MemberPrints zone pos depth member text →
    IsPlain zone (pos + (CJson.printMember depth member).length) (stringsOfMember member) →
    text = CJson.printMember depth member
  | (key, value), pos, depth, text, h, hplain => by
    rw [MemberPrints] at h
    obtain ⟨name, rest, rfl, hname, hrest⟩ := h
    rw [CJson.printMember, stringsOfMember] at hplain
    have heq := hname.eq_of_plain (hplain.mono (by simp only [List.length_append, List.length_replicate]; omega)
      (List.cons_subset.2 ⟨List.mem_cons_self, List.nil_subset _⟩))
    subst heq
    rw [CJson.printMember, hrest.eq_of_plain (hplain.mono ?_ (List.subset_cons_self _ _))]
    simp only [List.length_append, List.length_cons, List.length_replicate]
    omega

end

end Plain

end VulkanLoader
