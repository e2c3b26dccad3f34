import VulkanLoader.Layers.Properties
import VulkanLoader.Lib.Segments

/-!
# The filter variables (`loader_environment.c`)

The value of a filter variable is a list of tokens between commas, in lower case.  A token is a name, or a part of one
with stars where the rest of the name may stand, or it is special.  The parser stores what kind of token it is with what
remains without the stars; of `VK_LOADER_LAYERS_DISABLE` the special tokens become flags.
-/

namespace VulkanLoader

open VulkanLoader.Lib

/-- `MAX_ADDITIONAL_FILTERS`. -/
def maxAdditionalFilters : ℕ := 16

/-- `VK_LOADER_DISABLE_ALL_LAYERS_VAR_1`, `_2` and `_3`. -/
def vkLoaderDisableAllLayersVars : List (List Char) := ["~all~".toList, "*".toList, "**".toList]

/-- `VK_LOADER_DISABLE_IMPLICIT_LAYERS_VAR`. -/
def vkLoaderDisableImplicitLayersVar : List Char := "~implicit~".toList

/-- `VK_LOADER_DISABLE_EXPLICIT_LAYERS_VAR`. -/
def vkLoaderDisableExplicitLayersVar : List Char := "~explicit~".toList

/-- `tolower` of each character. -/
def lowercase (s : List Char) : List Char := s.map Char.toLower

/-- The tokens that `strtok` finds in a value. -/
def filterTokens (value : Option String) : List (List Char) :=
  match value with
  | none => []
  | some value => segments ',' (lowercase value.toList)

/-- `determine_filter_type`: what a token is to match, without its stars. -/
def determineFilterType (filterString : List Char) : EnvvarFilterValue :=
  let filterLength := filterString.length
  if filterString.head? = some '~' then ⟨filterString, .special⟩
  else
    -- A lone star and a star after one character are set aside as special, but the last test overwrites their kind.
    let starBegin : Bool := filterString.head? = some '*' ∧ filterLength ≠ 1
    let starEnd : Bool := filterString.getLast? = some '*' ∧ filterLength ≠ 2
    if starBegin && starEnd then ⟨(filterString.drop 1).take (filterLength - 2), .substring⟩
    else if starBegin then ⟨filterString.drop 1, .nameEnd⟩
    else if starEnd then ⟨filterString.take (filterLength - 1), .nameStart⟩
    else ⟨filterString, .fullName⟩

/-- The filter value as it is stored, cut to what fits. -/
def storedFilter (token : List Char) : EnvvarFilterValue :=
  let filter := determineFilterType token
  { filter with value := filter.value.take (vkMaxExtensionNameSize - 1) }

/-- The loop of `parse_generic_filter_environment_var`. -/
def parseGenericTokens : List (List Char) → EnvvarFilter → EnvvarFilter
  | [], filterStruct => filterStruct
  | token :: tokens, filterStruct =>
    let filterStruct := filterStruct ++ [storedFilter token]
    if filterStruct.length ≥ maxAdditionalFilters then filterStruct else parseGenericTokens tokens filterStruct

/-- `parse_generic_filter_environment_var`, whose request for a copy of the value may be refused. -/
def parseGenericFilterEnvironmentVar (granted : Bool) (value : Option String) : VkResult × EnvvarFilter :=
  match value with
  | none => (.success, [])
  | some text =>
    if text.toList.isEmpty then (.success, [])
    else if granted then (.success, parseGenericTokens (filterTokens value) [])
    else (.errorOutOfHostMemory, [])

/-- The flag that a special token sets. -/
def markSpecial (token : List Char) (disableStruct : EnvvarDisableLayersFilter) : EnvvarDisableLayersFilter :=
  if token ∈ vkLoaderDisableAllLayersVars then { disableStruct with disableAll := true }
  else if token = vkLoaderDisableImplicitLayersVar then { disableStruct with disableAllImplicit := true }
  else if token = vkLoaderDisableExplicitLayersVar then { disableStruct with disableAllExplicit := true }
  else disableStruct

/-- The loop of `parse_layers_disable_filter_environment_var`. -/
def parseDisableTokens : List (List Char) → EnvvarDisableLayersFilter → EnvvarDisableLayersFilter
  | [], disableStruct => disableStruct
  | token :: tokens, disableStruct =>
    if (determineFilterType token).type = .special then parseDisableTokens tokens (markSpecial token disableStruct)
    else
      let additionalFilters := disableStruct.additionalFilters ++ [storedFilter token]
      let disableStruct := { disableStruct with additionalFilters }
      if additionalFilters.length ≥ maxAdditionalFilters then disableStruct
      else parseDisableTokens tokens disableStruct

/-- `parse_layers_disable_filter_environment_var`. -/
def parseLayersDisableFilterEnvironmentVar (granted : Bool) (value : Option String) :
    VkResult × EnvvarDisableLayersFilter :=
  let zero : EnvvarDisableLayersFilter := ⟨[], false, false, false⟩
  match value with
  | none => (.success, zero)
  | some text =>
    if text.toList.isEmpty then (.success, zero)
    else if granted then (.success, parseDisableTokens (filterTokens value) zero)
    else (.errorOutOfHostMemory, zero)

/-! ### What the tokens mean -/

/-- The variables: one of those that name layers, or the one that disables them, asked about a layer that is explicit or
not. -/
inductive FilterVariable where
  | generic
  | disable (isExplicit : Bool)

namespace FilterVariable

/-- The answer to whether the value of a variable takes a layer. -/
def takes (var : FilterVariable) (value : Option String) (name : String) : Bool :=
  match var with
  | .generic => checkNameMatchesFilterEnvironmentVar name (parseGenericFilterEnvironmentVar true value).2
  | .disable isExplicit =>
    let disableFilter := (parseLayersDisableFilterEnvironmentVar true value).2
    disableFilter.disableAll ||
      (if isExplicit then disableFilter.disableAllExplicit else disableFilter.disableAllImplicit) ||
      checkNameMatchesFilterEnvironmentVar name disableFilter.additionalFilters

end FilterVariable

/-- A token with its stars describes a name. -/
inductive Describes (name : List Char) : List Char → Prop where
  | fullName : Describes name name
  | nameStart {s : List Char} : s <+: name → Describes name (s ++ ['*'])
  | nameEnd {s : List Char} : s <:+ name → Describes name ('*' :: s)
  | substring {s : List Char} : s <:+: name → Describes name ('*' :: s ++ ['*'])

/-- A token means the layers of a kind. -/
def MeansKind : FilterVariable → List Char → Prop
  | .generic, _ => False
  | .disable isExplicit, token =>
    token = if isExplicit then vkLoaderDisableExplicitLayersVar else vkLoaderDisableImplicitLayersVar

/-- A token means a layer, by its name in lower case. -/
def Means (var : FilterVariable) (name token : List Char) : Prop :=
  Describes name token ∨ token ∈ vkLoaderDisableAllLayersVars ∨ MeansKind var token

/-- The tokens that mean a layer and are read as something else: two stars, which become the suffix of one; a character
and a star, which become a whole name; `~all~`, where the name is shorter; any other token that begins as the special
ones do. -/
def Misread (var : FilterVariable) (name token : List Char) : Prop :=
  (token = "**".toList ∧ ¬ ['*'] <:+ name) ∨
  (∃ c, token = [c, '*'] ∧ c ≠ '*' ∧ c ≠ '~' ∧ [c] <+: name ∧ name ≠ token) ∨
  (var = .generic ∧ token = "~all~".toList ∧ name.length < 5) ∨
  (token.head? = some '~' ∧ token ≠ "~all~".toList ∧ ¬ MeansKind var token ∧ Describes name token)

/-- The value of a variable takes a layer exactly when one of its tokens means it. -/
def TakesAsMeant (var : FilterVariable) (value : Option String) (name : String) : Prop :=
  var.takes value name ↔ ∃ token ∈ filterTokens value, Means var (lowercase name.toList) token

/-- Where a token is misread, there is another that means the layer and is not. -/
def MisreadHarmlessly (var : FilterVariable) (value : Option String) (name : String) : Prop :=
  (∃ token ∈ filterTokens value, Misread var (lowercase name.toList) token) →
    ∃ token ∈ filterTokens value,
      Means var (lowercase name.toList) token ∧ ¬ Misread var (lowercase name.toList) token

/-! ### What a stored filter matches -/

section Matching

variable {name value token : List Char}

@[simp] theorem length_lowercase (s : List Char) : (lowercase s).length = s.length := List.length_map _

theorem nameSegmentMatchesFilterValue_iff :
    nameSegmentMatchesFilterValue name value ↔ value <+: lowercase name := by
  rw [nameSegmentMatchesFilterValue, beq_iff_eq, List.prefix_iff_eq_take, lowercase, List.map_take, eq_comm]

theorem any_nameSegmentMatches_iff (h : value.length ≤ name.length) :
    ((List.range (name.length - value.length + 1)).any fun start =>
      nameSegmentMatchesFilterValue (name.drop start) value) ↔ value <:+: lowercase name := by
  simp only [List.any_eq_true, List.mem_range, nameSegmentMatchesFilterValue_iff]
  constructor
  · rintro ⟨start, -, hbegins⟩
    rw [lowercase, List.map_drop] at hbegins
    exact hbegins.isInfix.trans (List.drop_suffix start (lowercase name)).isInfix
  · rintro ⟨before, after, hname⟩
    have hlength := congrArg List.length hname
    simp only [List.length_append, lowercase, List.length_map] at hlength
    refine ⟨before.length, by omega, after, ?_⟩
    rw [lowercase, List.map_drop, ← lowercase, ← hname, List.append_assoc, List.drop_left]

theorem drop_nameSegmentMatches_iff (h : value.length ≤ name.length) :
    nameSegmentMatchesFilterValue (name.drop (name.length - value.length)) value ↔ value <:+ lowercase name := by
  rw [nameSegmentMatchesFilterValue_iff, lowercase, List.map_drop, ← lowercase, List.suffix_iff_eq_drop,
    length_lowercase]
  constructor
  · intro hbegins
    refine hbegins.eq_of_length ?_
    rw [List.length_drop, length_lowercase]
    omega
  · intro heq
    exact ⟨[], by rw [List.append_nil, ← heq]⟩

/-- What a filter value matches. -/
def FilterMatches (name : List Char) (filter : EnvvarFilterValue) : Prop :=
  match filter.type with
  | .special => filter.value ∈ vkLoaderDisableAllLayersVars ∧ filter.value.length ≤ name.length
  | .substring => filter.value <:+: lowercase name
  | .nameEnd => filter.value <:+ lowercase name
  | .nameStart => filter.value <+: lowercase name
  | .fullName => filter.value = lowercase name

theorem nameMatchesFilterValue_iff (filter : EnvvarFilterValue) :
    nameMatchesFilterValue name filter ↔ FilterMatches name filter := by
  have hlength := length_lowercase name
  obtain ⟨value, type⟩ := filter
  unfold nameMatchesFilterValue FilterMatches
  by_cases hlong : value.length > name.length
  · rw [if_pos hlong]
    simp only [Bool.false_eq_true, false_iff]
    rcases type with _ | _ | _ | _ | _ <;> intro h
    · exact absurd (congrArg List.length h) (by omega)
    · exact absurd h.length_le (by omega)
    · exact absurd h.length_le (by omega)
    · exact absurd h.length_le (by omega)
    · exact absurd h.2 (by omega)
  · rw [if_neg hlong]
    rw [not_lt] at hlong
    rcases type with _ | _ | _ | _ | _
    · simp only [Bool.and_eq_true, beq_iff_eq, nameSegmentMatchesFilterValue_iff]
      constructor
      · rintro ⟨heq, hbegins⟩
        exact hbegins.eq_of_length (by omega)
      · rintro rfl
        exact ⟨hlength.symm, List.prefix_refl _⟩
    · exact any_nameSegmentMatches_iff hlong
    · exact nameSegmentMatchesFilterValue_iff
    · exact drop_nameSegmentMatches_iff hlong
    · simp [vkLoaderDisableAllLayersVars, hlong, or_assoc]

end Matching

/-! ### How a token is read -/

section Reading

variable {name token s : List Char} {c : Char} {var : FilterVariable}

theorem describes_iff : Describes name token ↔
    token = name ∨ (∃ s, s <+: name ∧ token = s ++ ['*']) ∨ (∃ s, s <:+ name ∧ token = '*' :: s) ∨
      ∃ s, s <:+: name ∧ token = '*' :: s ++ ['*'] := by
  constructor
  · rintro (_ | h | h | h)
    · exact .inl rfl
    · exact .inr (.inl ⟨_, h, rfl⟩)
    · exact .inr (.inr (.inl ⟨_, h, rfl⟩))
    · exact .inr (.inr (.inr ⟨_, h, rfl⟩))
  · rintro (rfl | ⟨s, h, rfl⟩ | ⟨s, h, rfl⟩ | ⟨s, h, rfl⟩)
    · exact .fullName
    · exact .nameStart h
    · exact .nameEnd h
    · exact .substring h

theorem describes_substring : Describes name ('*' :: s ++ ['*']) ↔ s <:+: name := by
  constructor
  · rintro h
    rcases describes_iff.1 h with h | ⟨t, ht, h⟩ | ⟨t, ht, h⟩ | ⟨t, ht, h⟩
    · exact ⟨['*'], ['*'], h⟩
    · obtain rfl := List.append_cancel_right h
      exact (List.suffix_cons '*' s).isInfix.trans ht.isInfix
    · obtain rfl := (List.cons.inj h).2
      exact (List.prefix_append s ['*']).isInfix.trans ht.isInfix
    · obtain rfl := (List.cons.inj (List.append_cancel_right h)).2
      exact ht
  · exact .substring

/-- The last character tells a suffix from a substring. -/
theorem describes_nameEnd (hlast : ('*' :: s).getLast? ≠ some '*') : Describes name ('*' :: s) ↔ s <:+ name := by
  constructor
  · intro h
    rcases describes_iff.1 h with h | ⟨t, -, h⟩ | ⟨t, ht, h⟩ | ⟨t, -, h⟩
    · exact ⟨['*'], h⟩
    · exact absurd (h ▸ List.getLast?_concat) hlast
    · obtain rfl := (List.cons.inj h).2
      exact ht
    · exact absurd (h ▸ List.getLast?_concat) hlast
  · exact .nameEnd

/-- The first character tells a prefix from a substring. -/
theorem describes_nameStart (hhead : (s ++ ['*']).head? ≠ some '*') :
    Describes name (s ++ ['*']) ↔ s <+: name := by
  constructor
  · intro h
    rcases describes_iff.1 h with h | ⟨t, ht, h⟩ | ⟨t, -, h⟩ | ⟨t, -, h⟩
    · exact ⟨['*'], h⟩
    · obtain rfl := List.append_cancel_right h
      exact ht
    · exact absurd (h ▸ List.head?_cons) hhead
    · exact absurd (h ▸ List.head?_cons) hhead
  · exact .nameStart

theorem describes_fullName (hhead : token.head? ≠ some '*') (hlast : token.getLast? ≠ some '*') :
    Describes name token ↔ token = name := by
  constructor
  · intro h
    rcases describes_iff.1 h with h | ⟨t, -, rfl⟩ | ⟨t, -, rfl⟩ | ⟨t, -, rfl⟩
    · exact h
    all_goals simp at hhead hlast
  · rintro rfl
    exact .fullName

/-- A lone star describes every name. -/
theorem describes_star : Describes name ['*'] := .nameStart (s := []) List.nil_prefix

/-- A token that is neither special, nor two stars, nor a character and a star, is read as it is meant. -/
theorem filterMatches_determineFilterType {name : List Char} (hne : token ≠ [])
    (hspecial : token.head? ≠ some '~') (hstar : token.length = 2 → token.getLast? ≠ some '*') :
    FilterMatches name (determineFilterType token) ↔ Describes (lowercase name) token := by
  unfold determineFilterType
  rw [if_neg hspecial]
  by_cases hbegin : token.head? = some '*' ∧ token.length ≠ 1 <;>
    by_cases hend : token.getLast? = some '*' ∧ token.length ≠ 2 <;>
    simp only [hbegin, hend, decide_true, decide_false, Bool.and_true, Bool.and_false, if_true, if_false,
      Bool.false_eq_true, ne_eq, not_false_eq_true, and_self]
  · -- There is a star at each end.
    obtain ⟨s, rfl⟩ : ∃ s, token = '*' :: s ++ ['*'] := by
      obtain ⟨u, rfl⟩ := List.getLast?_eq_some_iff.1 hend.1
      rcases u with _ | ⟨c, s⟩
      · simp at hbegin
      · obtain rfl : c = '*' := by simpa using hbegin.1
        exact ⟨s, rfl⟩
    have hvalue : (('*' :: s ++ ['*']).drop 1).take (('*' :: s ++ ['*']).length - 2) = s := by simp
    rw [hvalue, describes_substring]
    rfl
  · -- There is one at the beginning only.
    obtain ⟨s, rfl⟩ := List.head?_eq_some_iff.1 hbegin.1
    have hlast : ('*' :: s).getLast? ≠ some '*' := by
      rw [not_and, not_not] at hend
      exact fun h => hstar (hend h) h
    rw [describes_nameEnd hlast]
    rfl
  · -- There is one at the end only, which a lone star is too.
    obtain ⟨s, rfl⟩ := List.getLast?_eq_some_iff.1 hend.1
    have hvalue : (s ++ ['*']).take ((s ++ ['*']).length - 1) = s := by simp
    rw [hvalue]
    rcases s with _ | ⟨c, s⟩
    · exact ⟨fun _ => describes_star, fun _ => List.nil_prefix⟩
    · have hhead : (c :: s ++ ['*']).head? ≠ some '*' := by
        rw [not_and, not_not] at hbegin
        exact fun h => by simpa using hbegin h
      rw [describes_nameStart hhead]
      rfl
  · -- There is none.
    have hlast : token.getLast? ≠ some '*' := by
      rw [not_and, not_not] at hend
      exact fun h => hstar (hend h) h
    have hhead : token.head? ≠ some '*' := by
      rw [not_and, not_not] at hbegin
      intro h
      obtain ⟨s, rfl⟩ := List.head?_eq_some_iff.1 h
      obtain rfl : s = [] := by simpa using hbegin h
      exact hlast rfl
    rw [describes_fullName hhead hlast]
    rfl

theorem type_determineFilterType : (determineFilterType token).type = .special ↔ token.head? = some '~' := by
  unfold determineFilterType
  dsimp only
  split_ifs with hspecial <;> simp [hspecial]

theorem length_determineFilterType : (determineFilterType token).value.length ≤ token.length := by
  unfold determineFilterType
  dsimp only
  split_ifs <;> simp only [List.length_take, List.length_drop, le_refl] <;> omega

theorem storedFilter_eq (h : token.length < vkMaxExtensionNameSize) : storedFilter token = determineFilterType token := by
  have hle : (determineFilterType token).value.length ≤ vkMaxExtensionNameSize - 1 :=
    length_determineFilterType.trans (Nat.le_sub_one_of_lt h)
  rw [storedFilter, List.take_of_length_le hle]

/-- Whether a token, as it is read, takes a layer. -/
def tokenTakes (var : FilterVariable) (name token : List Char) : Bool :=
  match var with
  | .generic => nameMatchesFilterValue name (storedFilter token)
  | .disable isExplicit =>
    if (determineFilterType token).type = .special then
      decide (token ∈ vkLoaderDisableAllLayersVars) ||
        token == if isExplicit then vkLoaderDisableExplicitLayersVar else vkLoaderDisableImplicitLayersVar
    else nameMatchesFilterValue name (storedFilter token)

theorem determineFilterType_special (h : token.head? = some '~') : determineFilterType token = ⟨token, .special⟩ := by
  unfold determineFilterType
  rw [if_pos h]

theorem mem_disableAllLayersVars_special (h : token.head? = some '~') :
    token ∈ vkLoaderDisableAllLayersVars ↔ token = "~all~".toList := by
  unfold vkLoaderDisableAllLayersVars
  constructor
  · intro hmem
    simp only [List.mem_cons, List.not_mem_nil, or_false] at hmem
    rcases hmem with rfl | rfl | rfl
    · rfl
    · simp at h
    · simp at h
  · rintro rfl
    exact List.mem_cons_self

/-- A special token, as it is read. -/
theorem tokenTakes_special {name : List Char} (h : token.head? = some '~')
    (hlt : token.length < vkMaxExtensionNameSize) :
    tokenTakes var name token ↔
      (token = "~all~".toList ∧ (var = .generic → 5 ≤ name.length)) ∨ MeansKind var token := by
  rcases var with _ | isExplicit
  · simp only [tokenTakes, nameMatchesFilterValue_iff, storedFilter_eq hlt, determineFilterType_special h, FilterMatches,
      mem_disableAllLayersVars_special h, MeansKind, or_false, true_imp_iff]
    exact and_congr_right fun heq => by rw [heq]; rfl
  · rw [tokenTakes, if_pos (type_determineFilterType.2 h), Bool.or_eq_true, decide_eq_true_iff, beq_iff_eq,
      mem_disableAllLayersVars_special h]
    exact or_congr_left ⟨fun heq => ⟨heq, nofun⟩, And.left⟩

theorem misread_special {name : List Char} (h : token.head? = some '~') :
    Misread var name token ↔ (var = .generic ∧ token = "~all~".toList ∧ name.length < 5) ∨
      (token ≠ "~all~".toList ∧ ¬ MeansKind var token ∧ Describes name token) := by
  unfold Misread
  constructor
  · rintro (⟨rfl, -⟩ | ⟨c, rfl, -, hc, -⟩ | hall | ⟨-, hrest⟩)
    · simp at h
    · exact absurd (by simpa using h) hc
    · exact .inl hall
    · exact .inr hrest
  · rintro (hall | hrest)
    · exact .inr (.inr (.inl hall))
    · exact .inr (.inr (.inr ⟨h, hrest⟩))

/-- A token that does not begin as the special ones is misread only if it is two stars or a character and one. -/
theorem misread_iff_of_head {name : List Char} (h : token.head? ≠ some '~') :
    Misread var name token ↔ (token = ['*', '*'] ∧ ¬ ['*'] <:+ name) ∨
      ∃ c, token = [c, '*'] ∧ c ≠ '*' ∧ [c] <+: name ∧ name ≠ token := by
  unfold Misread
  constructor
  · rintro (htwo | ⟨c, hc, hstar, -, hrest⟩ | ⟨-, rfl, -⟩ | ⟨hspecial, -⟩)
    · exact .inl htwo
    · exact .inr ⟨c, hc, hstar, hrest⟩
    · simp at h
    · exact absurd hspecial h
  · rintro (htwo | ⟨c, rfl, hstar, hrest⟩)
    · exact .inl htwo
    · refine .inr (.inl ⟨c, rfl, hstar, ?_, hrest⟩)
      rintro rfl
      exact h rfl

theorem means_iff_of_head {name : List Char} (h : token.head? ≠ some '~') :
    Means var name token ↔ Describes name token ∨ token = ['*', '*'] := by
  have hkind : ¬ MeansKind var token := by
    rcases var with _ | _ | _
    · exact id
    · rintro rfl
      exact h rfl
    · rintro rfl
      exact h rfl
  simp only [Means, hkind, or_false, vkLoaderDisableAllLayersVars, List.mem_cons, List.not_mem_nil]
  constructor
  · rintro (hdescribes | rfl | rfl | rfl)
    · exact .inl hdescribes
    · exact absurd rfl h
    · exact .inl describes_star
    · exact .inr rfl
  · rintro (hdescribes | rfl)
    · exact .inl hdescribes
    · exact .inr (.inr (.inr rfl))

theorem tokenTakes_of_head {name : List Char} (h : token.head? ≠ some '~')
    (hlt : token.length < vkMaxExtensionNameSize) :
    tokenTakes var name token ↔ FilterMatches name (determineFilterType token) := by
  rw [← nameMatchesFilterValue_iff, ← storedFilter_eq hlt]
  rcases var with _ | _
  · exact Iff.rfl
  · rw [tokenTakes, if_neg fun htype => h (type_determineFilterType.1 htype)]

/-- What a token takes, as it is read, is what it means unless it is misread. -/
theorem tokenTakes_iff {name : List Char} (hne : token ≠ []) (hlt : token.length < vkMaxExtensionNameSize) :
    tokenTakes var name token ↔ Means var (lowercase name) token ∧ ¬ Misread var (lowercase name) token := by
  by_cases hspecial : token.head? = some '~'
  · rw [tokenTakes_special hspecial hlt, misread_special hspecial, Means, mem_disableAllLayersVars_special hspecial,
      length_lowercase, ← not_le]
    have hgeneric : var = .generic → ¬ MeansKind var token := by
      rintro rfl
      exact id
    tauto
  · rw [tokenTakes_of_head hspecial hlt, misread_iff_of_head hspecial, means_iff_of_head hspecial]
    by_cases hstar : token.length = 2 ∧ token.getLast? = some '*'
    · -- A character and a star.
      obtain ⟨c, rfl⟩ : ∃ c, token = [c, '*'] := by
        obtain ⟨u, rfl⟩ := List.getLast?_eq_some_iff.1 hstar.2
        obtain ⟨c, rfl⟩ := List.length_eq_one_iff.1 (by simpa using hstar.1)
        exact ⟨c, rfl⟩
      rcases eq_or_ne c '*' with rfl | hc
      · have hread : FilterMatches name (determineFilterType ['*', '*']) ↔ ['*'] <:+ lowercase name := Iff.rfl
        have hone : ¬ ∃ c, ['*', '*'] = [c, '*'] ∧ c ≠ '*' ∧ [c] <+: lowercase name ∧ lowercase name ≠ ['*', '*'] := by
          rintro ⟨c, heq, hc, -⟩
          exact hc (List.cons.inj heq).1.symm
        simp only [hread, hone, or_true, true_and, or_false, not_not]
      · have hread : FilterMatches name (determineFilterType [c, '*']) ↔ [c, '*'] = lowercase name := by
          have hspecial : c ≠ '~' := fun h => hspecial (congrArg some h)
          simp [determineFilterType, FilterMatches, hspecial, hc]
        have htwo : [c, '*'] ≠ ['*', '*'] := fun h => hc (List.cons.inj h).1
        have hone : (∃ d, [c, '*'] = [d, '*'] ∧ d ≠ '*' ∧ [d] <+: lowercase name ∧ lowercase name ≠ [c, '*']) ↔
            [c] <+: lowercase name ∧ lowercase name ≠ [c, '*'] := by
          simp [hc]
        have hhead : ([c] ++ ['*']).head? ≠ some '*' := fun h => hc (Option.some.inj h)
        have hdescribes : Describes (lowercase name) [c, '*'] ↔ [c] <+: lowercase name := describes_nameStart hhead
        rw [hread, hone, hdescribes]
        simp only [htwo, false_and, false_or, or_false, not_and, not_not]
        constructor
        · intro h
          exact ⟨h ▸ List.prefix_append [c] ['*'], fun _ => h.symm⟩
        · rintro ⟨hbegins, h⟩
          exact (h hbegins).symm
    · rw [filterMatches_determineFilterType hne hspecial fun h2 hlast => hstar ⟨h2, hlast⟩]
      have htwo : token ≠ ['*', '*'] := by
        rintro rfl
        exact hstar ⟨rfl, rfl⟩
      have hone : ¬ ∃ c, token = [c, '*'] ∧ c ≠ '*' ∧ [c] <+: lowercase name ∧ lowercase name ≠ token := by
        rintro ⟨c, rfl, -⟩
        exact hstar ⟨rfl, rfl⟩
      simp [htwo, hone]

end Reading

/-! ### How a value is read -/

section Values

variable {var : FilterVariable} {tokens : List (List Char)} {name : List Char}

theorem parseGenericTokens_eq {filterStruct : EnvvarFilter}
    (h : filterStruct.length + tokens.length ≤ maxAdditionalFilters) :
    parseGenericTokens tokens filterStruct = filterStruct ++ tokens.map storedFilter := by
  induction tokens generalizing filterStruct with
  | nil => simp [parseGenericTokens]
  | cons token tokens ih =>
    have hlength : (filterStruct ++ [storedFilter token]).length + tokens.length ≤ maxAdditionalFilters := by
      simp only [List.length_append, List.length_cons, List.length_nil] at h ⊢
      omega
    unfold parseGenericTokens
    by_cases hfull : (filterStruct ++ [storedFilter token]).length ≥ maxAdditionalFilters
    · obtain rfl : tokens = [] := List.eq_nil_of_length_eq_zero (by omega)
      simp only [if_pos hfull, List.map_cons, List.map_nil]
    · simp only [if_neg hfull]
      rw [ih hlength, List.map_cons, List.append_assoc, List.singleton_append]

/-- What a struct of the disable variable takes. -/
def disableTakes (isExplicit : Bool) (disableStruct : EnvvarDisableLayersFilter) (name : List Char) : Bool :=
  disableStruct.disableAll ||
    (if isExplicit then disableStruct.disableAllExplicit else disableStruct.disableAllImplicit) ||
    disableStruct.additionalFilters.any (nameMatchesFilterValue name)

theorem additionalFilters_markSpecial (token : List Char) (disableStruct : EnvvarDisableLayersFilter) :
    (markSpecial token disableStruct).additionalFilters = disableStruct.additionalFilters := by
  unfold markSpecial
  split_ifs <;> rfl

theorem disableTakes_markSpecial {isExplicit : Bool} {token : List Char} {disableStruct : EnvvarDisableLayersFilter}
    (h : (determineFilterType token).type = .special) :
    disableTakes isExplicit (markSpecial token disableStruct) name =
      (disableTakes isExplicit disableStruct name || tokenTakes (.disable isExplicit) name token) := by
  have hkinds : vkLoaderDisableImplicitLayersVar ≠ vkLoaderDisableExplicitLayersVar := by decide
  simp only [tokenTakes, h, if_true, disableTakes, additionalFilters_markSpecial]
  unfold markSpecial
  by_cases hall : token ∈ vkLoaderDisableAllLayersVars
  · simp [hall]
  by_cases himplicit : token = vkLoaderDisableImplicitLayersVar
  · rcases isExplicit with _ | _ <;> simp [himplicit, hkinds, himplicit ▸ hall]
  by_cases hexplicit : token = vkLoaderDisableExplicitLayersVar
  · rcases isExplicit with _ | _ <;> simp [hexplicit, hkinds.symm, hexplicit ▸ hall]
  · rcases isExplicit with _ | _ <;> simp [hall, himplicit, hexplicit]

theorem disableTakes_parseDisableTokens {isExplicit : Bool} {disableStruct : EnvvarDisableLayersFilter}
    (h : disableStruct.additionalFilters.length + tokens.length ≤ maxAdditionalFilters) :
    disableTakes isExplicit (parseDisableTokens tokens disableStruct) name =
      (disableTakes isExplicit disableStruct name || tokens.any (tokenTakes (.disable isExplicit) name)) := by
  induction tokens generalizing disableStruct with
  | nil => simp [parseDisableTokens]
  | cons token tokens ih =>
    rw [List.length_cons] at h
    rw [List.any_cons, ← Bool.or_assoc]
    unfold parseDisableTokens
    by_cases htype : (determineFilterType token).type = .special
    · rw [if_pos htype, ih (by rw [additionalFilters_markSpecial]; omega), disableTakes_markSpecial htype]
    · rw [if_neg htype]
      -- A token that is stored.
      have hlength : (disableStruct.additionalFilters ++ [storedFilter token]).length + tokens.length ≤
          maxAdditionalFilters := by
        simp only [List.length_append, List.length_cons, List.length_nil]
        omega
      have htakes : disableTakes isExplicit
          { disableStruct with additionalFilters := disableStruct.additionalFilters ++ [storedFilter token] } name =
          (disableTakes isExplicit disableStruct name || tokenTakes (.disable isExplicit) name token) := by
        simp [disableTakes, tokenTakes, htype, Bool.or_assoc]
      rw [← htakes]
      by_cases hfull : (disableStruct.additionalFilters ++ [storedFilter token]).length ≥ maxAdditionalFilters
      · obtain rfl : tokens = [] := List.eq_nil_of_length_eq_zero (by omega)
        simp only [if_pos hfull, List.any_nil, Bool.or_false]
      · simp only [if_neg hfull]
        exact ih hlength

/-- What a value takes: a layer that one of its tokens takes, as it is read. -/
theorem takes_eq {value : Option String} {name : String}
    (hcount : (filterTokens value).length ≤ maxAdditionalFilters) :
    var.takes value name = (filterTokens value).any (tokenTakes var name.toList) := by
  rcases value with _ | text
  · rcases var with _ | _ | _ <;> rfl
  by_cases hempty : text.toList.isEmpty
  · have htokens : filterTokens (some text) = [] := by
      rw [filterTokens, List.isEmpty_iff.1 hempty]
      rfl
    rw [htokens]
    rcases var with _ | _ | _ <;> simp [FilterVariable.takes, parseGenericFilterEnvironmentVar,
      parseLayersDisableFilterEnvironmentVar, checkNameMatchesFilterEnvironmentVar, hempty]
  rcases var with _ | isExplicit
  · simp only [FilterVariable.takes, parseGenericFilterEnvironmentVar, hempty, if_true, if_false, Bool.false_eq_true]
    rw [parseGenericTokens_eq (by simpa using hcount), checkNameMatchesFilterEnvironmentVar, List.nil_append,
      List.any_map]
    rfl
  · simp only [FilterVariable.takes, parseLayersDisableFilterEnvironmentVar, hempty, if_true, if_false,
      Bool.false_eq_true]
    refine (disableTakes_parseDisableTokens (by simpa using hcount)).trans ?_
    simp [disableTakes]

theorem means_of_misread {token : List Char} (h : Misread var name token) : Means var name token := by
  rcases h with ⟨rfl, -⟩ | ⟨c, rfl, -, -, hbegins, -⟩ | ⟨-, rfl, -⟩ | ⟨-, -, -, hdescribes⟩
  · exact .inr (.inl (by decide))
  · exact .inl (.nameStart hbegins)
  · exact .inr (.inl (by decide))
  · exact .inl hdescribes

/-- **When a variable takes the layers that it means**: exactly when no layer is missed for a misread token alone. -/
theorem takesAsMeant_iff (var : FilterVariable) (value : Option String) (name : String)
    (hcount : (filterTokens value).length ≤ maxAdditionalFilters)
    (hlength : ∀ token ∈ filterTokens value, token.length < vkMaxExtensionNameSize) :
    TakesAsMeant var value name ↔ MisreadHarmlessly var value name := by
  have hne : ∀ token ∈ filterTokens value, token ≠ [] := by
    intro token htoken
    rcases value with _ | text
    · simp [filterTokens] at htoken
    · exact ne_nil_of_mem_segments htoken
  have htakes : var.takes value name ↔ ∃ token ∈ filterTokens value,
      Means var (lowercase name.toList) token ∧ ¬ Misread var (lowercase name.toList) token := by
    rw [takes_eq hcount, List.any_eq_true]
    exact exists_congr fun token => and_congr_right fun htoken =>
      tokenTakes_iff (hne token htoken) (hlength token htoken)
  unfold TakesAsMeant MisreadHarmlessly
  rw [htakes]
  constructor
  · rintro h ⟨token, htoken, hmisread⟩
    exact h.2 ⟨token, htoken, means_of_misread hmisread⟩
  · intro h
    constructor
    · rintro ⟨token, htoken, hmeans, -⟩
      exact ⟨token, htoken, hmeans⟩
    · rintro ⟨token, htoken, hmeans⟩
      by_cases hmisread : Misread var (lowercase name.toList) token
      · exact h ⟨token, htoken, hmisread⟩
      · exact ⟨token, htoken, hmeans, hmisread⟩

/-- Two tokens, neither of which is misread. -/
theorem takesAsMeant_prefix :
    TakesAsMeant .generic (some "VK_LAYER_A*,*validation") "VK_LAYER_KHRONOS_validation" ↔
      MisreadHarmlessly .generic (some "VK_LAYER_A*,*validation") "VK_LAYER_KHRONOS_validation" :=
  takesAsMeant_iff _ _ _ (by decide) (by decide)

end Values

/-- Two stars do not take the layer. -/
theorem not_takesAsMeant : ¬ TakesAsMeant .generic (some "**") "VK_LAYER_KHRONOS_validation" := by
  intro h
  have htakes : FilterVariable.generic.takes (some "**") "VK_LAYER_KHRONOS_validation" = false := by decide
  have hmeans : ∃ token ∈ filterTokens (some "**"),
      Means .generic (lowercase "VK_LAYER_KHRONOS_validation".toList) token :=
    ⟨"**".toList, by decide, .inr (.inl (by decide))⟩
  exact absurd (h.2 hmeans) (by simp [htakes])

end VulkanLoader
