import VulkanLoader.Base
import Mathlib.Tactic.Common

/-!
# Lists of strings (`loader_string_list`)

A list of zeros has no array.  The functions that add a string own it: where the array cannot grow they free it.  Whether
the requests that a call makes are granted is an argument of it.
-/

namespace VulkanLoader

/-- `struct loader_string_list`: what is in its array, if there is one, and `allocated_count`. -/
structure StringList where
  list : Option (List String)
  allocatedCount : ℕ
  deriving DecidableEq

namespace StringList

/-- A list of zeros. -/
def zero : StringList := ⟨none, 0⟩

/-- The strings of a list. -/
def strings (l : StringList) : List String := l.list.getD []

/-- The blocks that a list owns: its array and its strings. -/
def blocks (l : StringList) : ℕ := l.list.elim 0 fun strings => strings.length + 1

/-- Its strings fit into the array, and a list without an array asks for one before it is written to. -/
structure WellFormed (l : StringList) : Prop where
  fits : l.strings.length ≤ l.allocatedCount
  array : l.list = none → l.allocatedCount = 0

@[simp] theorem strings_zero : zero.strings = [] := rfl

@[simp] theorem blocks_zero : zero.blocks = 0 := rfl

theorem wellFormed_zero : zero.WellFormed := ⟨le_rfl, fun _ => rfl⟩

end StringList

/-- `create_string_list`. -/
def createStringList (granted : Bool) (allocatedCount : ℕ) : VkResult × StringList :=
  if granted then (.success, ⟨some [], allocatedCount⟩) else (.errorOutOfHostMemory, .zero)

/-- `increase_str_capacity_by_at_least_one`. -/
def increaseStrCapacityByAtLeastOne (granted : Bool) (stringList : StringList) : VkResult × StringList :=
  if stringList.allocatedCount = 0 then
    -- the capacity is set whether there will be an array or not
    if granted then (.success, ⟨some [], 32⟩) else (.errorOutOfHostMemory, ⟨none, 32⟩)
  else if stringList.strings.length + 1 > stringList.allocatedCount then
    if granted then (.success, { stringList with allocatedCount := stringList.allocatedCount * 2 })
    else (.errorOutOfHostMemory, stringList)
  else (.success, stringList)

/-- `append_str_to_string_list`.  It is `none` where the string would be written to an array that is not there. -/
def appendStrToStringList (granted : Bool) (stringList : StringList) (str : String) : Option (VkResult × StringList) :=
  let (res, stringList) := increaseStrCapacityByAtLeastOne granted stringList
  if res = .errorOutOfHostMemory then some (res, stringList)
  else stringList.list.map fun strings => (.success, { stringList with list := some (strings ++ [str]) })

/-- `prepend_str_to_string_list`. -/
def prependStrToStringList (granted : Bool) (stringList : StringList) (str : String) :
    Option (VkResult × StringList) :=
  let (res, stringList) := increaseStrCapacityByAtLeastOne granted stringList
  if res = .errorOutOfHostMemory then some (res, stringList)
  else stringList.list.map fun strings => (.success, { stringList with list := some (str :: strings) })

/-- `append_str_to_string_list_if_unique`. -/
def appendStrIfUnique (granted : Bool) (stringList : StringList) (str : String) : Option (VkResult × StringList) :=
  if str ∈ stringList.strings then some (.success, stringList) else appendStrToStringList granted stringList str

/-- The answers to the requests for an insertion: for the copy of the string, and for the array where it has to grow. -/
structure InsertionRequests where
  copy : Bool
  array : Bool

/-- `copy_str_to_string_list`. -/
def copyStrToStringList (req : InsertionRequests) (stringList : StringList) (str : String) :
    Option (VkResult × StringList) :=
  if req.copy then appendStrToStringList req.array stringList str else some (.errorOutOfHostMemory, stringList)

/-- `copy_str_to_start_of_string_list`. -/
def copyStrToStartOfStringList (req : InsertionRequests) (stringList : StringList) (str : String) :
    Option (VkResult × StringList) :=
  if req.copy then prependStrToStringList req.array stringList str else some (.errorOutOfHostMemory, stringList)

namespace StringList

/-- Adding a string asks for a larger array. -/
def IsFull (allocatedCount count : ℕ) : Prop := allocatedCount = 0 ∨ count + 1 > allocatedCount

instance (allocatedCount count : ℕ) : Decidable (IsFull allocatedCount count) := inferInstanceAs (Decidable (_ ∨ _))

/-- The capacity with which a string is added. -/
def grownCount (allocatedCount count : ℕ) : ℕ :=
  if allocatedCount = 0 then 32 else if count + 1 > allocatedCount then allocatedCount * 2 else allocatedCount

variable {granted : Bool} {l l' : StringList} {str : String} {res : VkResult}

theorem increaseStrCapacity_of_room (hl : l.WellFormed) (hroom : IsFull l.allocatedCount l.strings.length → granted) :
    increaseStrCapacityByAtLeastOne granted l =
      (.success, ⟨some l.strings, grownCount l.allocatedCount l.strings.length⟩) := by
  have hfits := hl.fits
  unfold increaseStrCapacityByAtLeastOne grownCount
  by_cases hzero : l.allocatedCount = 0
  · have hnil : l.strings = [] := List.length_eq_zero_iff.1 (by omega)
    rw [if_pos hzero, if_pos (hroom (.inl hzero)), if_pos hzero, hnil]
  obtain ⟨contents, hlist⟩ : ∃ contents, l.list = some contents :=
    Option.ne_none_iff_exists'.1 fun hnone => hzero (hl.array hnone)
  have hstrings : some l.strings = l.list := by rw [strings, hlist, Option.getD_some]
  rw [if_neg hzero, if_neg hzero, hstrings]
  by_cases hfull : l.strings.length + 1 > l.allocatedCount
  · rw [if_pos hfull, if_pos (hroom (.inr hfull)), if_pos hfull]
  · rw [if_neg hfull, if_neg hfull]

theorem increaseStrCapacity_of_no_room (hl : l.WellFormed) (hfull : IsFull l.allocatedCount l.strings.length) :
    ∃ l', increaseStrCapacityByAtLeastOne false l = (.errorOutOfHostMemory, l') ∧ l'.strings = l.strings := by
  have hfits := hl.fits
  unfold increaseStrCapacityByAtLeastOne
  by_cases hzero : l.allocatedCount = 0
  · have hnil : l.strings = [] := List.length_eq_zero_iff.1 (by omega)
    rw [if_pos hzero, hnil]
    exact ⟨_, rfl, rfl⟩
  · rw [if_neg hzero, if_pos (hfull.resolve_left hzero)]
    exact ⟨_, rfl, rfl⟩

theorem length_increaseStrCapacity_le (granted : Bool) (l : StringList) :
    (increaseStrCapacityByAtLeastOne granted l).2.strings.length ≤ l.strings.length := by
  unfold increaseStrCapacityByAtLeastOne
  split_ifs
  · exact Nat.zero_le _
  · exact Nat.zero_le _
  · exact le_rfl
  · exact le_rfl
  · exact le_rfl

/-- A string that finds room is added. -/
theorem prependStr_of_room (hl : l.WellFormed) (hroom : IsFull l.allocatedCount l.strings.length → granted) :
    prependStrToStringList granted l str =
      some (.success, ⟨some (str :: l.strings), grownCount l.allocatedCount l.strings.length⟩) := by
  unfold prependStrToStringList
  rw [increaseStrCapacity_of_room hl hroom]
  rfl

theorem appendStr_of_room (hl : l.WellFormed) (hroom : IsFull l.allocatedCount l.strings.length → granted) :
    appendStrToStringList granted l str =
      some (.success, ⟨some (l.strings ++ [str]), grownCount l.allocatedCount l.strings.length⟩) := by
  unfold appendStrToStringList
  rw [increaseStrCapacity_of_room hl hroom]
  rfl

/-- The array that grew has room for one more. -/
theorem wellFormed_grown {strings : List String} (hl : l.WellFormed) (hlen : strings.length = l.strings.length + 1) :
    (StringList.mk (some strings) (grownCount l.allocatedCount l.strings.length)).WellFormed := by
  have hfits := hl.fits
  refine ⟨?_, fun h => by cases h⟩
  change strings.length ≤ grownCount l.allocatedCount l.strings.length
  unfold grownCount
  split_ifs <;> omega

theorem wellFormed_of_room (hl : l.WellFormed) :
    (StringList.mk (some (str :: l.strings)) (grownCount l.allocatedCount l.strings.length)).WellFormed :=
  wellFormed_grown hl rfl

/-- A string that finds no room is not added. -/
theorem prependStr_of_no_room (str : String) (hl : l.WellFormed) (hfull : IsFull l.allocatedCount l.strings.length) :
    ∃ l', prependStrToStringList false l str = some (.errorOutOfHostMemory, l') ∧ l'.strings = l.strings := by
  obtain ⟨l', hincrease, hstrings⟩ := increaseStrCapacity_of_no_room hl hfull
  refine ⟨l', ?_, hstrings⟩
  unfold prependStrToStringList
  rw [hincrease]
  rfl

theorem appendStr_of_no_room (str : String) (hl : l.WellFormed) (hfull : IsFull l.allocatedCount l.strings.length) :
    ∃ l', appendStrToStringList false l str = some (.errorOutOfHostMemory, l') ∧ l'.strings = l.strings := by
  obtain ⟨l', hincrease, hstrings⟩ := increaseStrCapacity_of_no_room hl hfull
  refine ⟨l', ?_, hstrings⟩
  unfold appendStrToStringList
  rw [hincrease]
  rfl

/-- At most the one string is added. -/
theorem length_prependStr_le (h : prependStrToStringList granted l str = some (res, l')) :
    l'.strings.length ≤ l.strings.length + 1 := by
  have hle := length_increaseStrCapacity_le granted l
  unfold prependStrToStringList at h
  generalize increaseStrCapacityByAtLeastOne granted l = grown at h hle
  obtain ⟨res₁, list, allocatedCount⟩ := grown
  dsimp only at h hle
  split_ifs at h with hmemory
  · obtain ⟨-, rfl⟩ := Prod.mk.inj (Option.some.inj h)
    exact Nat.le_succ_of_le hle
  · obtain ⟨contents, hlist, heq⟩ := Option.map_eq_some_iff.1 h
    obtain ⟨-, rfl⟩ := Prod.mk.inj heq
    obtain rfl : list = some contents := hlist
    exact Nat.succ_le_succ hle

end StringList

end VulkanLoader
