import VulkanLoader.Lib.Heap
import VulkanLoader.Memory.Allocation
import Mathlib.Tactic.Common

/-!
# Lists of strings in memory (`loader_string_list`)

The array of a list holds pointers to strings of a heap; the counts of a list are of 32 bits.  A function is `none` where
the behaviour is undefined: it writes through a null pointer or past the end of the array, or frees a string twice.
-/

namespace VulkanLoader

open Lib

/-- The pointer to an array of strings. -/
inductive StringArray where
  | null
  /-- A pointer to a block that was freed. -/
  | freed
  | block (slots : List ℕ)
  deriving DecidableEq

namespace StringArray

/-- Reading an entry. -/
def load (array : StringArray) (i : ℕ) : Option ℕ :=
  match array with
  | block slots => slots[i]?
  | _ => none

/-- Writing an entry. -/
def store (array : StringArray) (i str : ℕ) : Option StringArray :=
  match array with
  | block slots => if i < slots.length then some (block (slots.set i str)) else none
  | _ => none

/-- `memmove` of the first `count` entries by one, and a write to the first. -/
def storeFirst (array : StringArray) (count str : ℕ) : Option StringArray :=
  match array with
  | block slots =>
    if count < slots.length then some (block (str :: (slots.take count ++ slots.drop (count + 1)))) else none
  | _ => none

end StringArray

/-- `struct loader_string_list`. -/
structure LoaderStringList where
  list : StringArray
  count : ℕ
  allocatedCount : ℕ
  deriving DecidableEq

namespace LoaderStringList

/-- A list of zeros. -/
def zero : LoaderStringList := ⟨.null, 0, 0⟩

/-- `create_string_list`. -/
def createStringList (r : Request ℕ) (allocatedCount : ℕ) (l : LoaderStringList) : VkResult × LoaderStringList :=
  match loaderCalloc allocatedCount r with
  | none => (.errorOutOfHostMemory, { l with list := .null })
  | some slots => (.success, ⟨.block slots, 0, allocatedCount⟩)

/-- `increase_str_capacity_by_at_least_one`. -/
def increaseStrCapacityByAtLeastOne (pAllocator : Option VkAllocationCallbacks) (r : Request ℕ)
    (l : LoaderStringList) : Option (VkResult × LoaderStringList) :=
  if l.allocatedCount = 0 then
    match loaderCalloc 32 r with
    | none => some (.errorOutOfHostMemory, { l with list := .null, allocatedCount := 32 })
    | some slots => some (.success, { l with list := .block slots, allocatedCount := 32 })
  else if (l.count + 1) % 2 ^ 32 > l.allocatedCount then
    let newAllocatedCount := l.allocatedCount * 2 % 2 ^ 32
    match l.list with
    | .freed => none
    | .null =>
      match loaderRealloc pAllocator none l.allocatedCount newAllocatedCount r with
      | none => some (.errorOutOfHostMemory, l)
      | some slots => some (.success, { l with list := .block slots, allocatedCount := newAllocatedCount })
    | .block slots =>
      match loaderRealloc pAllocator (some slots) l.allocatedCount newAllocatedCount r with
      -- a request for no bytes frees the array
      | none => some (.errorOutOfHostMemory, if newAllocatedCount = 0 then { l with list := .freed } else l)
      | some slots => some (.success, { l with list := .block slots, allocatedCount := newAllocatedCount })
  else some (.success, l)

/-- The loop of `is_string_in_string_list` over the entries. -/
def findString (heap : Heap String) (array : StringArray) (str : String) : List ℕ → Option Bool
  | [] => some false
  | i :: is =>
    ((array.load i).bind heap.get).bind fun entry =>
      if entry = str then some true else findString heap array str is

/-- `is_string_in_string_list`. -/
def isStringInStringList (heap : Heap String) (l : LoaderStringList) (str : String) : Option Bool :=
  findString heap l.list str (List.range l.count)

/-- What the functions below have in common: room is made, then the string is written, or it is freed. -/
def addStrToStringList (write : StringArray → ℕ → ℕ → Option StringArray) (pAllocator : Option VkAllocationCallbacks)
    (r : Request ℕ) (heap : Heap String) (l : LoaderStringList) (str : ℕ) :
    Option (VkResult × Heap String × LoaderStringList) :=
  (increaseStrCapacityByAtLeastOne pAllocator r l).bind fun (res, l) =>
    if res = .errorOutOfHostMemory then (heap.free str).map fun heap => (res, heap, l)
    else (write l.list l.count str).map fun list =>
      (.success, heap, { l with list := list, count := (l.count + 1) % 2 ^ 32 })

/-- `append_str_to_string_list`. -/
def appendStrToStringList := addStrToStringList StringArray.store

/-- `prepend_str_to_string_list`. -/
def prependStrToStringList := addStrToStringList StringArray.storeFirst

/-- `append_str_to_string_list_if_unique`; `text` is what `str` points to. -/
def appendStrToStringListIfUnique (pAllocator : Option VkAllocationCallbacks) (r : Request ℕ) (heap : Heap String)
    (l : LoaderStringList) (str : ℕ) (text : String) : Option (VkResult × Heap String × LoaderStringList) :=
  (isStringInStringList heap l text).bind fun found =>
    if found then (heap.free str).map fun heap => (.success, heap, l)
    else appendStrToStringList pAllocator r heap l str

/-- What `loader_strncpy` and the `NUL` after it leave of a text. -/
def strncpy (text : String) (strLen : ℕ) : String := String.ofList (text.toList.take strLen)

/-- `copy_str_to_string_list`; the copy is asked for at an address, or is refused. -/
def copyStrToStringList (pAllocator : Option VkAllocationCallbacks) (copyAt : Option ℕ) (r : Request ℕ)
    (heap : Heap String) (l : LoaderStringList) (text : String) (strLen : ℕ) :
    Option (VkResult × Heap String × LoaderStringList) :=
  match copyAt with
  | none => some (.errorOutOfHostMemory, heap, l)
  | some wish => appendStrToStringList pAllocator r (heap.alloc wish (strncpy text strLen)) l (heap.place wish)

/-- `copy_str_to_string_list_if_unique`. -/
def copyStrToStringListIfUnique (pAllocator : Option VkAllocationCallbacks) (copyAt : Option ℕ) (r : Request ℕ)
    (heap : Heap String) (l : LoaderStringList) (text : String) (strLen : ℕ) :
    Option (VkResult × Heap String × LoaderStringList) :=
  (isStringInStringList heap l text).bind fun found =>
    if found then some (.success, heap, l) else copyStrToStringList pAllocator copyAt r heap l text strLen

/-- `copy_str_to_start_of_string_list`. -/
def copyStrToStartOfStringList (pAllocator : Option VkAllocationCallbacks) (copyAt : Option ℕ) (r : Request ℕ)
    (heap : Heap String) (l : LoaderStringList) (text : String) (strLen : ℕ) :
    Option (VkResult × Heap String × LoaderStringList) :=
  match copyAt with
  | none => some (.errorOutOfHostMemory, heap, l)
  | some wish => prependStrToStringList pAllocator r (heap.alloc wish (strncpy text strLen)) l (heap.place wish)

/-- `free_string_list`. -/
def freeStringList (heap : Heap String) (l : LoaderStringList) : Option (Heap String × LoaderStringList) :=
  match l.list with
  | .null => some (heap, zero)
  | .freed => none
  | .block slots =>
    if l.count ≤ slots.length then (heap.freeAll (slots.take l.count)).map fun heap => (heap, zero) else none

end LoaderStringList

end VulkanLoader
