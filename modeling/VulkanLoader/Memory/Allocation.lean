import VulkanLoader.Base
import Mathlib.Data.UInt
import Mathlib.Tactic.Common

/-!
# Allocation helpers (`allocation.c`)

A block of memory is the list of its cells.  A cell is a byte where the layout matters; for a table whose entries all
have one size it may stand for an entry, sizes being counted in entries then.

What a request to the allocator in use does is an argument: it fails, or it grants a block.  The bytes that the
interface of the allocator leaves open (all bytes of `malloc` and `pfnAllocation`, the added bytes of `realloc` and
`pfnReallocation`) are read off `fill`.
-/

namespace VulkanLoader

/-- `VkAllocationCallbacks`: which functions are given, and the `pUserData` that tells two of them apart. -/
structure VkAllocationCallbacks where
  pUserData : ℕ
  pfnAllocation : Bool
  pfnReallocation : Bool
  pfnFree : Bool
  deriving DecidableEq

/-- What one request to an allocator does. -/
inductive Request (α : Type*) where
  | fails
  | grants (fill : ℕ → α)

namespace Request

variable {α : Type*}

/-- The request succeeds. -/
def ok : Request α → Bool
  | fails => false
  | grants _ => true

end Request

section Allocation

variable {α : Type*} [Zero α]

/-- The cells `from`, …, `to - 1` of a block whose contents the allocator chose. -/
def openCells (fill : ℕ → α) (start stop : ℕ) : List α := (List.range' start (stop - start)).map fill

omit [Zero α] in
@[simp] theorem length_openCells (fill : ℕ → α) (start stop : ℕ) :
    (openCells fill start stop).length = stop - start := by simp [openCells]

theorem openCells_eq_replicate_iff {fill : ℕ → α} {start stop : ℕ} :
    openCells fill start stop = List.replicate (stop - start) 0 ↔ ∀ k, start ≤ k → k < stop → fill k = 0 := by
  unfold openCells
  rw [List.eq_replicate_iff]
  simp only [List.length_map, List.length_range', List.mem_map, List.mem_range'_1, true_and, forall_exists_index,
    and_imp]
  constructor
  · intro h k h1 h2
    exact h _ k h1 (by omega) rfl
  · rintro h _ k h1 h2 rfl
    exact h k h1 (by omega)

/-- `pAllocator && pAllocator->pfnReallocation`. -/
def hasReallocation (pAllocator : Option VkAllocationCallbacks) : Bool := pAllocator.any (·.pfnReallocation)

omit [Zero α] in
/-- `loader_alloc`: `malloc` and `pfnAllocation` both leave the contents open. -/
def loaderAlloc (size : ℕ) : Request α → Option (List α)
  | .fails => none
  | .grants fill => some (openCells fill 0 size)

/-- `loader_calloc`: `calloc`, or `pfnAllocation` and `memset`. -/
def loaderCalloc (size : ℕ) : Request α → Option (List α)
  | .fails => none
  | .grants _ => some (List.replicate size 0)

/-- `loader_realloc`.  Only the branch that calls `realloc` clears the added cells. -/
def loaderRealloc (pAllocator : Option VkAllocationCallbacks) (pMemory : Option (List α)) (origSize size : ℕ)
    (r : Request α) : Option (List α) :=
  match pMemory with
  | none => loaderAlloc size r
  | some old =>
    if origSize = 0 then loaderAlloc size r
    else if size = 0 then none
    else
      match r with
      | .fails => none
      | .grants fill =>
        let pNewMem := old.take size ++ openCells fill old.length size
        if hasReallocation pAllocator then some pNewMem
        else if origSize < size then some (pNewMem.take origSize ++ List.replicate (size - origSize) 0)
        else some pNewMem

/-- What a grown table should read: the old cells, then zeros. -/
def grown (old : List α) (size : ℕ) : List α := old.take size ++ List.replicate (size - old.length) 0

theorem loaderRealloc_fails (pAllocator : Option VkAllocationCallbacks) (old : List α) (size : ℕ) :
    loaderRealloc pAllocator (some old) old.length size .fails = none := by
  unfold loaderRealloc
  split_ifs <;> rfl

/-- The block `loader_realloc` returns for a block that is not empty. -/
theorem loaderRealloc_grants {pAllocator : Option VkAllocationCallbacks} {old : List α} {size : ℕ}
    (hold : old ≠ []) (hsize : size ≠ 0) (fill : ℕ → α) :
    loaderRealloc pAllocator (some old) old.length size (.grants fill) =
      if hasReallocation pAllocator then some (old.take size ++ openCells fill old.length size)
      else some (grown old size) := by
  have h0 : old.length ≠ 0 := by simpa using hold
  simp only [loaderRealloc, if_neg h0, if_neg hsize]
  by_cases hr : hasReallocation pAllocator
  · simp only [hr, if_true]
  · simp only [hr, Bool.false_eq_true, if_false]
    by_cases hlt : old.length < size
    · have : old.take size = old := List.take_of_length_le (by omega)
      rw [if_pos hlt, this, List.take_left' rfl]
      simp [grown, this]
    · rw [if_neg hlt]
      have e : size - old.length = 0 := by omega
      simp [grown, openCells, e]

/-- **`loader_realloc` grows a block as it should** exactly when it goes through `realloc`, or the allocator happens
to have left zeros in the added cells. -/
theorem loaderRealloc_eq_grown_iff {pAllocator : Option VkAllocationCallbacks} {old : List α} {size : ℕ}
    (hold : old ≠ []) (hsize : size ≠ 0) {fill : ℕ → α} :
    loaderRealloc pAllocator (some old) old.length size (.grants fill) = some (grown old size) ↔
      hasReallocation pAllocator = false ∨ ∀ k, old.length ≤ k → k < size → fill k = 0 := by
  rw [loaderRealloc_grants hold hsize]
  by_cases hr : hasReallocation pAllocator
  · simp only [hr, if_true, Option.some.injEq, Bool.true_eq_false, false_or, grown, List.append_cancel_left_eq]
    exact openCells_eq_replicate_iff
  · simp [hr]

end Allocation

end VulkanLoader
