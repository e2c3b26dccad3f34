import VulkanLoader.Lib.Runs
import VulkanLoader.Memory.UsedObjects
import Mathlib.Data.Finset.Basic

/-!
# Runs of the index allocator

The indices that were handed out and not given back are kept beside the list.  The list says of each index whether it is
one of them, after every run of acquisitions and releases, whatever requests for memory fail on the way.
-/

namespace VulkanLoader

open Lib

/-- The entry of an index; beyond the array it is free. -/
def usedEntry (listInfo : UsedObjectList) (i : ℕ) : UsedObjectStatus := (listInfo.getD []).getD i 0

/-- How many entries the list has. -/
def usedCapacity (listInfo : UsedObjectList) : ℕ := (listInfo.getD []).length

/-- A call on the list: an acquisition, with what the request that it may make meets, or a release. -/
inductive AllocatorCall where
  | acquire (pAllocator : Option VkAllocationCallbacks) (r : Request UsedObjectStatus)
  | release (indexToFree : ℕ)

/-- The list, and the indices that are out. -/
structure IndexAllocator where
  listInfo : UsedObjectList
  taken : Finset ℕ

/-- Before the first call. -/
def IndexAllocator.init : IndexAllocator := ⟨none, ∅⟩

/-- A call; `callbacks` are those of the instance. -/
def allocatorStep (callbacks : Option VkAllocationCallbacks) (s : IndexAllocator) : AllocatorCall → IndexAllocator
  | .acquire pAllocator r =>
    match loaderGetNextAvailableEntry callbacks s.listInfo pAllocator r with
    | (_, listInfo, some i) => ⟨listInfo, insert i s.taken⟩
    | (_, listInfo, none) => ⟨listInfo, s.taken⟩
  | .release indexToFree => ⟨loaderReleaseObjectFromList s.listInfo indexToFree, s.taken.erase indexToFree⟩

/-- The index is the smallest one that is not taken. -/
def IsSmallestFree (taken : Finset ℕ) (i : ℕ) : Prop := i ∉ taken ∧ ∀ j < i, j ∈ taken

/-- **A call does what it should**: an acquisition hands out the smallest free index and writes its entry only, or it
fails for want of memory and changes nothing; a release frees its index only. -/
def AllocatesProperly (callbacks : Option VkAllocationCallbacks) (s : IndexAllocator) : AllocatorCall → Prop
  | .acquire pAllocator r =>
    (∃ i listInfo, loaderGetNextAvailableEntry callbacks s.listInfo pAllocator r = (.success, listInfo, some i) ∧
      IsSmallestFree s.taken i ∧ usedEntry listInfo i = ⟨true, pAllocator⟩ ∧
      ∀ j, j ≠ i → usedEntry listInfo j = usedEntry s.listInfo j) ∨
    (r.ok = false ∧
      loaderGetNextAvailableEntry callbacks s.listInfo pAllocator r = (.errorOutOfHostMemory, s.listInfo, none))
  | .release indexToFree =>
    let listInfo := loaderReleaseObjectFromList s.listInfo indexToFree
    usedEntry listInfo indexToFree = 0 ∧ (∀ j, j ≠ indexToFree → usedEntry listInfo j = usedEntry s.listInfo j) ∧
      usedCapacity listInfo = usedCapacity s.listInfo

/-- The list says of each index whether it is out. -/
structure KeepsTrack (s : IndexAllocator) : Prop where
  nonempty : s.listInfo ≠ some []
  taken : ∀ i, (usedEntry s.listInfo i).status = true ↔ i ∈ s.taken

section Calls

variable {listInfo : UsedObjectList} {list : List UsedObjectStatus} {s : IndexAllocator} {i j : ℕ}

theorem usedEntry_set (hi : i < list.length) (e : UsedObjectStatus) :
    usedEntry (some (list.set i e)) j = if j = i then e else usedEntry (some list) j := by
  simp only [usedEntry, Option.getD_some, List.getD_eq_getElem?_getD, List.getElem?_set]
  by_cases hj : i = j
  · subst hj
    simp [hi]
  · simp [hj, Ne.symm hj]

theorem usedEntry_append_zeros (n : ℕ) : usedEntry (some (list ++ List.replicate n 0)) j = usedEntry (some list) j := by
  simp only [usedEntry, Option.getD_some, List.getD_eq_getElem?_getD]
  by_cases hj : j < list.length
  · rw [List.getElem?_append_left hj]
  · rw [List.getElem?_append_right (by omega), List.getElem?_replicate, List.getElem?_eq_none (l := list) (by omega)]
    split_ifs <;> rfl

theorem inUse_iff_usedEntry : InUse listInfo i ↔ (usedEntry listInfo i).status = true := by
  rcases listInfo with _ | list
  · exact iff_of_false (not_inUse_none i) (by simp [usedEntry])
  · rw [inUse_some, usedEntry, Option.getD_some, List.getD_eq_getElem?_getD]
    rcases list[i]? with _ | e
    · simp
    · simp

/-- An acquisition that has memory, or needs none, writes the first free entry only. -/
theorem loaderGetNextAvailableEntry_entries (callbacks pAllocator : Option VkAllocationCallbacks)
    (r : Request UsedObjectStatus) (hne : listInfo ≠ some []) :
    (∃ i listInfo', loaderGetNextAvailableEntry callbacks listInfo pAllocator r = (.success, listInfo', some i) ∧
        usedEntry listInfo' i = ⟨true, pAllocator⟩ ∧ ∀ j, j ≠ i → usedEntry listInfo' j = usedEntry listInfo j) ∨
      (r.ok = false ∧
        loaderGetNextAvailableEntry callbacks listInfo pAllocator r = (.errorOutOfHostMemory, listInfo, none)) := by
  unfold loaderGetNextAvailableEntry
  rcases listInfo with _ | list
  · rcases r with _ | fill
    · exact .inr ⟨rfl, rfl⟩
    · have hlen : 0 < (List.replicate 32 (0 : UsedObjectStatus)).length := by decide
      refine .inl ⟨0, some ((List.replicate 32 0).set 0 ⟨true, pAllocator⟩), ?_, ?_, fun j hj => ?_⟩
      · simp only [loaderInitGenericList_grants, findIdx?_newList]
      · rw [usedEntry_set hlen, if_pos rfl]
      · rw [usedEntry_set hlen, if_neg hj]
        exact @usedEntry_append_zeros [] _ 32
  · dsimp only
    rcases hfind : list.findIdx? (fun e => !e.status) with _ | k
    · rcases r with _ | fill
      · exact .inr ⟨rfl, by simp only [hfind, growUsedObjectList_fails]⟩
      · have hlist : list ≠ [] := fun h => hne (by rw [h])
        have hlen : list.length < (list ++ List.replicate list.length (0 : UsedObjectStatus)).length := by
          simpa using List.length_pos_iff.2 hlist
        refine .inl ⟨list.length,
          some ((list ++ List.replicate list.length 0).set list.length ⟨true, pAllocator⟩), ?_, ?_, fun j hj => ?_⟩
        · simp only [hfind, growUsedObjectList_grants hlist ⟨_, (Nat.one_mul _).symm⟩ fill]
        · rw [usedEntry_set hlen, if_pos rfl]
        · rw [usedEntry_set hlen, if_neg hj, usedEntry_append_zeros]
    · obtain ⟨hk, -, -⟩ := findIdx?_eq_some_inUse hfind
      refine .inl ⟨k, some (list.set k ⟨true, pAllocator⟩), by simp only [hfind], ?_, fun j hj => ?_⟩
      · rw [usedEntry_set hk, if_pos rfl]
      · rw [usedEntry_set hk, if_neg hj]

theorem loaderReleaseObjectFromList_entries (listInfo : UsedObjectList) (i : ℕ) :
    usedEntry (loaderReleaseObjectFromList listInfo i) i = 0 ∧
      (∀ j, j ≠ i → usedEntry (loaderReleaseObjectFromList listInfo i) j = usedEntry listInfo j) ∧
      usedCapacity (loaderReleaseObjectFromList listInfo i) = usedCapacity listInfo := by
  rcases listInfo with _ | list
  · exact ⟨rfl, fun _ _ => rfl, rfl⟩
  · simp only [loaderReleaseObjectFromList]
    split_ifs with hi
    · refine ⟨?_, fun j hj => ?_, List.length_set⟩
      · rw [usedEntry_set hi, if_pos rfl]
        rfl
      · rw [usedEntry_set hi, if_neg hj]
    · refine ⟨?_, fun _ _ => rfl, rfl⟩
      rw [usedEntry, Option.getD_some, List.getD_eq_getElem?_getD, List.getElem?_eq_none (by omega)]
      rfl

theorem keepsTrack_init : KeepsTrack .init where
  nonempty := nofun
  taken i := by simp [usedEntry, IndexAllocator.init]

/-- What one call does, where the list keeps track. -/
theorem allocatesProperly_of_keepsTrack (callbacks : Option VkAllocationCallbacks) (hs : KeepsTrack s)
    (call : AllocatorCall) :
    AllocatesProperly callbacks s call := by
  rcases call with ⟨pAllocator, r⟩ | i
  · rcases loaderGetNextAvailableEntry_entries callbacks pAllocator r hs.nonempty with
      ⟨i, listInfo, hget, hentry, hother⟩ | hfails
    · obtain ⟨-, -, -, hfree, hsmaller, -⟩ := loaderGetNextAvailableEntry_success hs.nonempty hget
      refine .inl ⟨i, listInfo, hget, ⟨?_, fun j hj => ?_⟩, hentry, hother⟩
      · rwa [← hs.taken, ← inUse_iff_usedEntry]
      · rw [← hs.taken, ← inUse_iff_usedEntry]
        exact hsmaller j hj
    · exact .inr hfails
  · exact loaderReleaseObjectFromList_entries s.listInfo i

/-- The step: the list keeps track. -/
theorem keepsTrack_step (callbacks : Option VkAllocationCallbacks) (hs : KeepsTrack s) (call : AllocatorCall) :
    KeepsTrack (allocatorStep callbacks s call) := by
  rcases call with ⟨pAllocator, r⟩ | i
  · rcases loaderGetNextAvailableEntry_entries callbacks pAllocator r hs.nonempty with
      ⟨i, listInfo, hget, hentry, hother⟩ | ⟨-, hfails⟩
    · obtain ⟨-, -, hnonempty, -⟩ := loaderGetNextAvailableEntry_success hs.nonempty hget
      simp only [allocatorStep, hget]
      refine ⟨hnonempty, fun j => ?_⟩
      rw [Finset.mem_insert, ← hs.taken]
      by_cases hj : j = i
      · subst hj
        simp [hentry]
      · simp [hj, hother j hj]
    · simp only [allocatorStep, hfails]
      exact hs
  · obtain ⟨hentry, hother, -⟩ := loaderReleaseObjectFromList_entries s.listInfo i
    refine ⟨loaderReleaseObjectFromList_nonempty hs.nonempty, fun j => ?_⟩
    change (usedEntry (loaderReleaseObjectFromList s.listInfo i) j).status = true ↔ j ∈ s.taken.erase i
    rw [Finset.mem_erase, ← hs.taken]
    by_cases hj : j = i
    · subst hj
      simp [hentry]
    · simp [hj, hother j hj]

end Calls

/-- **The index allocator is correct** in every run: each call does what it should, and the list keeps track of the
indices that are out. -/
theorem allocatesIndices (callbacks : Option VkAllocationCallbacks) (calls : List AllocatorCall) :
    AllSteps (allocatorStep callbacks) (AllocatesProperly callbacks) .init calls ∧
      KeepsTrack (run (allocatorStep callbacks) .init calls) := by
  have hall : AllSteps (allocatorStep callbacks) (fun _ _ => True) .init calls :=
    @allSteps_of_forall _ _ (allocatorStep callbacks) (fun _ => True) .init calls fun _ _ => trivial
  have hstep : ∀ s call, KeepsTrack s → True → KeepsTrack (allocatorStep callbacks s call) :=
    fun _ call hs _ => keepsTrack_step callbacks hs call
  have hcall : ∀ s call, KeepsTrack s → True → AllocatesProperly callbacks s call :=
    fun _ call hs _ => allocatesProperly_of_keepsTrack callbacks hs call
  exact ⟨run_step_invariant (allocatorStep callbacks) hstep hcall keepsTrack_init calls hall,
    run_invariant (allocatorStep callbacks) hstep keepsTrack_init hall⟩

end VulkanLoader
