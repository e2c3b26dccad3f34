import VulkanLoader.Memory.GenericList

/-!
# The index allocator (`loader_get_next_available_entry`, `loader_release_object_from_list`)

A `loader_used_object_list` says which indices are taken.  Surfaces and messengers draw their index from one such list
of the instance; the tables of the drivers are then read and written at that index.  The list is counted in entries.

`InUse` is the abstract side: the set of taken indices.  `loaderGetNextAvailableEntry_success` says that an acquisition
adds the smallest index missing from it.
-/

namespace VulkanLoader

structure UsedObjectStatus where
  status : Bool
  allocationCallbacks : Option VkAllocationCallbacks
  deriving DecidableEq

instance : Zero UsedObjectStatus := ⟨⟨false, none⟩⟩

@[simp] theorem UsedObjectStatus.status_zero : (0 : UsedObjectStatus).status = false := rfl

/-- `struct loader_used_object_list`; `none` while its pointer is `NULL`. -/
abbrev UsedObjectList := Option (List UsedObjectStatus)

/-- `loader_get_next_available_entry`: the result, the list afterwards, and what was written to `free_index`.  At most
one request is made to the allocator in a call. -/
def loaderGetNextAvailableEntry (callbacks : Option VkAllocationCallbacks) (listInfo : UsedObjectList)
    (pAllocator : Option VkAllocationCallbacks) (r : Request UsedObjectStatus) :
    VkResult × UsedObjectList × Option ℕ :=
  let initialised := match listInfo with
    | none => loaderInitGenericList 1 r
    | some list => some list
  match initialised with
  | none => (.errorOutOfHostMemory, none, none)
  | some list =>
    match list.findIdx? (fun e => !e.status) with
    | some i => (.success, some (list.set i ⟨true, pAllocator⟩), some i)
    | none =>
      -- no free space, must resize
      match growUsedObjectList callbacks 1 list r with
      | none => (.errorOutOfHostMemory, some list, none)
      | some newList => (.success, some (newList.set list.length ⟨true, pAllocator⟩), some list.length)

/-- `loader_release_object_from_list`. -/
def loaderReleaseObjectFromList (listInfo : UsedObjectList) (indexToFree : ℕ) : UsedObjectList :=
  match listInfo with
  | none => none
  | some list => if indexToFree < list.length then some (list.set indexToFree ⟨false, none⟩) else some list

/-- The lines at the end of a failed creation, and of the destruction of a messenger: the status of the index is
cleared, and the callbacks in the entry change only if the application gave some. -/
def clearObjectStatus (listInfo : UsedObjectList) (index : ℕ) (pAllocator : Option VkAllocationCallbacks) :
    UsedObjectList :=
  match listInfo with
  | none => none
  | some list => some (list.modify index fun e =>
      { status := false, allocationCallbacks := match pAllocator with | none => e.allocationCallbacks | some c => some c })

/-- The index is taken. -/
def InUse (listInfo : UsedObjectList) (i : ℕ) : Prop := ∃ list e, listInfo = some list ∧ list[i]? = some e ∧ e.status

/-- The index an acquisition finds or makes: the first that is free, or the first past the end. -/
def firstFree (listInfo : UsedObjectList) : ℕ :=
  ((listInfo.getD []).findIdx? (fun e => !e.status)).getD (listInfo.getD []).length

@[simp] theorem not_inUse_none (i : ℕ) : ¬ InUse none i := by rintro ⟨_, _, h, -⟩; cases h

theorem inUse_some {list : List UsedObjectStatus} {i : ℕ} :
    InUse (some list) i ↔ ∃ e, list[i]? = some e ∧ e.status := by simp [InUse]

theorem InUse.lt_length {list : List UsedObjectStatus} {i : ℕ} (h : InUse (some list) i) : i < list.length := by
  obtain ⟨e, he, -⟩ := inUse_some.1 h
  exact (List.getElem?_eq_some_iff.1 he).1

/-- Writing one status changes the use of that index alone. -/
theorem inUse_set {list : List UsedObjectStatus} {i j : ℕ} {e : UsedObjectStatus} (hi : i < list.length) :
    InUse (some (list.set i e)) j ↔ if j = i then e.status = true else InUse (some list) j := by
  rw [inUse_some]
  by_cases h : j = i
  · subst h
    simp [List.getElem?_set_self hi]
  · rw [if_neg h, List.getElem?_set_ne (Ne.symm h), inUse_some]

/-- Taking an entry of a list takes that index alone, and the list is not empty. -/
theorem inUse_taken {list : List UsedObjectStatus} {i : ℕ} (hi : i < list.length)
    (pAllocator : Option VkAllocationCallbacks) :
    some (list.set i ⟨true, pAllocator⟩) ≠ some [] ∧
      ∀ j, InUse (some (list.set i ⟨true, pAllocator⟩)) j ↔ j = i ∨ InUse (some list) j := by
  constructor
  · intro hnil
    have hlen := congrArg List.length (Option.some.inj hnil)
    rw [List.length_set, List.length_nil] at hlen
    omega
  · intro j
    rw [inUse_set hi]
    by_cases hj : j = i <;> simp [hj]

/-- Cleared entries at the end of a list are not in use. -/
theorem inUse_append_zeros {list : List UsedObjectStatus} {n j : ℕ} :
    InUse (some (list ++ List.replicate n 0)) j ↔ InUse (some list) j := by
  rw [inUse_some, inUse_some]
  by_cases h : j < list.length
  · rw [List.getElem?_append_left h]
  · rw [List.getElem?_append_right (by omega), List.getElem?_eq_none (l := list) (by omega)]
    constructor
    · rintro ⟨e, he, hs⟩
      obtain rfl : e = 0 := by
        rw [List.getElem?_replicate] at he
        split_ifs at he
        exact (Option.some.inj he).symm
      simp at hs
    · rintro ⟨e, he, -⟩
      cases he

theorem inUse_of_findIdx?_eq_none {list : List UsedObjectStatus}
    (h : list.findIdx? (fun e => !e.status) = none) {j : ℕ} (hj : j < list.length) : InUse (some list) j := by
  rw [List.findIdx?_eq_none_iff] at h
  exact inUse_some.2 ⟨list[j], List.getElem?_eq_getElem hj, by simpa using h _ (List.getElem_mem hj)⟩

theorem findIdx?_eq_some_inUse {list : List UsedObjectStatus} {i : ℕ}
    (h : list.findIdx? (fun e => !e.status) = some i) :
    i < list.length ∧ ¬ InUse (some list) i ∧ ∀ j < i, InUse (some list) j := by
  rw [List.findIdx?_eq_some_iff_getElem] at h
  obtain ⟨hi, hfree, hused⟩ := h
  refine ⟨hi, ?_, fun j hj => ?_⟩
  · rw [inUse_some]
    rintro ⟨e, he, hs⟩
    rw [List.getElem?_eq_getElem hi] at he
    obtain rfl := Option.some.inj he
    simp [hs] at hfree
  · exact inUse_some.2 ⟨list[j], List.getElem?_eq_getElem (by omega), by simpa using hused j hj⟩

theorem loaderInitGenericList_grants (fill : ℕ → UsedObjectStatus) :
    loaderInitGenericList 1 (.grants fill) = some (List.replicate 32 0) := rfl

theorem findIdx?_newList :
    (List.replicate 32 (0 : UsedObjectStatus)).findIdx? (fun e => !e.status) = some 0 := by decide

theorem not_inUse_replicate {n j : ℕ} : ¬ InUse (some (List.replicate n 0)) j := by
  intro h
  have hnil : InUse (some []) j := inUse_append_zeros.1 (by simpa [-List.reduceReplicate] using h)
  exact absurd hnil.lt_length (Nat.not_lt_zero j)

/-- **A successful acquisition** takes the smallest free index, and changes the use of no other. -/
theorem loaderGetNextAvailableEntry_success {callbacks pAllocator : Option VkAllocationCallbacks}
    {listInfo listInfo' : UsedObjectList} {r : Request UsedObjectStatus} {res : VkResult} {i : ℕ}
    (hne : listInfo ≠ some [])
    (h : loaderGetNextAvailableEntry callbacks listInfo pAllocator r = (res, listInfo', some i)) :
    res = .success ∧ i = firstFree listInfo ∧ listInfo' ≠ some [] ∧ ¬ InUse listInfo i ∧
      (∀ j < i, InUse listInfo j) ∧ (∀ j, InUse listInfo' j ↔ j = i ∨ InUse listInfo j) := by
  unfold loaderGetNextAvailableEntry at h
  rcases listInfo with _ | list
  · -- a new list: every entry is free
    cases r with
    | fails => simp [loaderInitGenericList, loaderCalloc] at h
    | grants fill =>
      simp only [loaderInitGenericList_grants, findIdx?_newList, Prod.mk.injEq, Option.some.injEq] at h
      obtain ⟨rfl, rfl, rfl⟩ := h
      have hlen : 0 < (List.replicate 32 (0 : UsedObjectStatus)).length := by rw [List.length_replicate]; decide
      obtain ⟨hnonempty, htaken⟩ := inUse_taken hlen pAllocator
      refine ⟨rfl, rfl, hnonempty, not_inUse_none 0, fun j hj => absurd hj (Nat.not_lt_zero j), fun j => ?_⟩
      rw [htaken]
      exact or_congr_right (iff_of_false not_inUse_replicate (not_inUse_none j))
  · simp only at h
    have hlist : list ≠ [] := fun h0 => hne (by rw [h0])
    rcases hfind : list.findIdx? (fun e => !e.status) with _ | k
    · -- a full list: the first added entry
      rw [hfind] at h
      cases r with
      | fails => simp [growUsedObjectList_fails] at h
      | grants fill =>
        have hgrow : growUsedObjectList callbacks 1 list (.grants fill) = some (list ++ List.replicate list.length 0) :=
          growUsedObjectList_grants hlist ⟨_, (Nat.one_mul _).symm⟩ fill
        simp only [hgrow, Prod.mk.injEq, Option.some.injEq] at h
        obtain ⟨rfl, rfl, rfl⟩ := h
        have hlen : list.length < (list ++ List.replicate list.length (0 : UsedObjectStatus)).length := by
          simpa using List.length_pos_iff.2 hlist
        obtain ⟨hnonempty, htaken⟩ := inUse_taken hlen pAllocator
        refine ⟨rfl, by simp [firstFree, hfind], hnonempty, fun hu => absurd hu.lt_length (Nat.lt_irrefl _),
          fun j hj => inUse_of_findIdx?_eq_none hfind hj, fun j => ?_⟩
        rw [htaken, inUse_append_zeros]
    · rw [hfind] at h
      simp only [Prod.mk.injEq, Option.some.injEq] at h
      obtain ⟨rfl, rfl, rfl⟩ := h
      obtain ⟨hk, hfree, hused⟩ := findIdx?_eq_some_inUse hfind
      obtain ⟨hnonempty, htaken⟩ := inUse_taken hk pAllocator
      exact ⟨rfl, by simp [firstFree, hfind], hnonempty, hfree, hused, htaken⟩

/-- A failed acquisition leaves the list as it was; the result says why. -/
theorem loaderGetNextAvailableEntry_failure {callbacks pAllocator : Option VkAllocationCallbacks}
    {listInfo listInfo' : UsedObjectList} {r : Request UsedObjectStatus} {res : VkResult}
    (h : loaderGetNextAvailableEntry callbacks listInfo pAllocator r = (res, listInfo', none)) :
    res = .errorOutOfHostMemory ∧ listInfo' = listInfo := by
  unfold loaderGetNextAvailableEntry at h
  rcases listInfo with _ | list
  · cases r with
    | fails => simpa [loaderInitGenericList, loaderCalloc, eq_comm] using h
    | grants fill =>
      simp only [loaderInitGenericList_grants, findIdx?_newList, Prod.mk.injEq, reduceCtorEq, and_false] at h
  · simp only at h
    rcases hfind : list.findIdx? (fun e => !e.status) with _ | k
    · rw [hfind] at h
      rcases hgrow : growUsedObjectList callbacks 1 list r with _ | newList
      · simpa [hgrow, eq_comm] using h
      · simp [hgrow] at h
    · simp [hfind] at h

/-- Releasing an index frees that index alone. -/
theorem inUse_loaderReleaseObjectFromList {listInfo : UsedObjectList} {i j : ℕ} :
    InUse (loaderReleaseObjectFromList listInfo i) j ↔ InUse listInfo j ∧ j ≠ i := by
  rcases listInfo with _ | list
  · simp [loaderReleaseObjectFromList]
  · simp only [loaderReleaseObjectFromList]
    split_ifs with h
    · rw [inUse_set h]
      by_cases hj : j = i <;> simp [hj]
    · constructor
      · intro hu
        exact ⟨hu, fun hj => h (hj ▸ hu.lt_length)⟩
      · exact And.left

theorem loaderReleaseObjectFromList_nonempty {listInfo : UsedObjectList} {i : ℕ} (h : listInfo ≠ some []) :
    loaderReleaseObjectFromList listInfo i ≠ some [] := by
  rcases listInfo with _ | list
  · exact fun h0 => by cases h0
  · intro h0
    refine h ?_
    simp only [loaderReleaseObjectFromList] at h0
    split_ifs at h0
    · have hlen := congrArg List.length (Option.some.inj h0)
      rw [List.length_set, List.length_nil] at hlen
      rw [List.length_eq_zero_iff.1 hlen]
    · exact h0

theorem inUse_clearObjectStatus {listInfo : UsedObjectList} {i j : ℕ} {pAllocator : Option VkAllocationCallbacks} :
    InUse (clearObjectStatus listInfo i pAllocator) j ↔ InUse listInfo j ∧ j ≠ i := by
  rcases listInfo with _ | list
  · simp [clearObjectStatus]
  · simp only [clearObjectStatus, inUse_some, List.getElem?_modify]
    by_cases hj : i = j
    · subst hj
      simp
    · simp [hj, Ne.symm hj]

theorem clearObjectStatus_nonempty {listInfo : UsedObjectList} {i : ℕ} {pAllocator : Option VkAllocationCallbacks}
    (h : listInfo ≠ some []) : clearObjectStatus listInfo i pAllocator ≠ some [] := by
  rcases listInfo with _ | list
  · exact fun h0 => by cases h0
  · intro h0
    refine h ?_
    have hlen := congrArg List.length (Option.some.inj h0)
    rw [List.length_modify, List.length_nil] at hlen
    rw [List.length_eq_zero_iff.1 hlen]

/-- Giving an acquired index back restores the use of every index. -/
theorem inUse_restored {listInfo list list' : UsedObjectList} {n : ℕ} (hfree : ¬ InUse listInfo n)
    (hlist : ∀ j, InUse list j ↔ j = n ∨ InUse listInfo j) (hlist' : ∀ j, InUse list' j ↔ InUse list j ∧ j ≠ n)
    (j : ℕ) : InUse list' j ↔ InUse listInfo j := by
  rw [hlist', hlist]
  constructor
  · rintro ⟨rfl | h, hn⟩
    · exact absurd rfl hn
    · exact h
  · intro h
    exact ⟨Or.inr h, fun hn => hfree (hn ▸ h)⟩

end VulkanLoader
