import VulkanLoader.Lib.HandleLedger
import VulkanLoader.Memory.UsedObjects

/-!
# The tables of the drivers

`surface_list` and `debug_utils_messenger_list` of a driver hold its handles at the indices of the instance.  The two
call sites make and double a table by the same lines, here `growHandleTable`.
-/

namespace VulkanLoader

/-- The table is made, or doubled once where it is too short for the index. -/
def growHandleTable (callbacks : Option VkAllocationCallbacks) (nextIndex : ℕ) (list : Option (List Handle))
    (r : Request Handle) : Option (List Handle) :=
  match list with
  | none => loaderInitGenericList 1 r
  | some l => if l.length ≤ nextIndex then loaderResizeGenericList callbacks l r else some l

/-- What a driver wrote through `&list[nextIndex]`, if it wrote. -/
def writeEntry (l : List Handle) (nextIndex : ℕ) : Option Handle → List Handle
  | none => l
  | some m => l.set nextIndex m

/-- The result of a driver's function that makes a messenger or a surface; `left` is what a driver that fails wrote. -/
inductive DriverHandle where
  | created (handle : Handle) (valid : handle ≠ nullHandle)
  | failed (res : VkResult) (error : res ≠ .success) (left : Option Handle)

section Entries

variable {l : List Handle} {nextIndex n : ℕ}

@[simp] theorem length_writeEntry (l : List Handle) (nextIndex : ℕ) (left : Option Handle) :
    (writeEntry l nextIndex left).length = l.length := by
  rcases left with _ | m
  · rfl
  · exact List.length_set

theorem getElem?_writeEntry_of_ne (h : n ≠ nextIndex) (left : Option Handle) :
    (writeEntry l nextIndex left)[n]? = l[n]? := by
  rcases left with _ | m
  · rfl
  · exact List.getElem?_set_ne h.symm

theorem getElem?_writeEntry_self (h : nextIndex < l.length) (left : Option Handle) :
    (writeEntry l nextIndex left)[nextIndex]? = some (left.getD (l.getD nextIndex nullHandle)) := by
  rcases left with _ | m
  · rw [Option.getD_none, List.getD_eq_getElem?_getD]
    simp [writeEntry, List.getElem?_eq_getElem h]
  · exact List.getElem?_set_self h

end Entries

/-- **Growing a table**: what it held stays, and it covers the next index if it covered all smaller ones. -/
theorem growHandleTable_eq_some {callbacks : Option VkAllocationCallbacks} {nextIndex : ℕ}
    {list : Option (List Handle)} {r : Request Handle} {l : List Handle} (hne : list ≠ some [])
    (hcovers : ∀ n < nextIndex, ∃ l₀, list = some l₀ ∧ n < l₀.length)
    (h : growHandleTable callbacks nextIndex list r = some l) :
    nextIndex < l.length ∧ ∃ added, l = list.getD [] ++ added := by
  unfold growHandleTable at h
  rcases list with _ | l₀
  · -- a new table of 32 entries, and the index is 0
    obtain rfl := loaderInitGenericList_eq_some h
    rcases nextIndex with _ | m
    · exact ⟨by rw [List.length_replicate]; decide, _, rfl⟩
    · obtain ⟨_, hl₁, -⟩ := hcovers m (Nat.lt_succ_self m)
      cases hl₁
  · have hne₀ : l₀ ≠ [] := fun h0 => hne (congrArg some h0)
    have hpos := List.length_pos_iff.2 hne₀
    have hle : nextIndex ≤ l₀.length := by
      rcases nextIndex with _ | m
      · exact Nat.zero_le _
      · obtain ⟨l₁, hl₁, hlt⟩ := hcovers m (Nat.lt_succ_self m)
        obtain rfl := Option.some.inj hl₁
        exact hlt
    simp only at h
    split_ifs at h with hshort
    · obtain ⟨added, rfl, hlen⟩ := loaderResizeGenericList_eq_some hne₀ h
      refine ⟨?_, added, rfl⟩
      rw [List.length_append]
      omega
    · obtain rfl := Option.some.inj h
      exact ⟨by omega, [], by simp⟩

end VulkanLoader
