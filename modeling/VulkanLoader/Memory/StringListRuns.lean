import VulkanLoader.Lib.Lists
import VulkanLoader.Lib.Runs
import VulkanLoader.Memory.GenericList
import VulkanLoader.Memory.StringArray

/-!
# Runs of operations on a list of strings

Each string of the heap has one holder: the list, in one of its entries, or somebody else.  While this holds, and the
array is as large as the list says, every operation is defined, and it fails exactly if it is refused memory.  A list
whose first array was refused is out of this: its capacity is set and it has no array.
-/

namespace VulkanLoader

open Lib

namespace LoaderStringList

/-- The pointers that the list holds. -/
def entries (l : LoaderStringList) : List ℕ :=
  match l.list with
  | .block slots => slots.take l.count
  | _ => []

/-- The strings of the list. -/
def contents (heap : Heap String) (l : LoaderStringList) : List String := l.entries.filterMap heap.get

/-- **The representation**: the array has room for `allocatedCount` entries, of which `count` are taken; each string of
the heap is in one entry, or is one of the `others`. -/
structure Represents (heap : Heap String) (l : LoaderStringList) (others : List ℕ) : Prop where
  fits : l.count ≤ l.allocatedCount
  bound : l.allocatedCount < 2 ^ 32
  array : 0 < l.allocatedCount → ∃ slots, l.list = .block slots ∧ slots.length = l.allocatedCount
  pointer : l.list ≠ .freed
  live : ∀ p, (heap.get p).isSome ↔ p ∈ l.entries ++ others
  nodup : (l.entries ++ others).Nodup

/-- An added string needs a larger array. -/
def IsFull (l : LoaderStringList) : Prop := l.allocatedCount = 0 ∨ l.count = l.allocatedCount

instance (l : LoaderStringList) : Decidable l.IsFull := inferInstanceAs (Decidable (_ ∨ _))

/-- **A string can be added**: the first array is not refused, and the counts stay within 32 bits. -/
def CanAdd (r : Request ℕ) (l : LoaderStringList) : Prop :=
  (l.allocatedCount = 0 → r.ok) ∧ (l.count = l.allocatedCount → l.allocatedCount < 2 ^ 31)

instance (r : Request ℕ) (l : LoaderStringList) : Decidable (CanAdd r l) := inferInstanceAs (Decidable (_ ∧ _))

variable {heap heap' : Heap String} {l l' : LoaderStringList} {others : List ℕ} {str : ℕ} {text : String}
  {r : Request ℕ} {slots : List ℕ}

theorem entries_block (n m : ℕ) : entries ⟨.block slots, n, m⟩ = slots.take n := rfl

namespace Represents

theorem entry_isSome (h : Represents heap l others) {p : ℕ} (hp : p ∈ l.entries) : (heap.get p).isSome :=
  (h.live p).2 (List.mem_append_left _ hp)

/-- Each of the `count` entries holds a string. -/
theorem length_entries (h : Represents heap l others) : l.entries.length = l.count := by
  have hfits := h.fits
  rcases Nat.eq_zero_or_pos l.allocatedCount with hzero | hpos
  · have hcount : l.count = 0 := by omega
    unfold entries
    split <;> simp [hcount]
  · obtain ⟨slots, hlist, hlen⟩ := h.array hpos
    simp only [entries, hlist, List.length_take]
    omega

theorem zero : Represents .empty .zero [] := by
  constructor
  · exact le_rfl
  · decide
  · exact fun h => absurd h (Nat.lt_irrefl 0)
  · nofun
  · intro p
    simp [LoaderStringList.zero, entries]
  · exact List.nodup_nil

/-- A new string is held by whoever made it. -/
theorem alloc (h : Represents heap l others) (wish : ℕ) (text : String) :
    Represents (heap.alloc wish text) l (heap.place wish :: others) := by
  have hnew : heap.place wish ∉ l.entries ++ others := by
    rw [← h.live, Heap.get_place]
    exact Bool.false_ne_true
  refine ⟨h.fits, h.bound, h.array, h.pointer, fun p => ?_, ?_⟩
  · by_cases hp : p = heap.place wish
    · simp [hp]
    · rw [Heap.alloc_get_of_ne hp, h.live]
      simp [hp]
  · exact (List.perm_middle.nodup_iff).2 (List.nodup_cons.2 ⟨hnew, h.nodup⟩)

theorem others_ne (h : Represents heap l (str :: others)) : str ∉ l.entries ++ others :=
  (List.nodup_cons.1 ((List.perm_middle.nodup_iff).1 h.nodup)).1

/-- What somebody else holds can be freed. -/
theorem free (h : Represents heap l (str :: others)) :
    ∃ heap', heap.free str = some heap' ∧ Represents heap' l others ∧ contents heap' l = contents heap l := by
  obtain ⟨text, htext⟩ := Option.isSome_iff_exists.1 ((h.live str).2 (by simp))
  obtain ⟨heap', hfree, hget, -⟩ := Heap.free_of_get htext
  have hnew := h.others_ne
  refine ⟨heap', hfree, ⟨h.fits, h.bound, h.array, h.pointer, fun p => ?_, ?_⟩, List.filterMap_congr fun p hp => ?_⟩
  · rw [hget]
    by_cases hp : p = str
    · subst hp
      simpa using hnew
    · simp only [if_neg hp, h.live]
      simp [hp]
  · exact (List.nodup_cons.1 ((List.perm_middle.nodup_iff).1 h.nodup)).2
  · rw [hget]
    refine if_neg fun heq => hnew ?_
    rw [← heq]
    exact List.mem_append_left _ hp

end Represents

/-! ### Adding a string -/

/-- An array that is doubled keeps its entries. -/
theorem loaderRealloc_double (pAllocator : Option VkAllocationCallbacks) (hslots : 0 < slots.length) (fill : ℕ → ℕ) :
    ∃ added, added.length = slots.length ∧
      loaderRealloc pAllocator (some slots) slots.length (slots.length * 2) (.grants fill) = some (slots ++ added) := by
  refine ⟨_, ?_, loaderResizeGenericList_grants (List.ne_nil_of_length_pos hslots) fill⟩
  split_ifs
  · rw [length_openCells]
    omega
  · exact List.length_replicate

/-- Room is made: the entries are where they were, and the array is larger than their number. -/
theorem increaseStrCapacity_of_room (pAllocator : Option VkAllocationCallbacks) (h : Represents heap l others)
    (hcan : CanAdd r l) (hroom : l.IsFull → r.ok) :
    ∃ slots, LoaderStringList.increaseStrCapacityByAtLeastOne pAllocator r l =
      some (.success, ⟨.block slots, l.count, slots.length⟩) ∧
      slots.take l.count = l.entries ∧ l.count < slots.length ∧ slots.length < 2 ^ 32 := by
  have hfits := h.fits
  have hbound := h.bound
  unfold LoaderStringList.increaseStrCapacityByAtLeastOne
  rcases Nat.eq_zero_or_pos l.allocatedCount with hzero | hpos
  · -- the first array
    have hcount : l.count = 0 := by omega
    rcases r with _ | fill
    · exact absurd (hcan.1 hzero) Bool.false_ne_true
    · have hentries : l.entries = [] := List.length_eq_zero_iff.1 (h.length_entries.trans hcount)
      refine ⟨List.replicate 32 0, ?_, ?_, ?_, ?_⟩
      · rw [if_pos hzero]
        rfl
      · rw [hcount, hentries, List.take_zero]
      · rw [hcount, List.length_replicate]
        decide
      · rw [List.length_replicate]
        decide
  · obtain ⟨slots, hlist, hlen⟩ := h.array hpos
    have hentries : l.entries = slots.take l.count := by simp only [entries, hlist]
    rw [if_neg (by omega)]
    by_cases hfull : l.count = l.allocatedCount
    · -- the array is doubled
      have hhalf := hcan.2 hfull
      have hdouble : slots.length * 2 % 2 ^ 32 = slots.length * 2 := by omega
      rcases r with _ | fill
      · exact absurd (hroom (.inr hfull)) Bool.false_ne_true
      obtain ⟨added, hadded, hrealloc⟩ := loaderRealloc_double pAllocator (show 0 < slots.length by omega) fill
      refine ⟨slots ++ added, ?_, ?_, ?_, ?_⟩
      · rw [if_pos (by omega)]
        simp only [hlist, ← hlen, hdouble, hrealloc]
        rw [List.length_append, hadded, Nat.mul_two]
      · rw [hentries, List.take_append_of_le_length (by omega)]
      · rw [List.length_append]
        omega
      · rw [List.length_append]
        omega
    · refine ⟨slots, ?_, hentries.symm, by omega, by omega⟩
      rw [if_neg (by omega), hlen, ← hlist]

/-- A refused request for a larger array changes nothing. -/
theorem increaseStrCapacity_of_no_room (pAllocator : Option VkAllocationCallbacks) (h : Represents heap l others)
    (hcan : CanAdd .fails l) (hfull : l.IsFull) :
    LoaderStringList.increaseStrCapacityByAtLeastOne pAllocator .fails l = some (.errorOutOfHostMemory, l) := by
  have hzero : l.allocatedCount ≠ 0 := fun hzero => Bool.false_ne_true (hcan.1 hzero)
  have hcount := hfull.resolve_left hzero
  have hhalf := hcan.2 hcount
  obtain ⟨slots, hlist, hlen⟩ := h.array (by omega)
  unfold LoaderStringList.increaseStrCapacityByAtLeastOne
  rw [if_neg hzero, if_pos (by omega)]
  simp only [hlist, ← hlen, loaderRealloc_fails]
  rw [if_neg (by omega)]

/-- A way of writing a string into the array adds it to the entries. -/
def Writes (write : StringArray → ℕ → ℕ → Option StringArray) (str : ℕ) (add : List ℕ → List ℕ) : Prop :=
  (∀ entries, (add entries).Perm (str :: entries)) ∧
    ∀ slots count, count < slots.length → ∃ slots', write (.block slots) count str = some (.block slots') ∧
      slots'.length = slots.length ∧ slots'.take (count + 1) = add (slots.take count)

theorem writes_store (str : ℕ) : Writes StringArray.store str fun entries => entries ++ [str] := by
  refine ⟨fun entries => List.perm_append_singleton str entries, fun slots count hcount => ?_⟩
  refine ⟨slots.set count str, if_pos hcount, List.length_set, ?_⟩
  have hcount' : count < (slots.set count str).length := by rwa [List.length_set]
  rw [List.take_succ_eq_append_getElem hcount', List.take_set_of_le le_rfl, List.getElem_set_self]

theorem writes_storeFirst (str : ℕ) : Writes StringArray.storeFirst str fun entries => str :: entries := by
  refine ⟨fun entries => .refl _, fun slots count hcount => ⟨_, if_pos hcount, ?_, ?_⟩⟩
  · rw [List.length_cons, List.length_append, List.length_take, List.length_drop]
    omega
  · have hlen : (slots.take count).length = count := by
      rw [List.length_take]
      omega
    rw [List.take_succ_cons, List.take_left' hlen]

section Adding

variable (pAllocator : Option VkAllocationCallbacks) {write : StringArray → ℕ → ℕ → Option StringArray}
  {add : List ℕ → List ℕ}

/-- A string that finds room is held by the list from then on. -/
theorem addStr_of_room (hwrite : Writes write str add) (h : Represents heap l (str :: others)) (hcan : CanAdd r l)
    (hroom : l.IsFull → r.ok) :
    ∃ l', addStrToStringList write pAllocator r heap l str = some (.success, heap, l') ∧ Represents heap l' others ∧
      l'.entries = add l.entries := by
  obtain ⟨slots, hincrease, htake, hcount, hbound⟩ := increaseStrCapacity_of_room pAllocator h hcan hroom
  obtain ⟨slots', hslots', hlen, hentries⟩ := hwrite.2 slots l.count hcount
  have hmod : (l.count + 1) % 2 ^ 32 = l.count + 1 := by omega
  refine ⟨⟨.block slots', l.count + 1, slots.length⟩, ?_, ?_, ?_⟩
  · unfold addStrToStringList
    rw [hincrease]
    simp only [Option.bind_some, reduceCtorEq, if_false, hslots', Option.map_some, hmod]
  · have hperm : (entries ⟨.block slots', l.count + 1, slots.length⟩ ++ others).Perm (l.entries ++ str :: others) := by
      rw [entries_block, hentries, htake]
      exact ((hwrite.1 l.entries).append_right others).trans List.perm_middle.symm
    exact ⟨hcount, hbound, fun _ => ⟨slots', rfl, hlen⟩, nofun, fun p => (h.live p).trans hperm.mem_iff.symm,
      hperm.nodup_iff.2 h.nodup⟩
  · rw [entries_block, hentries, htake]

/-- A string that finds no room is freed. -/
theorem addStr_of_no_room (write : StringArray → ℕ → ℕ → Option StringArray) (h : Represents heap l (str :: others))
    (hcan : CanAdd .fails l) (hfull : l.IsFull) :
    ∃ heap', addStrToStringList write pAllocator .fails heap l str = some (.errorOutOfHostMemory, heap', l) ∧
      Represents heap' l others ∧ contents heap' l = contents heap l := by
  obtain ⟨heap', hfree, hrepresents, hcontents⟩ := h.free
  refine ⟨heap', ?_, hrepresents, hcontents⟩
  unfold addStrToStringList
  rw [increaseStrCapacity_of_no_room pAllocator h hcan hfull]
  simp only [Option.bind_some, if_true, hfree, Option.map_some]

/-- **Adding a string that the caller has just made**: it is refused for want of a larger array, and the list is as it
was, or it is added. -/
def AddsText (s : Heap String × LoaderStringList) (others : List ℕ) (r : Request ℕ) (after : List String)
    (o : Option (VkResult × Heap String × LoaderStringList)) : Prop :=
  ∃ res heap' l', o = some (res, heap', l') ∧ Represents heap' l' others ∧
    ((s.2.IsFull ∧ r.ok = false ∧ res = .errorOutOfHostMemory ∧ l' = s.2 ∧ contents heap' l' = contents s.1 s.2) ∨
      ((s.2.IsFull → r.ok) ∧ res = .success ∧ contents heap' l' = after))

theorem filterMap_alloc (h : Represents heap l others) (wish : ℕ) (text : String) :
    l.entries.filterMap (heap.alloc wish text).get = contents heap l := List.filterMap_congr fun p hp => by
  obtain ⟨entry, hget⟩ := Option.isSome_iff_exists.1 (h.entry_isSome hp)
  rw [hget, Heap.alloc_get_of_get hget]

/-- What both ways of writing a string do. -/
theorem addsText {after : List String} (h : Represents heap l others) (hcan : CanAdd r l) (wish : ℕ)
    (hwrite : Writes write (heap.place wish) add)
    (hafter : (add l.entries).filterMap (heap.alloc wish text).get = after) :
    AddsText (heap, l) others r after
      (addStrToStringList write pAllocator r (heap.alloc wish text) l (heap.place wish)) := by
  have hmade := h.alloc wish text
  by_cases hroom : l.IsFull → r.ok
  · obtain ⟨l', hadd, hrepresents, hentries⟩ := addStr_of_room pAllocator hwrite hmade hcan hroom
    refine ⟨_, _, _, hadd, hrepresents, .inr ⟨hroom, rfl, ?_⟩⟩
    rw [contents, hentries, hafter]
  · obtain ⟨hfull, hr⟩ := Classical.not_imp.1 hroom
    rcases r with _ | fill
    · obtain ⟨heap', hadd, hrepresents, hcontents⟩ := addStr_of_no_room pAllocator write hmade hcan hfull
      exact ⟨_, _, _, hadd, hrepresents, .inl ⟨hfull, rfl, rfl, rfl, hcontents.trans (filterMap_alloc h wish text)⟩⟩
    · exact absurd rfl hr

theorem appendStr_addsText (h : Represents heap l others) (hcan : CanAdd r l) (wish : ℕ) (text : String) :
    AddsText (heap, l) others r (contents heap l ++ [text])
      (LoaderStringList.appendStrToStringList pAllocator r (heap.alloc wish text) l (heap.place wish)) := by
  refine addsText pAllocator h hcan wish (writes_store _) ?_
  rw [List.filterMap_append, filterMap_alloc h, List.filterMap_cons, Heap.alloc_get_self, List.filterMap_nil]

theorem prependStr_addsText (h : Represents heap l others) (hcan : CanAdd r l) (wish : ℕ) (text : String) :
    AddsText (heap, l) others r (text :: contents heap l)
      (LoaderStringList.prependStrToStringList pAllocator r (heap.alloc wish text) l (heap.place wish)) := by
  refine addsText pAllocator h hcan wish (writes_storeFirst _) ?_
  rw [List.filterMap_cons, Heap.alloc_get_self, filterMap_alloc h]

end Adding

/-! ### Looking for a string, and freeing the list -/

/-- The search reads the strings that the entries point to. -/
theorem isStringInStringList_of_live (hlength : l.entries.length = l.count) (hpointer : l.list ≠ .freed)
    (hlive : ∀ p ∈ l.entries, (heap.get p).isSome) (text : String) :
    isStringInStringList heap l text = some (decide (text ∈ contents heap l)) := by
  have hload : ∀ i < l.count, l.list.load i = l.entries[i]? := fun i hi => by
    unfold entries at hlength ⊢
    rcases hlist : l.list with _ | _ | slots
    · simp only [hlist, List.length_nil] at hlength
      omega
    · exact absurd hlist hpointer
    · simp only [StringArray.load, List.getElem?_take, if_pos hi]
  have hfind : ∀ is : List ℕ, (∀ i ∈ is, i < l.count) →
      findString heap l.list text is = some (decide (text ∈ is.filterMap fun i => l.entries[i]?.bind heap.get)) := by
    intro is
    induction is with
    | nil => exact fun _ => by simp [findString]
    | cons i is ih =>
      intro his
      have hi := his i List.mem_cons_self
      have hlt : i < l.entries.length := hlength ▸ hi
      have hentry : l.entries[i]? = some l.entries[i] := List.getElem?_eq_getElem hlt
      obtain ⟨entry, hget⟩ := Option.isSome_iff_exists.1 (hlive _ (List.getElem_mem hlt))
      simp only [findString, hload i hi, hentry, Option.bind_some, hget]
      rw [ih fun j hj => his j (List.mem_cons_of_mem _ hj)]
      by_cases heq : entry = text
      · simp [heq, hentry, hget]
      · simp [heq, hentry, hget, Ne.symm heq]
  unfold isStringInStringList contents
  rw [hfind _ fun i hi => List.mem_range.1 hi, ← hlength, filterMap_range_getElem?]

/-- The search finds the string that it looks for. -/
theorem isStringInStringList_eq (h : Represents heap l others) (text : String) :
    isStringInStringList heap l text = some (decide (text ∈ contents heap l)) :=
  isStringInStringList_of_live h.length_entries h.pointer (fun _ hp => h.entry_isSome hp) text

/-- The strings of the list are freed. -/
theorem freeStringList_eq (h : Represents heap l others) :
    ∃ heap', freeStringList heap l = some (heap', zero) ∧ Represents heap' .zero others := by
  have hzero : ∀ heap' : Heap String, (∀ p, (heap'.get p).isSome ↔ p ∈ others) → Represents heap' .zero others :=
    fun heap' hlive =>
      ⟨le_rfl, Nat.two_pow_pos 32, fun hpos => absurd hpos (Nat.lt_irrefl 0), nofun, hlive, h.nodup.of_append_right⟩
  unfold freeStringList
  rcases hlist : l.list with _ | _ | slots
  · have hentries : l.entries = [] := by simp only [entries, hlist]
    exact ⟨heap, rfl, hzero heap fun p => by simpa [hentries] using h.live p⟩
  · exact absurd hlist h.pointer
  · have hentries : l.entries = slots.take l.count := by simp only [entries, hlist]
    have hlen := h.length_entries
    rw [hentries, List.length_take] at hlen
    obtain ⟨heap', hfree, hget, -⟩ := Heap.freeAll_of_get (h.nodup.of_append_left.filter (fun p => decide (p ≠ 0)))
      fun p hp _ => h.entry_isSome hp
    refine ⟨heap', ?_, hzero heap' fun p => ?_⟩
    · dsimp only
      rw [if_pos (by omega), ← hentries, hfree]
      rfl
    · rw [hget]
      by_cases hp : p ∈ l.entries
      · have hother := List.disjoint_of_nodup_append h.nodup hp
        simpa [hp] using hother
      · rw [if_neg hp, h.live]
        simp [hp]

end LoaderStringList

/-! ### Runs -/

/-- The heap, the list, and the strings that somebody else holds. -/
structure StringListState where
  heap : Heap String
  l : LoaderStringList
  others : List ℕ

namespace StringListState

/-- Before the first operation. -/
def init : StringListState := ⟨.empty, .zero, []⟩

/-- The strings of the list. -/
def contents (s : StringListState) : List String := s.l.contents s.heap

/-- The representation of the list. -/
def Represents (s : StringListState) : Prop := s.l.Represents s.heap s.others

end StringListState

/-- An operation on the list, with what its requests meet.  The functions that own the string which they are given get
one that the caller has just made; `wish` and `copyAt` are where the allocator puts a string. -/
inductive StringListOp where
  | create (allocatedCount : UInt32) (r : Request ℕ)
  | append (wish : ℕ) (text : String) (r : Request ℕ)
  | prepend (wish : ℕ) (text : String) (r : Request ℕ)
  | appendIfUnique (wish : ℕ) (text : String) (r : Request ℕ)
  | copy (copyAt : Option ℕ) (text : String) (strLen : ℕ) (r : Request ℕ)
  | copyIfUnique (copyAt : Option ℕ) (text : String) (strLen : ℕ) (r : Request ℕ)
  | copyToStart (copyAt : Option ℕ) (text : String) (strLen : ℕ) (r : Request ℕ)
  | free

namespace StringListOp

open LoaderStringList StringListState

/-- The operation; `none` where its behaviour is undefined. -/
def perform (pAllocator : Option VkAllocationCallbacks) (s : StringListState) :
    StringListOp → Option (VkResult × StringListState)
  | create allocatedCount r =>
    -- the strings of a list that is made again are left to whoever remembers them
    let (res, l) := LoaderStringList.createStringList r allocatedCount.toNat s.l
    some (res, ⟨s.heap, l, s.l.entries ++ s.others⟩)
  | append wish text r =>
    (LoaderStringList.appendStrToStringList pAllocator r (s.heap.alloc wish text) s.l (s.heap.place wish)).map
      fun (res, heap, l) => (res, ⟨heap, l, s.others⟩)
  | prepend wish text r =>
    (LoaderStringList.prependStrToStringList pAllocator r (s.heap.alloc wish text) s.l (s.heap.place wish)).map
      fun (res, heap, l) => (res, ⟨heap, l, s.others⟩)
  | appendIfUnique wish text r =>
    (appendStrToStringListIfUnique pAllocator r (s.heap.alloc wish text) s.l (s.heap.place wish) text).map
      fun (res, heap, l) => (res, ⟨heap, l, s.others⟩)
  | copy copyAt text strLen r =>
    (LoaderStringList.copyStrToStringList pAllocator copyAt r s.heap s.l text strLen).map fun (res, heap, l) =>
      (res, ⟨heap, l, s.others⟩)
  | copyIfUnique copyAt text strLen r =>
    (copyStrToStringListIfUnique pAllocator copyAt r s.heap s.l text strLen).map fun (res, heap, l) =>
      (res, ⟨heap, l, s.others⟩)
  | copyToStart copyAt text strLen r =>
    (LoaderStringList.copyStrToStartOfStringList pAllocator copyAt r s.heap s.l text strLen).map fun (res, heap, l) =>
      (res, ⟨heap, l, s.others⟩)
  | free => (freeStringList s.heap s.l).map fun (heap, l) => (.success, ⟨heap, l, s.others⟩)

/-- What the operation asks of the array, if it goes that far: the string that it adds, whether at the start, and what
the request for a larger array would meet. -/
def adds (contents : List String) : StringListOp → Option (String × Bool × Request ℕ)
  | create _ _ => none
  | append _ text r => some (text, false, r)
  | prepend _ text r => some (text, true, r)
  | appendIfUnique _ text r => if text ∈ contents then none else some (text, false, r)
  | copy copyAt text strLen r => copyAt.map fun _ => (strncpy text strLen, false, r)
  | copyIfUnique copyAt text strLen r =>
    if text ∈ contents then none else copyAt.map fun _ => (strncpy text strLen, false, r)
  | copyToStart copyAt text strLen r => copyAt.map fun _ => (strncpy text strLen, true, r)
  | free => none

/-- The copy of a string is refused. -/
def copyRefused (contents : List String) : StringListOp → Bool
  | copy copyAt _ _ _ => copyAt.isNone
  | copyIfUnique copyAt text _ _ => text ∉ contents ∧ copyAt.isNone
  | copyToStart copyAt _ _ _ => copyAt.isNone
  | _ => false

/-- What the request for an array of a given size meets. -/
def creates : StringListOp → Option (Request ℕ)
  | create _ r => some r
  | _ => none

/-- A request of the operation is refused. -/
def Refused (s : StringListState) (op : StringListOp) : Prop :=
  op.copyRefused s.contents = true ∨ (∃ added ∈ op.adds s.contents, s.l.IsFull ∧ added.2.2.ok = false) ∨
    ∃ r ∈ op.creates, r.ok = false

/-- The strings after an operation that is refused nothing. -/
def result (contents : List String) (op : StringListOp) : List String :=
  match op, op.adds contents with
  | create _ _, _ => []
  | free, _ => []
  | _, some (text, true, _) => text :: contents
  | _, some (text, false, _) => contents ++ [text]
  | _, none => contents

/-- **The first array comes when it is asked for**, and the counts stay within 32 bits. -/
def ArrayComes (s : StringListState) (op : StringListOp) : Prop :=
  (∀ added ∈ op.adds s.contents, CanAdd added.2.2 s.l) ∧ ∀ r ∈ op.creates, r.ok = false → s.l.allocatedCount = 0

instance (s : StringListState) (op : StringListOp) : Decidable (op.ArrayComes s) := inferInstanceAs (Decidable (_ ∧ _))

/-- **An operation does what it should**: it is defined and keeps the representation; if it is refused memory it says so
and the strings are those of before, and else it succeeds. -/
def Performs (pAllocator : Option VkAllocationCallbacks) (s : StringListState) (op : StringListOp) : Prop :=
  ∃ res s', op.perform pAllocator s = some (res, s') ∧ s'.Represents ∧
    ((op.Refused s ∧ res = .errorOutOfHostMemory ∧ s'.l.count = s.l.count ∧ s'.contents = s.contents) ∨
      (¬ op.Refused s ∧ res = .success ∧ s'.contents = op.result s.contents))

variable {s : StringListState} {op : StringListOp} {pAllocator : Option VkAllocationCallbacks}

/-- An operation that comes to adding a string. -/
theorem performs_of_addsText {o : Option (VkResult × Heap String × LoaderStringList)} {text : String} {start : Bool}
    {r : Request ℕ} (hperform : op.perform pAllocator s = o.map fun (res, heap, l) => (res, ⟨heap, l, s.others⟩))
    (hadds : op.adds s.contents = some (text, start, r)) (hcopy : op.copyRefused s.contents = false)
    (ho : AddsText (s.heap, s.l) s.others r (op.result s.contents) o) : op.Performs pAllocator s := by
  obtain ⟨res, heap', l', rfl, hrepresents, hcases⟩ := ho
  refine ⟨res, ⟨heap', l', s.others⟩, hperform, hrepresents, ?_⟩
  have hrefused : op.Refused s ↔ s.l.IsFull ∧ r.ok = false := by
    have hcreates : op.creates = none := by
      cases op with
      | create allocatedCount r => cases hadds
      | _ => rfl
    simp [Refused, hcopy, hadds, hcreates]
  rcases hcases with ⟨hfull, hr, rfl, rfl, hcontents⟩ | ⟨hroom, rfl, hcontents⟩
  · exact .inl ⟨hrefused.2 ⟨hfull, hr⟩, rfl, rfl, hcontents⟩
  · refine .inr ⟨fun h => ?_, rfl, hcontents⟩
    obtain ⟨hfull, hr⟩ := hrefused.1 h
    exact Bool.false_ne_true (hr.symm.trans (hroom hfull))

/-- An operation whose copy of the string is refused. -/
theorem performs_of_copyRefused (hs : s.Represents)
    (hperform : op.perform pAllocator s = some (.errorOutOfHostMemory, ⟨s.heap, s.l, s.others⟩))
    (hcopy : op.copyRefused s.contents = true) : op.Performs pAllocator s :=
  ⟨_, _, hperform, hs, .inl ⟨.inl hcopy, rfl, rfl, rfl⟩⟩

/-- An operation on a string that the list has already. -/
theorem performs_of_found {heap' : Heap String}
    (hperform : op.perform pAllocator s = some (.success, ⟨heap', s.l, s.others⟩))
    (hs' : StringListState.Represents ⟨heap', s.l, s.others⟩) (hcontents : s.l.contents heap' = s.contents)
    (hrefused : ¬ op.Refused s) (hresult : op.result s.contents = s.contents) : op.Performs pAllocator s :=
  ⟨_, _, hperform, hs', .inr ⟨hrefused, rfl, hcontents.trans hresult.symm⟩⟩

theorem performs_create (hs : s.Represents) {allocatedCount : UInt32} {r : Request ℕ}
    (hop : (create allocatedCount r).ArrayComes s) : (create allocatedCount r).Performs pAllocator s := by
  have hothers : ∀ l : LoaderStringList, l.entries = [] → l.count ≤ l.allocatedCount → l.allocatedCount < 2 ^ 32 →
      (0 < l.allocatedCount → ∃ slots, l.list = .block slots ∧ slots.length = l.allocatedCount) → l.list ≠ .freed →
      StringListState.Represents ⟨s.heap, l, s.l.entries ++ s.others⟩ := by
    intro l hentries hfits hbound harray hpointer
    refine ⟨hfits, hbound, harray, hpointer, fun p => ?_, ?_⟩
    · rw [hentries]
      exact hs.live p
    · rw [hentries]
      exact hs.nodup
  rcases r with _ | fill
  · -- the list has no array, and keeps none
    have hzero : s.l.allocatedCount = 0 := hop.2 _ rfl rfl
    have hcount : s.l.count = 0 := by
      have hfits := hs.fits
      omega
    have hnil : s.contents = [] := by
      have hentries := List.length_eq_zero_iff.1 (hs.length_entries.trans hcount)
      rw [StringListState.contents, LoaderStringList.contents, hentries, List.filterMap_nil]
    refine ⟨_, _, rfl, hothers { s.l with list := .null } rfl hs.fits hs.bound (fun hpos => ?_) nofun,
      .inl ⟨.inr (.inr ⟨_, rfl, rfl⟩), rfl, rfl, hnil.symm⟩⟩
    dsimp only at hpos
    omega
  · refine ⟨_, _, rfl, hothers ⟨.block (List.replicate allocatedCount.toNat 0), 0, allocatedCount.toNat⟩ rfl
      (Nat.zero_le _) allocatedCount.toNat_lt (fun _ => ⟨_, rfl, List.length_replicate⟩) nofun, .inr ⟨?_, rfl, rfl⟩⟩
    simp [Refused, copyRefused, adds, creates, Request.ok]

theorem performs (hs : s.Represents) (hop : op.ArrayComes s) : op.Performs pAllocator s := by
  cases op with
  | create allocatedCount r => exact performs_create hs hop
  | append wish text r =>
    exact performs_of_addsText rfl rfl rfl (appendStr_addsText pAllocator hs (hop.1 _ rfl) wish text)
  | prepend wish text r =>
    exact performs_of_addsText rfl rfl rfl (prependStr_addsText pAllocator hs (hop.1 _ rfl) wish text)
  | appendIfUnique wish text r =>
    have hmade := hs.alloc wish text
    have hfind := isStringInStringList_eq hmade text
    have hcontents : (s.l.contents (s.heap.alloc wish text)) = s.contents := filterMap_alloc hs wish text
    rw [hcontents] at hfind
    by_cases hfound : text ∈ s.contents
    · obtain ⟨heap', hfree, hs', hsame⟩ := hmade.free
      have hadds : (appendIfUnique wish text r).adds s.contents = none := if_pos hfound
      refine performs_of_found ?_ hs' (hsame.trans hcontents) ?_ ?_
      · simp [perform, appendStrToStringListIfUnique, hfind, hfound, hfree]
      · simp [Refused, copyRefused, hadds, creates]
      · simp [result, hadds]
    · have hadds : (appendIfUnique wish text r).adds s.contents = some (text, false, r) := if_neg hfound
      refine performs_of_addsText ?_ hadds rfl ?_
        (o := LoaderStringList.appendStrToStringList pAllocator r (s.heap.alloc wish text) s.l (s.heap.place wish))
      · simp [perform, appendStrToStringListIfUnique, hfind, hfound]
      · simp only [result, hadds]
        exact appendStr_addsText pAllocator hs (hop.1 _ hadds) wish text
  | copy copyAt text strLen r =>
    rcases copyAt with _ | wish
    · exact performs_of_copyRefused hs rfl rfl
    · exact performs_of_addsText rfl rfl rfl (appendStr_addsText pAllocator hs (hop.1 _ rfl) wish _)
  | copyIfUnique copyAt text strLen r =>
    have hfind : isStringInStringList s.heap s.l text = some (decide (text ∈ s.contents)) :=
      isStringInStringList_eq hs text
    by_cases hfound : text ∈ s.contents
    · have hadds : (copyIfUnique copyAt text strLen r).adds s.contents = none := if_pos hfound
      refine performs_of_found ?_ hs rfl ?_ ?_
      · simp [perform, copyStrToStringListIfUnique, hfind, hfound]
      · simp [Refused, copyRefused, hadds, hfound, creates]
      · simp [result, hadds]
    · rcases copyAt with _ | wish
      · refine performs_of_copyRefused hs ?_ ?_
        · simp [perform, copyStrToStringListIfUnique, LoaderStringList.copyStrToStringList, hfind, hfound]
        · simp [copyRefused, hfound]
      · have hadds : (copyIfUnique (some wish) text strLen r).adds s.contents = some (strncpy text strLen, false, r) :=
          if_neg hfound
        refine performs_of_addsText ?_ hadds (by simp [copyRefused]) ?_
          (o := LoaderStringList.appendStrToStringList pAllocator r (s.heap.alloc wish (strncpy text strLen)) s.l
            (s.heap.place wish))
        · simp [perform, copyStrToStringListIfUnique, LoaderStringList.copyStrToStringList, hfind, hfound]
        · simp only [result, hadds]
          exact appendStr_addsText pAllocator hs (hop.1 _ hadds) wish _
  | copyToStart copyAt text strLen r =>
    rcases copyAt with _ | wish
    · exact performs_of_copyRefused hs rfl rfl
    · exact performs_of_addsText rfl rfl rfl (prependStr_addsText pAllocator hs (hop.1 _ rfl) wish _)
  | free =>
    obtain ⟨heap', hfree, hs'⟩ := freeStringList_eq hs
    refine ⟨.success, ⟨heap', .zero, s.others⟩, by simp [perform, hfree], hs', .inr ⟨?_, rfl, rfl⟩⟩
    simp [Refused, copyRefused, adds, creates]

end StringListOp

open StringListOp

/-- An operation, from what the ones before it have left. -/
def stringListStep (pAllocator : Option VkAllocationCallbacks) (o : Option StringListState) (op : StringListOp) :
    Option StringListState :=
  o.bind fun s => (op.perform pAllocator s).map Prod.snd

/-- **The representation is kept in a run**: before each operation, which does what it should, and at the end. -/
def KeepsRepresentation (pAllocator : Option VkAllocationCallbacks) (ops : List StringListOp) : Prop :=
  AllSteps (stringListStep pAllocator) (fun o op => ∃ s, o = some s ∧ s.Represents ∧ op.Performs pAllocator s)
      (some .init) ops ∧
    ∃ s, run (stringListStep pAllocator) (some .init) ops = some s ∧ s.Represents

/-- **Lists of strings keep their representation** in every run in which the first array comes when it is asked for. -/
theorem keepsRepresentation (pAllocator : Option VkAllocationCallbacks) (ops : List StringListOp)
    (hops : AllSteps (stringListStep pAllocator) (fun o op => ∀ s ∈ o, op.ArrayComes s) (some .init) ops) :
    KeepsRepresentation pAllocator ops := by
  have hinit : ∃ s, some StringListState.init = some s ∧ s.Represents := ⟨.init, rfl, LoaderStringList.Represents.zero⟩
  have hperforms : ∀ (o : Option StringListState) (op : StringListOp), (∃ s, o = some s ∧ s.Represents) →
      (∀ s ∈ o, op.ArrayComes s) → ∃ s, o = some s ∧ s.Represents ∧ op.Performs pAllocator s := by
    rintro o op ⟨s, rfl, hs⟩ hop
    exact ⟨s, rfl, hs, performs hs (hop s rfl)⟩
  have hstep : ∀ (o : Option StringListState) (op : StringListOp), (∃ s, o = some s ∧ s.Represents) →
      (∀ s ∈ o, op.ArrayComes s) → ∃ s, stringListStep pAllocator o op = some s ∧ s.Represents := by
    intro o op ho hop
    obtain ⟨s, rfl, -, res, s', hperform, hs', -⟩ := hperforms o op ho hop
    exact ⟨s', by rw [stringListStep, Option.bind_some, hperform, Option.map_some], hs'⟩
  exact ⟨run_step_invariant (stringListStep pAllocator) hstep hperforms hinit ops hops,
    run_invariant (stringListStep pAllocator) hstep hinit hops⟩

/-- A list of one entry: what does not fit is refused its memory, and what comes after it finds room. -/
theorem keepsRepresentation_oneEntry : KeepsRepresentation none
    [.create 1 (.grants fun _ => 0), .append 0 "a" .fails, .prepend 0 "b" .fails,
      .copyIfUnique none "a" 1 .fails, .copyToStart (some 0) "cd" 1 (.grants fun _ => 0), .free] := by
  exact keepsRepresentation none _ (by decide)

/-- Two strings are added to a list of zeros, and the first array is refused: the second string is written through the
null pointer. -/
theorem not_keepsRepresentation : ¬ ∀ ops, KeepsRepresentation none ops := by
  intro h
  obtain ⟨-, s, hrun, -⟩ := h [.append 0 "a" .fails, .append 0 "b" (.grants fun _ => 0)]
  cases hrun

end VulkanLoader
