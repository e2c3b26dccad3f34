import VulkanLoader.Memory.StringList
import VulkanLoader.Memory.StringListRuns

/-!
# The array of a list of strings, and its strings

A list in memory *stands for* strings: its array points to them, one entry for each.  Every operation on the array does to
the strings what the operation of the same name does, which knows no heap, and one is undefined where the other is; so is
every run of them.
-/

namespace VulkanLoader

open Lib

/-- **The list stands for the strings**: it has an array if they have one, as large as they say, and the entries point to
them; the heap holds each of them apart. -/
inductive Stands (heap : Heap String) : LoaderStringList → StringList → Prop
  | null (allocatedCount : ℕ) : Stands heap ⟨.null, 0, allocatedCount⟩ ⟨none, allocatedCount⟩
  | block {slots : List ℕ} {strings : List String} (hfits : strings.length ≤ slots.length)
      (hbound : slots.length < 2 ^ 32) (hentries : (slots.take strings.length).map heap.get = strings.map some)
      (hnodup : (slots.take strings.length).Nodup) :
      Stands heap ⟨.block slots, strings.length, slots.length⟩ ⟨some strings, slots.length⟩

/-- A larger array is counted in 32 bits. -/
def LoaderStringList.CanDouble (l : LoaderStringList) : Prop := l.count = l.allocatedCount → l.allocatedCount < 2 ^ 31

instance (l : LoaderStringList) : Decidable l.CanDouble := inferInstanceAs (Decidable (_ → _))

namespace Stands

open LoaderStringList (entries contents loaderRealloc_double)

variable {heap heap' : Heap String} {l l' : LoaderStringList} {s s' : StringList} {str : ℕ} {text : String} {r : Request ℕ}

theorem entries_eq (h : Stands heap l s) : l.entries.map heap.get = s.strings.map some := by
  cases h with
  | null => rfl
  | block hfits hbound hentries hnodup => exact hentries

theorem nodup_entries (h : Stands heap l s) : l.entries.Nodup := by
  cases h with
  | null => exact List.nodup_nil
  | block hfits hbound hentries hnodup => exact hnodup

theorem contents_eq (h : Stands heap l s) : contents heap l = s.strings := by
  have hmap : contents heap l = (l.entries.map heap.get).filterMap id := by
    rw [List.filterMap_map]
    rfl
  rw [hmap, h.entries_eq, List.filterMap_map]
  exact List.filterMap_some

theorem live (h : Stands heap l s) {p : ℕ} (hp : p ∈ l.entries) : (heap.get p).isSome := by
  have hmem : heap.get p ∈ s.strings.map some := h.entries_eq ▸ List.mem_map_of_mem hp
  obtain ⟨text, -, htext⟩ := List.mem_map.1 hmem
  rw [← htext, Option.isSome_some]

/-- The rest of the heap does not matter. -/
theorem frame (h : Stands heap l s) (hget : ∀ p ∈ l.entries, heap'.get p = heap.get p) : Stands heap' l s := by
  cases h with
  | null allocatedCount => exact .null allocatedCount
  | block hfits hbound hentries hnodup => exact .block hfits hbound ((List.map_congr_left hget).trans hentries) hnodup

theorem place_not_mem (h : Stands heap l s) (wish : ℕ) : heap.place wish ∉ l.entries := by
  intro hmem
  have hlive := h.live hmem
  rw [Heap.get_place] at hlive
  exact Bool.false_ne_true hlive

/-- A string that the caller makes. -/
theorem alloc (h : Stands heap l s) (wish : ℕ) (text : String) : Stands (heap.alloc wish text) l s :=
  h.frame fun p hp => Heap.alloc_get_of_ne fun (heq : p = _) => h.place_not_mem wish (heq ▸ hp)

/-- A string that is in no entry is freed. -/
theorem free (h : Stands heap l s) (hstr : heap.get str = some text) (hnew : str ∉ l.entries) :
    ∃ heap', heap.free str = some heap' ∧ Stands heap' l s := by
  obtain ⟨heap', hfree, hget, -⟩ := Heap.free_of_get hstr
  refine ⟨heap', hfree, h.frame fun p hp => ?_⟩
  rw [hget]
  exact if_neg fun (heq : p = str) => hnew (heq ▸ hp)

/-! ### Adding a string -/

/-- **The array that is made larger** stands for what was there; it is refused with its capacity set, or has room. -/
theorem increase (pAllocator : Option VkAllocationCallbacks) (h : Stands heap l s) (hcan : l.CanDouble) (r : Request ℕ) :
    ∃ res l' s', LoaderStringList.increaseStrCapacityByAtLeastOne pAllocator r l = some (res, l') ∧
      increaseStrCapacityByAtLeastOne r.ok s = (res, s') ∧ Stands heap l' s' ∧ l'.entries = l.entries ∧
      (res = .errorOutOfHostMemory ∨ res = .success ∧ ∀ slots, l'.list = .block slots → l'.count < slots.length) := by
  unfold LoaderStringList.increaseStrCapacityByAtLeastOne increaseStrCapacityByAtLeastOne
  have hfirst : Stands heap ⟨.block (List.replicate 32 0), 0, 32⟩ ⟨some [], 32⟩ :=
    @block heap (List.replicate 32 0) [] (Nat.zero_le _) (by decide) rfl List.nodup_nil
  cases h with
  | null allocatedCount =>
    by_cases hzero : allocatedCount = 0
    · -- the first array
      simp only [if_pos hzero]
      rcases r with _ | fill
      · exact ⟨_, _, _, rfl, rfl, .null 32, rfl, .inl rfl⟩
      · refine ⟨_, _, _, rfl, rfl, hfirst, rfl, .inr ⟨rfl, ?_⟩⟩
        rintro slots ⟨rfl⟩
        decide
    · -- the first array was refused before
      have hroom : ¬ (0 + 1) % 2 ^ 32 > allocatedCount := by omega
      have hroom' : ¬ (StringList.mk none allocatedCount).strings.length + 1 > allocatedCount := by
        simp only [StringList.strings, Option.getD_none, List.length_nil]
        omega
      simp only [if_neg hzero, if_neg hroom, if_neg hroom']
      exact ⟨_, _, _, rfl, rfl, .null allocatedCount, rfl, .inr ⟨rfl, fun slots hslots => by cases hslots⟩⟩
  | @block slots strings hfits hbound hentries hnodup =>
    have hstands : Stands heap ⟨.block slots, strings.length, slots.length⟩ ⟨some strings, slots.length⟩ :=
      .block hfits hbound hentries hnodup
    have hstrings : (StringList.mk (some strings) slots.length).strings = strings := rfl
    simp only [hstrings]
    by_cases hzero : slots.length = 0
    · -- an array without entries
      obtain rfl : strings = [] := List.length_eq_zero_iff.1 (by omega)
      simp only [if_pos hzero]
      rcases r with _ | fill
      · exact ⟨_, _, _, rfl, rfl, .null 32, rfl, .inl rfl⟩
      · refine ⟨_, _, _, rfl, rfl, hfirst, rfl, .inr ⟨rfl, ?_⟩⟩
        rintro slots ⟨rfl⟩
        decide
    by_cases hfull : strings.length = slots.length
    · -- the array is doubled, or stays
      have hhalf : slots.length < 2 ^ 31 := hcan hfull
      have hmore : (strings.length + 1) % 2 ^ 32 > slots.length := by omega
      have hmore' : strings.length + 1 > slots.length := by omega
      have hdouble : slots.length * 2 % 2 ^ 32 = slots.length * 2 := by omega
      simp only [if_neg hzero, if_pos hmore, if_pos hmore', hdouble]
      rcases r with _ | fill
      · have hnonzero : ¬ slots.length * 2 = 0 := by omega
        simp only [loaderRealloc_fails, if_neg hnonzero]
        exact ⟨_, _, _, rfl, rfl, hstands, rfl, .inl rfl⟩
      · obtain ⟨added, hadded, hrealloc⟩ := loaderRealloc_double pAllocator (show 0 < slots.length by omega) fill
        simp only [hrealloc]
        have hlength : (slots ++ added).length = slots.length * 2 := by
          rw [List.length_append, hadded, Nat.mul_two]
        have htake : (slots ++ added).take strings.length = slots.take strings.length :=
          List.take_append_of_le_length hfits
        refine ⟨_, _, _, rfl, rfl, ?_, htake, .inr ⟨rfl, ?_⟩⟩
        · have hgrown := @block heap (slots ++ added) strings (by omega) (by omega) (htake ▸ hentries) (htake ▸ hnodup)
          rwa [hlength] at hgrown
        · rintro slots' ⟨rfl⟩
          change strings.length < (slots ++ added).length
          omega
    · -- there is room
      have hroom : ¬ (strings.length + 1) % 2 ^ 32 > slots.length := by omega
      have hroom' : ¬ strings.length + 1 > slots.length := by omega
      simp only [if_neg hzero, if_neg hroom, if_neg hroom']
      refine ⟨_, _, _, rfl, rfl, hstands, rfl, .inr ⟨rfl, ?_⟩⟩
      rintro slots' ⟨rfl⟩
      change strings.length < slots.length
      omega

/-- A function ends alike on the array and on the strings: with the same result and an array that stands for the strings,
or nowhere. -/
def Alike : Option (VkResult × Heap String × LoaderStringList) → Option (VkResult × StringList) → Prop :=
  Option.Rel fun o o' => o.1 = o'.1 ∧ Stands o.2.1 o.2.2 o'.2

section Adding

variable (pAllocator : Option VkAllocationCallbacks) {write : StringArray → ℕ → ℕ → Option StringArray}
  {add : List ℕ → List ℕ} {f : List String → List String}

/-- **A string that somebody else holds is added**, or freed. -/
theorem addStr (hwrite : LoaderStringList.Writes write str add) (hnull : ∀ count, write .null count str = none)
    (hadd : ∀ entries strings, entries.map heap.get = strings.map some →
      (add entries).map heap.get = (f strings).map some)
    (h : Stands heap l s) (hcan : l.CanDouble) (hstr : heap.get str = some text) (hnew : str ∉ l.entries)
    (r : Request ℕ) :
    ∃ res s', increaseStrCapacityByAtLeastOne r.ok s = (res, s') ∧
      Alike (LoaderStringList.addStrToStringList write pAllocator r heap l str)
        (if res = .errorOutOfHostMemory then some (res, s')
        else s'.list.map fun strings => (.success, { s' with list := some (f strings) })) := by
  obtain ⟨res, l', s', hgrown, hgrown', h', hentries', hres⟩ := h.increase pAllocator hcan r
  refine ⟨res, s', hgrown', ?_⟩
  unfold LoaderStringList.addStrToStringList
  rw [hgrown, Option.bind_some]
  dsimp only
  rw [← hentries'] at hnew
  rcases hres with rfl | ⟨rfl, hroom⟩
  · obtain ⟨heap', hfree, hstands⟩ := h'.free hstr hnew
    rw [if_pos rfl, if_pos rfl, hfree]
    exact .some ⟨rfl, hstands⟩
  rw [if_neg (by decide), if_neg (by decide)]
  cases h' with
  | null allocatedCount =>
    dsimp only
    rw [hnull]
    exact .none
  | @block slots strings hfits hbound hentries hnodup =>
    have hcount : strings.length < slots.length := hroom slots rfl
    obtain ⟨slots', hwritten, hlength, htake⟩ := hwrite.2 slots strings.length hcount
    have hmap := hadd _ _ hentries
    have hperm := hwrite.1 (slots.take strings.length)
    have hlen : (f strings).length = strings.length + 1 := by
      have hsame := congrArg List.length hmap
      rw [List.length_map, List.length_map, hperm.length_eq, List.length_cons, List.length_take] at hsame
      omega
    have hmod : (strings.length + 1) % 2 ^ 32 = (f strings).length := by omega
    have hstands := @block heap slots' (f strings) (by omega) (by omega) (by rw [hlen, htake, hmap])
      (by rw [hlen, htake]; exact hperm.nodup_iff.2 (List.nodup_cons.2 ⟨hnew, hnodup⟩))
    dsimp only
    rw [hwritten, Option.map_some, Option.map_some, hmod]
    rw [hlength] at hstands
    exact .some ⟨rfl, hstands⟩

theorem appendStr (h : Stands heap l s) (hcan : l.CanDouble) (wish : ℕ) (text : String) (r : Request ℕ) :
    Alike (LoaderStringList.appendStrToStringList pAllocator r (heap.alloc wish text) l (heap.place wish))
      (appendStrToStringList r.ok s text) := by
  obtain ⟨res, s', hgrown, halike⟩ := (h.alloc wish text).addStr (f := fun strings => strings ++ [text]) pAllocator
    (LoaderStringList.writes_store (heap.place wish)) (fun _ => rfl) (fun entries strings hmap => by
      rw [List.map_append, hmap, List.map_append, List.map_singleton, Heap.alloc_get_self, List.map_singleton])
    hcan (Heap.alloc_get_self heap wish text) (h.place_not_mem wish) r
  unfold appendStrToStringList
  rw [hgrown]
  exact halike

theorem prependStr (h : Stands heap l s) (hcan : l.CanDouble) (wish : ℕ) (text : String) (r : Request ℕ) :
    Alike (LoaderStringList.prependStrToStringList pAllocator r (heap.alloc wish text) l (heap.place wish))
      (prependStrToStringList r.ok s text) := by
  obtain ⟨res, s', hgrown, halike⟩ := (h.alloc wish text).addStr (f := fun strings => text :: strings) pAllocator
    (LoaderStringList.writes_storeFirst (heap.place wish)) (fun _ => rfl) (fun entries strings hmap => by
      rw [List.map_cons, hmap, List.map_cons, Heap.alloc_get_self])
    hcan (Heap.alloc_get_self heap wish text) (h.place_not_mem wish) r
  unfold prependStrToStringList
  rw [hgrown]
  exact halike

end Adding

/-! ### Making a list, looking for a string, and freeing the list -/

/-- A list that is made, in place of one whose strings are left to whoever remembers them. -/
theorem createStringList (h : Stands heap l s) (hempty : r.ok = false → l.allocatedCount = 0) (allocatedCount : UInt32) :
    (LoaderStringList.createStringList r allocatedCount.toNat l).1 =
        (VulkanLoader.createStringList r.ok allocatedCount.toNat).1 ∧
      Stands heap (LoaderStringList.createStringList r allocatedCount.toNat l).2
        (VulkanLoader.createStringList r.ok allocatedCount.toNat).2 := by
  rcases r with _ | fill
  · refine ⟨rfl, ?_⟩
    have hzero := hempty rfl
    cases h with
    | null capacity =>
      obtain rfl : capacity = 0 := hzero
      exact .null 0
    | @block slots strings hfits hbound hentries hnodup =>
      have hslots : slots = [] := List.length_eq_zero_iff.1 hzero
      subst hslots
      obtain rfl : strings = [] := List.length_eq_zero_iff.1 (Nat.le_zero.1 hfits)
      exact .null 0
  · refine ⟨rfl, ?_⟩
    have hstands := @block heap (List.replicate allocatedCount.toNat 0) [] (Nat.zero_le _)
      (by rw [List.length_replicate]; exact allocatedCount.toNat_lt) rfl List.nodup_nil
    rwa [List.length_replicate] at hstands

theorem isStringInStringList (h : Stands heap l s) (text : String) :
    LoaderStringList.isStringInStringList heap l text = some (decide (text ∈ s.strings)) := by
  have hlength : l.entries.length = l.count := by
    cases h with
    | null => rfl
    | block hfits hbound hentries hnodup => exact List.length_take_of_le hfits
  have hpointer : l.list ≠ .freed := by
    cases h <;> exact fun hfreed => by cases hfreed
  rw [LoaderStringList.isStringInStringList_of_live hlength hpointer (fun _ hp => h.live hp), h.contents_eq]

theorem freeStringList (h : Stands heap l s) :
    ∃ heap', LoaderStringList.freeStringList heap l = some (heap', .zero) ∧ Stands heap' .zero .zero := by
  have hlive : ∀ p ∈ l.entries, p ≠ 0 → (heap.get p).isSome := fun _ hp _ => h.live hp
  obtain ⟨heap', hfree, -⟩ := Heap.freeAll_of_get (h.nodup_entries.filter fun p => decide (p ≠ 0)) hlive
  unfold LoaderStringList.freeStringList
  cases h with
  | null allocatedCount => exact ⟨heap, rfl, .null 0⟩
  | @block slots strings hfits hbound hentries hnodup =>
    refine ⟨heap', ?_, .null 0⟩
    dsimp only
    rw [if_pos hfits]
    exact congrArg (Option.map fun heap => (heap, LoaderStringList.zero)) hfree

end Stands

/-! ### Operations and runs -/

namespace StringListOp

open StringListState

/-- The operation on the strings, with what its requests meet. -/
def performStrings (s : StringList) : StringListOp → Option (VkResult × StringList)
  | create allocatedCount r => some (createStringList r.ok allocatedCount.toNat)
  | append _ text r => appendStrToStringList r.ok s text
  | prepend _ text r => prependStrToStringList r.ok s text
  | appendIfUnique _ text r => appendStrIfUnique r.ok s text
  | copy copyAt text strLen r => copyStrToStringList ⟨copyAt.isSome, r.ok⟩ s (LoaderStringList.strncpy text strLen)
  | copyIfUnique copyAt text strLen r =>
    if text ∈ s.strings then some (.success, s)
    else copyStrToStringList ⟨copyAt.isSome, r.ok⟩ s (LoaderStringList.strncpy text strLen)
  | copyToStart copyAt text strLen r =>
    copyStrToStartOfStringList ⟨copyAt.isSome, r.ok⟩ s (LoaderStringList.strncpy text strLen)
  | free => some (.success, .zero)

/-- The counts stay within 32 bits, and a list is made again only where it was freed, if it is refused. -/
def Counts (st : StringListState) (op : StringListOp) : Prop :=
  st.l.CanDouble ∧ ∀ r ∈ op.creates, r.ok = false → st.l.allocatedCount = 0

instance (st : StringListState) (op : StringListOp) : Decidable (op.Counts st) := inferInstanceAs (Decidable (_ ∧ _))

variable {pAllocator : Option VkAllocationCallbacks} {st : StringListState} {s : StringList} {op : StringListOp}

/-- The array of a state stands for the strings. -/
def Mirrors (st : StringListState) (s : StringList) : Prop := Stands st.heap st.l s

theorem rel_of_alike {o : Option (VkResult × Heap String × LoaderStringList)} {o' : Option (VkResult × StringList)}
    (h : Stands.Alike o o') (others : List ℕ) :
    Option.Rel (fun r r' => r.1 = r'.1 ∧ Mirrors r.2 r'.2)
      (o.map fun r => (r.1, (⟨r.2.1, r.2.2, others⟩ : StringListState))) o' := by
  cases h with
  | none => exact .none
  | some h => exact .some h

/-- **An operation on the array does to the strings what it does without a heap**, with the same result, and is undefined
where that is. -/
theorem perform_mirrors (h : Mirrors st s) (hop : op.Counts st) :
    Option.Rel (fun r r' => r.1 = r'.1 ∧ Mirrors r.2 r'.2) (op.perform pAllocator st) (op.performStrings s) := by
  have hsame : ∀ res, Stands.Alike (some (res, st.heap, st.l)) (some (res, s)) := fun res => .some ⟨rfl, h⟩
  have hcopies : ∀ (copyAt : Option ℕ) (text : String) (strLen : ℕ) (r : Request ℕ),
      Stands.Alike (LoaderStringList.copyStrToStringList pAllocator copyAt r st.heap st.l text strLen)
        (copyStrToStringList ⟨copyAt.isSome, r.ok⟩ s (LoaderStringList.strncpy text strLen)) := by
    intro copyAt text strLen r
    rcases copyAt with _ | wish
    · exact hsame _
    · exact h.appendStr pAllocator hop.1 wish _ r
  cases op with
  | create allocatedCount r =>
    obtain ⟨hres, hstands⟩ := h.createStringList (fun hr => hop.2 _ rfl hr) allocatedCount
    exact .some ⟨hres, hstands⟩
  | append wish text r => exact rel_of_alike (h.appendStr pAllocator hop.1 wish text r) st.others
  | prepend wish text r => exact rel_of_alike (h.prependStr pAllocator hop.1 wish text r) st.others
  | appendIfUnique wish text r =>
    refine rel_of_alike ?_ st.others
    simp only [LoaderStringList.appendStrToStringListIfUnique, performStrings, appendStrIfUnique]
    rw [(h.alloc wish text).isStringInStringList, Option.bind_some]
    by_cases hfound : text ∈ s.strings
    · obtain ⟨heap', hfree, hstands⟩ := (h.alloc wish text).free (Heap.alloc_get_self _ _ _) (h.place_not_mem wish)
      rw [if_pos (decide_eq_true hfound), if_pos hfound, hfree]
      exact .some ⟨rfl, hstands⟩
    · rw [if_neg (by simpa using hfound), if_neg hfound]
      exact h.appendStr pAllocator hop.1 wish text r
  | copy copyAt text strLen r => exact rel_of_alike (hcopies copyAt text strLen r) st.others
  | copyIfUnique copyAt text strLen r =>
    refine rel_of_alike ?_ st.others
    simp only [LoaderStringList.copyStrToStringListIfUnique, performStrings]
    rw [h.isStringInStringList, Option.bind_some]
    by_cases hfound : text ∈ s.strings
    · rw [if_pos (decide_eq_true hfound), if_pos hfound]
      exact hsame _
    · rw [if_neg (by simpa using hfound), if_neg hfound]
      exact hcopies copyAt text strLen r
  | copyToStart copyAt text strLen r =>
    refine rel_of_alike ?_ st.others
    rcases copyAt with _ | wish
    · exact hsame _
    · exact h.prependStr pAllocator hop.1 wish _ r
  | free =>
    obtain ⟨heap', hfree, hstands⟩ := h.freeStringList
    unfold perform
    rw [hfree]
    exact .some ⟨rfl, hstands⟩

end StringListOp

/-- An operation on the strings, from what the ones before it have left. -/
def stringsStep (o : Option StringList) (op : StringListOp) : Option StringList :=
  o.bind fun s => (op.performStrings s).map Prod.snd

/-- **A run of operations on the array** is one on the strings, as long as the counts stay within 32 bits: it comes to
strings that the array stands for, or is undefined with it. -/
theorem run_mirrors (pAllocator : Option VkAllocationCallbacks) (ops : List StringListOp)
    (hops : AllSteps (stringListStep pAllocator) (fun o op => ∀ st ∈ o, op.Counts st) (some .init) ops) :
    Option.Rel StringListOp.Mirrors (run (stringListStep pAllocator) (some .init) ops) (run stringsStep (some .zero) ops) := by
  refine run_simulates (stringListStep pAllocator) (fun o o' op h hop => ?_) (.some (.null 0)) hops
  cases h with
  | none => exact .none
  | @some st s h =>
    have hstep := @StringListOp.perform_mirrors pAllocator st s op h (hop st rfl)
    unfold stringListStep stringsStep
    rw [Option.bind_some, Option.bind_some]
    generalize op.perform pAllocator st = o at hstep
    generalize op.performStrings s = o' at hstep
    cases hstep with
    | none => exact .none
    | some h => exact .some h.2

/-- The second string would go through the null pointer that the refusal of the first array left. -/
example : run stringsStep (some .zero) [.append 0 "a" .fails, .append 0 "b" (.grants fun _ => 0)] = none := rfl

end VulkanLoader
