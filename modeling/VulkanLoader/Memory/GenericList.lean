import VulkanLoader.Memory.Allocation

/-!
# Generic lists and the tables they hold (`loader.c`)

`struct loader_generic_list` is a pointer and a capacity in bytes; the capacity is the size of the block, so a list is
modelled by its block, and `none` where the pointer is `NULL`.  `loader_init_generic_list` and
`loader_resize_generic_list` are the only functions that make such a block.

The second half grows the loader's tables byte by byte and compares what they read with the growth through `realloc`.
-/

namespace VulkanLoader

section GenericList

variable {α : Type*} [Zero α]

/-- `loader_init_generic_list`: room for 32 elements. -/
def loaderInitGenericList (elementSize : ℕ) (r : Request α) : Option (List α) :=
  loaderCalloc (32 * elementSize) r

/-- `loader_resize_generic_list`: the capacity doubles. -/
def loaderResizeGenericList (pAllocator : Option VkAllocationCallbacks) (list : List α) (r : Request α) :
    Option (List α) :=
  loaderRealloc pAllocator (some list) list.length (list.length * 2) r

/-- `memset(&block[start], 0, count)`. -/
def memsetZero (block : List α) (start count : ℕ) : List α :=
  block.take start ++ List.replicate count 0 ++ block.drop (start + count)

/-- The end of `loader_get_next_available_entry` up to the `memset`: the list is resized and its back half cleared. -/
def growUsedObjectList (pAllocator : Option VkAllocationCallbacks) (elementSize : ℕ) (list : List α)
    (r : Request α) : Option (List α) :=
  match loaderResizeGenericList pAllocator list r with
  | none => none
  | some newList => some (memsetZero newList (list.length / elementSize * elementSize) list.length)

theorem loaderInitGenericList_eq_some {elementSize : ℕ} {r : Request α} {l : List α}
    (h : loaderInitGenericList elementSize r = some l) : l = List.replicate (32 * elementSize) 0 := by
  cases r with
  | fails => simp [loaderInitGenericList, loaderCalloc] at h
  | grants fill => simpa [loaderInitGenericList, loaderCalloc] using h.symm

theorem loaderResizeGenericList_fails (pAllocator : Option VkAllocationCallbacks) (list : List α) :
    loaderResizeGenericList pAllocator list .fails = none := loaderRealloc_fails _ _ _

/-- The block a resize returns: the old cells, then either zeros or what `pfnReallocation` left. -/
theorem loaderResizeGenericList_grants {pAllocator : Option VkAllocationCallbacks} {list : List α}
    (hlist : list ≠ []) (fill : ℕ → α) :
    loaderResizeGenericList pAllocator list (.grants fill) =
      some (list ++ if hasReallocation pAllocator then openCells fill list.length (list.length * 2)
        else List.replicate list.length 0) := by
  have hpos : 0 < list.length := List.length_pos_iff.2 hlist
  unfold loaderResizeGenericList
  rw [loaderRealloc_grants hlist (by omega)]
  have htake : list.take (list.length * 2) = list := List.take_of_length_le (by omega)
  have hsub : list.length * 2 - list.length = list.length := by omega
  by_cases hr : hasReallocation pAllocator
  · simp only [hr, if_true, htake]
  · simp [hr, grown, htake, hsub]

/-- What a successful resize keeps: the old cells, and twice the capacity. -/
theorem loaderResizeGenericList_eq_some {pAllocator : Option VkAllocationCallbacks} {list l : List α} {r : Request α}
    (hlist : list ≠ []) (h : loaderResizeGenericList pAllocator list r = some l) :
    ∃ added : List α, l = list ++ added ∧ added.length = list.length := by
  cases r with
  | fails => rw [loaderResizeGenericList_fails] at h; cases h
  | grants fill =>
    rw [loaderResizeGenericList_grants hlist] at h
    obtain rfl := Option.some.inj h
    refine ⟨_, rfl, ?_⟩
    split_ifs
    · rw [length_openCells]; omega
    · simp

/-- A used-object list reads the old entries and then zeros, whatever the allocator left in the added bytes. -/
theorem growUsedObjectList_grants {pAllocator : Option VkAllocationCallbacks} {elementSize : ℕ} {list : List α}
    (hlist : list ≠ []) (hdvd : elementSize ∣ list.length) (fill : ℕ → α) :
    growUsedObjectList pAllocator elementSize list (.grants fill) =
      some (list ++ List.replicate list.length 0) := by
  unfold growUsedObjectList
  rcases h : loaderResizeGenericList pAllocator list (.grants fill) with _ | new
  · rw [loaderResizeGenericList_grants hlist] at h
    cases h
  obtain ⟨added, rfl, hlen⟩ := loaderResizeGenericList_eq_some hlist h
  simp only [Option.some.injEq]
  rw [Nat.div_mul_cancel hdvd]
  simp [memsetZero, hlen]

theorem growUsedObjectList_fails (pAllocator : Option VkAllocationCallbacks) (elementSize : ℕ) (list : List α) :
    growUsedObjectList pAllocator elementSize list .fails = none := by
  rw [growUsedObjectList, loaderResizeGenericList_fails]

end GenericList

/-! ### The tables, byte by byte -/

/-- The tables that grow through `loader_realloc` and whose entries are tested before they are written. -/
inductive Table where
  /-- `surfaces_list` and `debug_utils_messengers_list` of the instance (`loader_get_next_available_entry`). -/
  | usedObjects
  /-- `surface_list` of a driver (`allocate_icd_surface_struct`). -/
  | surfaces
  /-- `debug_utils_messenger_list` of a driver (`terminator_CreateDebugUtilsMessengerEXT`). -/
  | debugUtilsMessengers
  /-- `device_extension_list` of a layer (`loader_add_to_dev_ext_list`), whose `entrypoints` may stay unwritten. -/
  | deviceExtensions
  deriving DecidableEq

/-- How the table of a kind grows at its call site. -/
def Table.grow (table : Table) (pAllocator : Option VkAllocationCallbacks) (elementSize : ℕ) (list : List UInt8)
    (r : Request UInt8) : Option (List UInt8) :=
  match table with
  | .usedObjects => growUsedObjectList pAllocator elementSize list r
  | .surfaces => loaderResizeGenericList pAllocator list r
  | .debugUtilsMessengers => loaderResizeGenericList pAllocator list r
  | .deviceExtensions => loaderRealloc pAllocator (some list) list.length (list.length * 2) r

/-- The bytes of a table that has been initialised: a whole number of entries, at least one. -/
structure TableBytes where
  elementSize : ℕ
  bytes : List UInt8
  whole : elementSize ∣ bytes.length
  nonempty : bytes ≠ []

/-- Entry `i` of a table. -/
def entry (elementSize : ℕ) (bytes : List UInt8) (i : ℕ) : List UInt8 := (bytes.drop (i * elementSize)).take elementSize

namespace TableBytes

variable (b : TableBytes)

/-- The number of entries the table has room for. -/
def capacity : ℕ := b.bytes.length / b.elementSize

theorem elementSize_pos : 0 < b.elementSize := by
  rcases Nat.eq_zero_or_pos b.elementSize with h | h
  · have h0 := b.whole
    rw [h, Nat.zero_dvd] at h0
    exact absurd (List.length_eq_zero_iff.1 h0) b.nonempty
  · exact h

theorem length_eq : b.bytes.length = b.capacity * b.elementSize := (Nat.div_mul_cancel b.whole).symm

end TableBytes

/-- The table grown with `pAllocator` reads, entry for entry, as the one grown with the loader's own allocator: the old
entries, then entries that are zero. -/
def GrowsAlike (table : Table) (pAllocator : Option VkAllocationCallbacks) (b : TableBytes)
    (fill defaultFill : ℕ → UInt8) : Prop :=
  ∃ new default, table.grow pAllocator b.elementSize b.bytes (.grants fill) = some new ∧
    table.grow none b.elementSize b.bytes (.grants defaultFill) = some default ∧
    (∀ i, entry b.elementSize new i = entry b.elementSize default i) ∧
    (∀ i < b.capacity, entry b.elementSize new i = entry b.elementSize b.bytes i) ∧
    ∀ i, b.capacity ≤ i → i < b.capacity * 2 → entry b.elementSize new i = List.replicate b.elementSize 0

theorem entry_append_left {elementSize i n : ℕ} {old added : List UInt8} (hold : old.length = n * elementSize)
    (hi : i < n) : entry elementSize (old ++ added) i = entry elementSize old i := by
  have h : (i + 1) * elementSize ≤ old.length := by rw [hold]; exact Nat.mul_le_mul_right _ hi
  rw [Nat.succ_mul] at h
  unfold entry
  rw [List.drop_append_of_le_length (by omega), List.take_append_of_le_length (by simp; omega)]

theorem entry_append_zeros {elementSize i n : ℕ} {old : List UInt8} (hold : old.length = n * elementSize)
    (hn : n ≤ i) (hi : i < n * 2) :
    entry elementSize (old ++ List.replicate old.length 0) i = List.replicate elementSize 0 := by
  have h1 : old.length ≤ i * elementSize := by rw [hold]; exact Nat.mul_le_mul_right _ hn
  have h2 : (i + 1) * elementSize ≤ old.length + old.length := by
    rw [hold, ← Nat.add_mul, ← Nat.mul_two]; exact Nat.mul_le_mul_right _ hi
  rw [Nat.succ_mul] at h2
  unfold entry
  rw [List.drop_append, List.drop_of_length_le h1, List.nil_append, List.drop_replicate, List.take_replicate]
  congr 1
  omega

/-- A block is determined by its entries. -/
theorem eq_of_entries {elementSize n : ℕ} {x y : List UInt8} (hpos : 0 < elementSize)
    (hx : x.length = n * elementSize) (hy : y.length = n * elementSize)
    (h : ∀ i < n, entry elementSize x i = entry elementSize y i) : x = y := by
  refine List.ext_getElem? fun k => ?_
  by_cases hk : k < n * elementSize
  · have hi : k / elementSize < n := (Nat.div_lt_iff_lt_mul hpos).2 hk
    have hmod : k % elementSize < elementSize := Nat.mod_lt _ hpos
    have hget : ∀ z : List UInt8, (entry elementSize z (k / elementSize))[k % elementSize]? = z[k]? := fun z => by
      unfold entry
      rw [List.getElem?_take_of_lt hmod, List.getElem?_drop, Nat.mul_comm, Nat.div_add_mod]
    rw [← hget x, h _ hi, hget y]
  · rw [List.getElem?_eq_none (by omega), List.getElem?_eq_none (by omega)]

/-- What a table that is not cleared at its call site grows to. -/
theorem Table.grow_of_ne_usedObjects {table : Table} (h : table ≠ .usedObjects)
    (pAllocator : Option VkAllocationCallbacks) (elementSize : ℕ) (list : List UInt8) (r : Request UInt8) :
    table.grow pAllocator elementSize list r = loaderResizeGenericList pAllocator list r := by
  cases table <;> first | rfl | exact absurd rfl h

theorem Table.grow_default (table : Table) (b : TableBytes) (fill : ℕ → UInt8) :
    table.grow none b.elementSize b.bytes (.grants fill) =
      some (b.bytes ++ List.replicate b.bytes.length 0) := by
  by_cases ht : table = .usedObjects
  · subst ht
    exact growUsedObjectList_grants b.nonempty b.whole fill
  · rw [Table.grow_of_ne_usedObjects ht, loaderResizeGenericList_grants b.nonempty]
    rfl

/-- A growth whose result is the old table and zeros reads as the default growth. -/
theorem growsAlike_of_grow_eq {table : Table} {pAllocator : Option VkAllocationCallbacks} {b : TableBytes}
    {fill defaultFill : ℕ → UInt8}
    (h : table.grow pAllocator b.elementSize b.bytes (.grants fill) =
      some (b.bytes ++ List.replicate b.bytes.length 0)) : GrowsAlike table pAllocator b fill defaultFill :=
  ⟨_, _, h, table.grow_default b defaultFill, fun _ => rfl, fun _ hi => entry_append_left b.length_eq hi,
    fun _ hn hi => entry_append_zeros b.length_eq hn hi⟩

/-- The added bytes of a table that is not cleared at its call site are what the allocator left there. -/
theorem growsAlike_iff_of_ne_usedObjects {table : Table} (ht : table ≠ .usedObjects)
    (pAllocator : Option VkAllocationCallbacks) (b : TableBytes) (fill defaultFill : ℕ → UInt8) :
    GrowsAlike table pAllocator b fill defaultFill ↔ hasReallocation pAllocator = false ∨
      ∀ k, b.bytes.length ≤ k → k < b.bytes.length * 2 → fill k = 0 := by
  have hsub : b.bytes.length * 2 - b.bytes.length = b.bytes.length := by omega
  have hgrow : table.grow pAllocator b.elementSize b.bytes (.grants fill) = some (b.bytes ++
      if hasReallocation pAllocator then openCells fill b.bytes.length (b.bytes.length * 2)
      else List.replicate b.bytes.length 0) := by
    rw [Table.grow_of_ne_usedObjects ht, loaderResizeGenericList_grants b.nonempty]
  constructor
  · rintro ⟨new, default, hnew, hdef, hsame, -, -⟩
    by_cases hr : hasReallocation pAllocator
    · right
      rw [hgrow] at hnew
      rw [table.grow_default] at hdef
      obtain rfl := Option.some.inj hnew
      obtain rfl := Option.some.inj hdef
      simp only [hr, if_true] at hsame
      have hall := eq_of_entries (n := b.capacity * 2) b.elementSize_pos
        (by simp only [List.length_append, length_openCells, hsub]; rw [b.length_eq, Nat.mul_right_comm]; omega)
        (by simp only [List.length_append, List.length_replicate]; rw [b.length_eq, Nat.mul_right_comm]; omega)
        (fun i _ => hsame i)
      rw [List.append_cancel_left_eq] at hall
      rw [← openCells_eq_replicate_iff, hall, hsub]
    · exact Or.inl (by simpa using hr)
  · intro h
    refine growsAlike_of_grow_eq ?_
    rw [hgrow]
    rcases h with hr | hz
    · simp [hr]
    · have := openCells_eq_replicate_iff.2 hz
      rw [this, hsub, ite_self]

theorem growsAlike_usedObjects (pAllocator : Option VkAllocationCallbacks) (b : TableBytes)
    (fill defaultFill : ℕ → UInt8) : GrowsAlike .usedObjects pAllocator b fill defaultFill :=
  growsAlike_of_grow_eq (growUsedObjectList_grants b.nonempty b.whole fill)

/-- **When a table reads the same under both allocators.**  Growing an initialised table with application callbacks
gives the contents of the default allocator exactly when the call site clears the added entries itself, the callbacks
have no `pfnReallocation`, or the bytes it added happen to be zero.  The second part says the same of `loader_realloc`
itself and every size. -/
theorem growsAlike_iff (pAllocator : Option VkAllocationCallbacks) (b : TableBytes) (fill defaultFill : ℕ → UInt8) :
    (∀ table, GrowsAlike table pAllocator b fill defaultFill ↔ table = .usedObjects ∨
      hasReallocation pAllocator = false ∨ ∀ k, b.bytes.length ≤ k → k < b.bytes.length * 2 → fill k = 0) ∧
    ∀ size, loaderRealloc pAllocator (some b.bytes) b.bytes.length size (.grants fill) =
        loaderRealloc none (some b.bytes) b.bytes.length size (.grants defaultFill) ↔
      hasReallocation pAllocator = false ∨ ∀ k, b.bytes.length ≤ k → k < size → fill k = 0 := by
  refine ⟨fun table => ?_, fun size => ?_⟩
  · by_cases ht : table = .usedObjects
    · subst ht
      exact iff_of_true (growsAlike_usedObjects pAllocator b fill defaultFill) (Or.inl rfl)
    · rw [growsAlike_iff_of_ne_usedObjects ht]
      simp [ht]
  · by_cases hsize : size = 0
    · subst hsize
      have h0 : b.bytes.length ≠ 0 := by simpa using b.nonempty
      refine iff_of_true ?_ (Or.inr fun k _ hk => absurd hk (Nat.not_lt_zero k))
      simp [loaderRealloc, h0]
    · have hdef : loaderRealloc none (some b.bytes) b.bytes.length size (.grants defaultFill) =
          some (grown b.bytes size) := by
        rw [loaderRealloc_grants b.nonempty hsize]
        rfl
      rw [hdef]
      exact loaderRealloc_eq_grown_iff b.nonempty hsize

/-- A driver's surface list when it is full: 32 handles of 8 bytes. -/
def fullSurfaceList : TableBytes where
  elementSize := 8
  bytes := List.replicate 256 0
  whole := by rw [List.length_replicate]; decide
  nonempty := by decide

/-- Callbacks as an application supplies them: all functions given. -/
def applicationCallbacks : VkAllocationCallbacks :=
  { pUserData := 1, pfnAllocation := true, pfnReallocation := true, pfnFree := true }

/-- A surface list grown through callbacks that leave `0xAA` in the bytes they add does not read as zeros. -/
theorem not_growsAlike_surfaces :
    ¬ ∀ (table : Table) (pAllocator : Option VkAllocationCallbacks) (b : TableBytes) (fill defaultFill : ℕ → UInt8),
      GrowsAlike table pAllocator b fill defaultFill := by
  intro h
  have h1 := h .surfaces (some applicationCallbacks) fullSurfaceList (fun _ => 0xAA) (fun _ => 0)
  rcases (growsAlike_iff_of_ne_usedObjects (by decide) _ _ _ _).1 h1 with hr | hz
  · exact absurd hr (by decide)
  · have hlen : fullSurfaceList.bytes.length = 256 := List.length_replicate
    exact absurd (hz 256 (by omega) (by omega)) (by decide)

end VulkanLoader
