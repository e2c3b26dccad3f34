import VulkanLoader.Instance.Extensions
import VulkanLoader.Lib.ByteMemory
import VulkanLoader.Lib.Sweep
import VulkanLoader.Memory.GenericList

/-!
# Lists of extensions in memory

`loader_extension_list` gives its capacity in bytes and its count in extensions.  `loader_add_to_ext_list` compares
names in the block and copies to its end; here every read and every write of the block is checked, and `none` is one
that is out of bounds, or the name of an extension that does not end.  The last section compares such a list with the
list of extensions that the other parts of the loader are modelled with.
-/

namespace VulkanLoader

open VulkanLoader.Lib

/-- `sizeof(VkExtensionProperties)`: a name and a version of four bytes. -/
def sizeofExtensionProperties : ℕ := vkMaxExtensionNameSize + 4

/-- What a string function reads of bytes. -/
def stringBytes (bytes : List UInt8) : List UInt8 := bytes.takeWhile (· ≠ 0)

/-- The bytes of a `VkExtensionProperties`, the name of which ends within its array. -/
structure ExtensionBytes where
  bytes : List UInt8
  size : bytes.length = sizeofExtensionProperties
  ends : 0 ∈ bytes.take vkMaxExtensionNameSize

/-- The name of an extension. -/
def ExtensionBytes.name (e : ExtensionBytes) : List UInt8 := stringBytes e.bytes

/-- `struct loader_extension_list`, with the block that `list` points to, if it does. -/
structure ExtensionArray where
  capacity : ℕ
  count : ℕ
  list : Option (List UInt8)

namespace ExtensionArray

/-- A list of zeros. -/
def zero : ExtensionArray := ⟨0, 0, none⟩

/-- The name in an entry of the block. -/
def nameAt (block : List UInt8) (i : ℕ) : Option (List UInt8) :=
  let bytes := entry sizeofExtensionProperties block i
  if (i + 1) * sizeofExtensionProperties ≤ block.length ∧ 0 ∈ bytes.take vkMaxExtensionNameSize then
    some (stringBytes bytes)
  else none

/-- `memcpy` to an entry of the block. -/
def copyTo (block : List UInt8) (i : ℕ) (bytes : List UInt8) : Option (List UInt8) :=
  if (i + 1) * sizeofExtensionProperties ≤ block.length then
    some (block.take (i * sizeofExtensionProperties) ++ bytes ++ block.drop ((i + 1) * sizeofExtensionProperties))
  else none

/-- `has_vk_extension_property`, from the entry `i` on; the next `n` entries are left. -/
def hasVkExtensionPropertyFrom (name block : List UInt8) : ℕ → ℕ → Option Bool
  | _, 0 => some false
  | i, n + 1 =>
    (nameAt block i).bind fun other =>
      if other = name then some true else hasVkExtensionPropertyFrom name block (i + 1) n

/-- The block for one more extension, and its size. -/
def makeRoom (callbacks : Option VkAllocationCallbacks) (requests : ℕ → Request UInt8) (extList : ExtensionArray)
    (block : List UInt8) : Option (List UInt8 × ℕ) :=
  if extList.count * sizeofExtensionProperties ≥ extList.capacity then
    (loaderRealloc callbacks (some block) extList.capacity (extList.capacity * 2) (requests extList.capacity)).map
      fun newPtr => (newPtr, extList.capacity * 2)
  else some (block, extList.capacity)

/-- The body of the loop of `loader_add_to_ext_list`; `requests` is what a request meets that is made at a capacity. -/
def addExtension (callbacks : Option VkAllocationCallbacks) (requests : ℕ → Request UInt8) (extList : ExtensionArray)
    (curExt : ExtensionBytes) : Option (VkResult × ExtensionArray) :=
  extList.list.bind fun block =>
    (hasVkExtensionPropertyFrom curExt.name block 0 extList.count).bind fun found =>
      if found then some (.success, extList)
      else
        match makeRoom callbacks requests extList block with
        | none => some (.errorOutOfHostMemory, extList)
        | some (block, capacity) =>
          (copyTo block extList.count curExt.bytes).map fun block =>
            (.success, ⟨capacity, extList.count + 1, some block⟩)

/-- The loop of `loader_add_to_ext_list`. -/
def addExtensions (callbacks : Option VkAllocationCallbacks) (requests : ℕ → Request UInt8) :
    List ExtensionBytes → ExtensionArray → Option (VkResult × ExtensionArray)
  | [], extList => some (.success, extList)
  | curExt :: props, extList =>
    (addExtension callbacks requests extList curExt).bind fun r =>
      if r.1 ≠ .success then some r else addExtensions callbacks requests props r.2

/-- `loader_add_to_ext_list`. -/
def loaderAddToExtList (callbacks : Option VkAllocationCallbacks) (requests : ℕ → Request UInt8)
    (extList : ExtensionArray) (props : List ExtensionBytes) : Option (VkResult × ExtensionArray) :=
  if extList.list.isNone ∨ extList.capacity = 0 then
    match loaderInitGenericList sizeofExtensionProperties (requests 0) with
    | none => some (.errorOutOfHostMemory, zero)
    | some block => addExtensions callbacks requests props ⟨32 * sizeofExtensionProperties, 0, some block⟩
  else addExtensions callbacks requests props extList

/-! ### What a list holds -/

/-- **The list holds the extensions**: they are in its block one after the other, within the capacity, which is the size
of the block and a whole number of entries; their names are distinct. -/
structure Holds (l : ExtensionArray) (exts : List ExtensionBytes) : Prop where
  count : l.count = exts.length
  distinct : (exts.map ExtensionBytes.name).Nodup
  fits : l.count * sizeofExtensionProperties ≤ l.capacity
  whole : sizeofExtensionProperties ∣ l.capacity
  block : (l.list = none ∧ l.capacity = 0) ∨
    ∃ rest, l.list = some (exts.flatMap ExtensionBytes.bytes ++ rest) ∧
      (exts.flatMap ExtensionBytes.bytes ++ rest).length = l.capacity ∧ 0 < l.capacity

section Blocks

variable {callbacks : Option VkAllocationCallbacks} {requests : ℕ → Request UInt8} {l l' : ExtensionArray}
  {exts : List ExtensionBytes} {e : ExtensionBytes} {rest name : List UInt8} {i n : ℕ}

theorem sizeof_pos : 0 < sizeofExtensionProperties := by decide

theorem holds_zero : zero.Holds [] :=
  ⟨rfl, List.nodup_nil, Nat.zero_le _, Nat.dvd_zero _, .inl ⟨rfl, rfl⟩⟩

theorem length_flatMap_bytes (exts : List ExtensionBytes) :
    (exts.flatMap ExtensionBytes.bytes).length = exts.length * sizeofExtensionProperties := by
  induction exts with
  | nil => rw [List.flatMap_nil, List.length_nil, List.length_nil, Nat.zero_mul]
  | cons e exts ih =>
    rw [List.flatMap_cons, List.length_append, ih, e.size, List.length_cons, Nat.succ_mul, Nat.add_comm]

/-- The entries of the block are the extensions. -/
theorem entry_flatMap (he : exts[i]? = some e) (rest : List UInt8) :
    entry sizeofExtensionProperties (exts.flatMap ExtensionBytes.bytes ++ rest) i = e.bytes := by
  unfold entry
  induction exts generalizing i with
  | nil => cases he
  | cons a exts ih =>
    rw [List.flatMap_cons, List.append_assoc]
    rcases i with _ | i
    · obtain rfl := Option.some.inj he
      rw [Nat.zero_mul, List.drop_zero]
      exact List.take_left' a.size
    · rw [Nat.succ_mul, Nat.add_comm, ← List.drop_drop, List.drop_left' a.size]
      exact ih he

theorem nameAt_flatMap (he : exts[i]? = some e) (rest : List UInt8) :
    nameAt (exts.flatMap ExtensionBytes.bytes ++ rest) i = some e.name := by
  have hi : i < exts.length := (List.getElem?_eq_some_iff.1 he).1
  have hbound : (i + 1) * sizeofExtensionProperties ≤ exts.length * sizeofExtensionProperties :=
    Nat.mul_le_mul_right _ hi
  unfold nameAt
  dsimp only
  have hlen : (i + 1) * sizeofExtensionProperties ≤ (exts.flatMap ExtensionBytes.bytes ++ rest).length := by
    rw [List.length_append, length_flatMap_bytes]
    omega
  rw [entry_flatMap he, if_pos ⟨hlen, e.ends⟩]
  rfl

/-- **The search for a name** reads the extensions only. -/
theorem hasVkExtensionPropertyFrom_flatMap (h : i + n = exts.length) (name rest : List UInt8) :
    hasVkExtensionPropertyFrom name (exts.flatMap ExtensionBytes.bytes ++ rest) i n =
      some (decide (name ∈ (exts.drop i).map ExtensionBytes.name)) := by
  induction n generalizing i with
  | zero =>
    rw [Nat.add_zero] at h
    rw [hasVkExtensionPropertyFrom, List.drop_of_length_le h.ge]
    rfl
  | succ n ih =>
    have hi : i < exts.length := by omega
    rw [hasVkExtensionPropertyFrom, nameAt_flatMap (List.getElem?_eq_getElem hi), Option.bind_some,
      List.drop_eq_getElem_cons hi, List.map_cons, ih (by omega)]
    split_ifs with heq
    · simp [heq]
    · simp [Ne.symm heq]

/-- Copying to the place after the extensions puts one more behind them. -/
theorem copyTo_flatMap (hroom : (exts.length + 1) * sizeofExtensionProperties ≤
      (exts.flatMap ExtensionBytes.bytes ++ rest).length) (e : ExtensionBytes) :
    copyTo (exts.flatMap ExtensionBytes.bytes ++ rest) exts.length e.bytes =
      some ((exts ++ [e]).flatMap ExtensionBytes.bytes ++ rest.drop sizeofExtensionProperties) := by
  have hlen := length_flatMap_bytes exts
  unfold copyTo
  rw [if_pos hroom, List.take_left' hlen, Nat.succ_mul, ← List.drop_drop, List.drop_left' hlen, List.flatMap_append,
    List.flatMap_singleton]

end Blocks

/-! ### One extension -/

/-- The capacity that a list has with room for one more extension; more room is requested for a full one. -/
inductive RoomFor (requests : ℕ → Request UInt8) (l : ExtensionArray) : ℕ → Prop where
  | left : l.count * sizeofExtensionProperties < l.capacity → RoomFor requests l l.capacity
  | doubled : l.count * sizeofExtensionProperties = l.capacity → (requests l.capacity).ok = true →
      RoomFor requests l (l.capacity * 2)

/-- The list is full, and the request for more room is refused. -/
def NoRoom (requests : ℕ → Request UInt8) (l : ExtensionArray) : Prop :=
  l.count * sizeofExtensionProperties = l.capacity ∧ (requests l.capacity).ok = false

section Elements

variable {callbacks : Option VkAllocationCallbacks} {requests : ℕ → Request UInt8} {l l' : ExtensionArray}
  {exts : List ExtensionBytes} {e : ExtensionBytes} {block : List UInt8} {capacity : ℕ}

/-- The block of a list that has one. -/
theorem Holds.eq_append (h : l.Holds exts) (hlist : l.list = some block) :
    ∃ rest, block = exts.flatMap ExtensionBytes.bytes ++ rest ∧ block.length = l.capacity ∧ 0 < l.capacity := by
  rcases h.block with ⟨hnone, -⟩ | ⟨rest, hblock, hlen, hpos⟩
  · rw [hnone] at hlist
    cases hlist
  · obtain rfl := Option.some.inj (hblock.symm.trans hlist)
    exact ⟨rest, rfl, hlen, hpos⟩

/-- A list without a block is empty. -/
theorem Holds.eq_nil (h : l.Holds exts) (hcapacity : l.capacity = 0) : exts = [] := by
  have hfits := h.fits
  rw [hcapacity, h.count, Nat.le_zero, Nat.mul_eq_zero] at hfits
  exact List.length_eq_zero_iff.1 (hfits.resolve_right sizeof_pos.ne')

theorem RoomFor.pos (hroom : RoomFor requests l capacity) (hpos : 0 < l.capacity) : 0 < capacity := by
  cases hroom with
  | left => exact hpos
  | doubled => omega

/-- One more entry fits, as the entries of a block are whole and it has at least one. -/
theorem RoomFor.fits (hroom : RoomFor requests l capacity) (h : l.Holds exts) (hpos : 0 < l.capacity) :
    (l.count + 1) * sizeofExtensionProperties ≤ capacity ∧ sizeofExtensionProperties ∣ capacity := by
  obtain ⟨k, hk⟩ := h.whole
  rw [Nat.mul_comm] at hk
  cases hroom with
  | left hleft =>
    refine ⟨?_, h.whole⟩
    rw [hk] at hleft ⊢
    exact Nat.mul_le_mul_right _ (Nat.lt_of_mul_lt_mul_right hleft)
  | doubled hfull hok =>
    refine ⟨?_, h.whole.mul_right 2⟩
    have hone : 1 * sizeofExtensionProperties ≤ l.count * sizeofExtensionProperties := by
      refine Nat.mul_le_mul_right _ (Nat.pos_of_ne_zero fun hzero => ?_)
      rw [hzero, Nat.zero_mul] at hfull
      omega
    rw [Nat.add_mul]
    omega

/-- Room for one more extension is there, or is made by doubling the block, or the request is refused. -/
theorem makeRoom_cases (h : l.Holds exts) (hlist : l.list = some block) :
    (∃ added capacity, makeRoom callbacks requests l block = some (block ++ added, capacity) ∧
        (block ++ added).length = capacity ∧ RoomFor requests l capacity) ∨
      makeRoom callbacks requests l block = none ∧ NoRoom requests l := by
  obtain ⟨-, -, hlen, hpos⟩ := h.eq_append hlist
  unfold makeRoom
  by_cases hfull : l.count * sizeofExtensionProperties ≥ l.capacity
  · rw [if_pos hfull]
    have hcount : l.count * sizeofExtensionProperties = l.capacity := Nat.le_antisymm h.fits hfull
    rcases hrequest : requests l.capacity with _ | fill
    · right
      rw [← hlen, loaderRealloc_fails]
      exact ⟨rfl, hcount, by rw [hrequest]; rfl⟩
    · left
      have hne : block ≠ [] := List.ne_nil_of_length_pos (by omega)
      have hnew := @loaderResizeGenericList_grants _ _ callbacks _ hne fill
      obtain ⟨added, hadded, hlenAdded⟩ := loaderResizeGenericList_eq_some hne hnew
      refine ⟨added, l.capacity * 2, ?_, ?_, .doubled hcount (by rw [hrequest]; rfl)⟩
      · unfold loaderResizeGenericList at hnew
        rw [← hlen, hnew, hadded]
        rfl
      · rw [List.length_append, hlenAdded]
        omega
  · refine .inl ⟨[], l.capacity, ?_, ?_, .left (Nat.lt_of_not_le hfull)⟩
    · rw [if_neg hfull, List.append_nil]
    · rw [List.append_nil, hlen]

/-- The list with one extension more, copied behind the others. -/
theorem Holds.concat (h : l.Holds exts) (hnew : e.name ∉ exts.map ExtensionBytes.name)
    (hfits : (l.count + 1) * sizeofExtensionProperties ≤ capacity) (hwhole : sizeofExtensionProperties ∣ capacity)
    {rest : List UInt8} (hlen : (exts.flatMap ExtensionBytes.bytes ++ rest).length = capacity) :
    (⟨capacity, l.count + 1, some ((exts ++ [e]).flatMap ExtensionBytes.bytes ++ rest.drop sizeofExtensionProperties)⟩ :
      ExtensionArray).Holds (exts ++ [e]) := by
  have hsize : (l.count + 1) * sizeofExtensionProperties = l.count * sizeofExtensionProperties +
      sizeofExtensionProperties := Nat.succ_mul _ _
  have hpos : 0 < capacity := Nat.lt_of_lt_of_le (Nat.mul_pos (Nat.succ_pos _) sizeof_pos) hfits
  rw [List.length_append, length_flatMap_bytes, ← h.count] at hlen
  refine ⟨?_, ?_, hfits, hwhole, .inr ⟨_, rfl, ?_, hpos⟩⟩
  · rw [List.length_append, h.count]
    rfl
  · rw [List.map_append]
    exact h.distinct.append (List.nodup_singleton _) (List.disjoint_singleton.2 hnew)
  · rw [List.length_append, length_flatMap_bytes, List.length_append, List.length_singleton, ← h.count,
      List.length_drop]
    dsimp only
    omega

/-- **Adding one extension**: one whose name is there changes nothing; another one is put behind the others if there is
room for it, and if there is none the list stays as it is. -/
theorem addExtension_cases (h : l.Holds exts) (hpos : 0 < l.capacity) (e : ExtensionBytes) :
    (e.name ∈ exts.map ExtensionBytes.name ∧ addExtension callbacks requests l e = some (.success, l)) ∨
      (e.name ∉ exts.map ExtensionBytes.name ∧ ∃ l', addExtension callbacks requests l e = some (.success, l') ∧
        l'.Holds (exts ++ [e]) ∧ RoomFor requests l l'.capacity) ∨
      (e.name ∉ exts.map ExtensionBytes.name ∧ addExtension callbacks requests l e = some (.errorOutOfHostMemory, l) ∧
        NoRoom requests l) := by
  obtain ⟨block, hlist⟩ : ∃ block, l.list = some block := by
    rcases h.block with ⟨-, hzero⟩ | ⟨rest, hblock, -⟩
    · omega
    · exact ⟨_, hblock⟩
  obtain ⟨rest, rfl, hlen, -⟩ := h.eq_append hlist
  have hsearch : hasVkExtensionPropertyFrom e.name (exts.flatMap ExtensionBytes.bytes ++ rest) 0 l.count =
      some (decide (e.name ∈ exts.map ExtensionBytes.name)) :=
    hasVkExtensionPropertyFrom_flatMap ((Nat.zero_add _).trans h.count) e.name rest
  unfold addExtension
  rw [hlist, Option.bind_some, hsearch, Option.bind_some]
  by_cases hmem : e.name ∈ exts.map ExtensionBytes.name
  · left
    rw [if_pos (decide_eq_true hmem)]
    exact ⟨hmem, rfl⟩
  · right
    rw [if_neg (by simpa using hmem)]
    rcases @makeRoom_cases callbacks requests _ _ _ h hlist with
      ⟨added, capacity, hmake, hlenAdded, hroom⟩ | ⟨hmake, hnone⟩
    · left
      obtain ⟨hfits, hwhole⟩ := hroom.fits h hpos
      rw [List.append_assoc] at hmake hlenAdded
      have hcopy := copyTo_flatMap (by rw [hlenAdded, ← h.count]; exact hfits) e
      refine ⟨hmem, _, ?_, h.concat hmem hfits hwhole hlenAdded, hroom⟩
      rw [hmake, h.count]
      dsimp only
      rw [hcopy]
      rfl
    · right
      rw [hmake]
      exact ⟨hmem, rfl, hnone⟩

end Elements

/-! ### Calls -/

/-- A call of `loader_add_to_ext_list`: its array, and what its requests meet. -/
structure ExtensionCall where
  requests : ℕ → Request UInt8
  props : List ExtensionBytes

/-- What comes of a call: it has gone through its array, or through a part of it up to a request that was refused. -/
inductive Outcome (requests : ℕ → Request UInt8) (props : List ExtensionBytes) :
    VkResult → List ExtensionBytes → Prop where
  | success : Outcome requests props .success props
  | refused {done : List ExtensionBytes} {capacity : ℕ} : done <+: props → (requests capacity).ok = false →
      Outcome requests props .errorOutOfHostMemory done

/-- Calls of `loader_add_to_ext_list` on one list, with their results. -/
def runCalls (callbacks : Option VkAllocationCallbacks) :
    List ExtensionCall → ExtensionArray → Option (List VkResult × ExtensionArray)
  | [], extList => some ([], extList)
  | call :: calls, extList =>
    (loaderAddToExtList callbacks call.requests extList call.props).bind fun r =>
      (runCalls callbacks calls r.2).map fun rs => (r.1 :: rs.1, rs.2)

section Calls

variable {callbacks : Option VkAllocationCallbacks} {requests : ℕ → Request UInt8} {l : ExtensionArray}
  {offered props done : List ExtensionBytes} {e : ExtensionBytes} {res : VkResult}

theorem Outcome.cons (h : Outcome requests props res done) (e : ExtensionBytes) :
    Outcome requests (e :: props) res (e :: done) := by
  cases h with
  | success => exact .success
  | refused hdone hok => exact .refused (List.cons_prefix_cons.2 ⟨rfl, hdone⟩) hok

/-- A list as `loader_init_generic_list` leaves it. -/
theorem holds_initialized : (⟨32 * sizeofExtensionProperties, 0,
    some (List.replicate (32 * sizeofExtensionProperties) 0)⟩ : ExtensionArray).Holds [] :=
  ⟨rfl, List.nodup_nil, Nat.zero_le _, Nat.dvd_mul_left _ _,
    .inr ⟨List.replicate (32 * sizeofExtensionProperties) 0, rfl, List.length_replicate, by decide⟩⟩

/-- **The loop**: one element more makes the list hold one more of the extensions offered, at most. -/
theorem addExtensions_spec (h : l.Holds (firstOccurrences ExtensionBytes.name offered)) (hpos : 0 < l.capacity)
    (props : List ExtensionBytes) :
    ∃ res l' done, addExtensions callbacks requests props l = some (res, l') ∧ Outcome requests props res done ∧
      l'.Holds (firstOccurrences ExtensionBytes.name (offered ++ done)) := by
  induction props generalizing l offered with
  | nil => exact ⟨.success, l, [], rfl, .success, by rwa [List.append_nil]⟩
  | cons e props ih =>
    have hgo : ∀ l₁, addExtension callbacks requests l e = some (.success, l₁) →
        l₁.Holds (firstOccurrences ExtensionBytes.name (offered ++ [e])) → 0 < l₁.capacity →
        ∃ res l' done, addExtensions callbacks requests (e :: props) l = some (res, l') ∧
          Outcome requests (e :: props) res done ∧
          l'.Holds (firstOccurrences ExtensionBytes.name (offered ++ done)) := by
      intro l₁ hadd hholds hpos₁
      obtain ⟨res, l', done, hrun, hout, hdone⟩ := ih hholds hpos₁
      refine ⟨res, l', e :: done, ?_, hout.cons e, by rwa [List.append_cons]⟩
      rw [addExtensions, hadd, Option.bind_some, if_neg (fun hne => hne rfl)]
      exact hrun
    have hmap := @mem_map_firstOccurrences _ _ _ ExtensionBytes.name e.name offered
    have hconcat := @firstOccurrences_concat _ _ _ ExtensionBytes.name offered e
    rcases @addExtension_cases callbacks requests _ _ h hpos e with
      ⟨hmem, hadd⟩ | ⟨hmem, l₁, hadd, hholds, hroom⟩ | ⟨hmem, hadd, -, hok⟩
    · rw [if_pos (hmap.1 hmem)] at hconcat
      exact hgo l hadd (hconcat ▸ h) hpos
    · rw [if_neg fun hin => hmem (hmap.2 hin)] at hconcat
      exact hgo l₁ hadd (hconcat ▸ hholds) (hroom.pos hpos)
    · refine ⟨.errorOutOfHostMemory, l, [], ?_, .refused List.nil_prefix hok, by rwa [List.append_nil]⟩
      rw [addExtensions, hadd]
      rfl

/-- **One call**, on a list that may not have a block yet. -/
theorem loaderAddToExtList_spec (h : l.Holds (firstOccurrences ExtensionBytes.name offered))
    (props : List ExtensionBytes) :
    ∃ res l' done, loaderAddToExtList callbacks requests l props = some (res, l') ∧ Outcome requests props res done ∧
      l'.Holds (firstOccurrences ExtensionBytes.name (offered ++ done)) := by
  unfold loaderAddToExtList
  rcases h.block with ⟨hlist, hcapacity⟩ | ⟨rest, hlist, -, hpos⟩
  · rw [if_pos (.inr hcapacity)]
    obtain rfl : offered = [] := by
      cases offered with
      | nil => rfl
      | cons e offered => cases h.eq_nil hcapacity
    rcases hrequest : requests 0 with _ | fill
    · have hok : (requests 0).ok = false := by rw [hrequest]; rfl
      exact ⟨.errorOutOfHostMemory, zero, [], rfl, .refused List.nil_prefix hok, holds_zero⟩
    · exact addExtensions_spec holds_initialized (by decide) props
  · rw [if_neg (by simp [hlist, hpos.ne'])]
    exact addExtensions_spec h hpos props

end Calls

/-- Bytes as text, a character for each. -/
def text (bytes : List UInt8) : String := String.ofList (bytes.map Char.ofUInt8)

theorem text_injective : Function.Injective text := by
  intro bytes bytes' h
  have hbyte : Function.Injective Char.ofUInt8 := fun b b' hb => UInt8.toUInt32_inj.1 (congrArg Char.val hb)
  exact List.map_injective_iff.2 hbyte (String.ofList_injective h)

/-- The name of an extension as text, and its version. -/
def properties (e : ExtensionBytes) : VkExtensionProperties :=
  ⟨text e.name, ByteMemory.spelled (e.bytes.drop vkMaxExtensionNameSize)⟩

/-- The list in memory is a list of extensions, whose capacity is counted in entries. -/
def Represents (l : ExtensionArray) (list : ExtensionList) : Prop :=
  ∃ exts, l.Holds exts ∧ list = ⟨exts.map properties, l.capacity / sizeofExtensionProperties⟩

/-- What a request meets that is made at a capacity in entries. -/
def growOf (requests : ℕ → Request UInt8) (capacity : ℕ) : Bool := (requests (capacity * sizeofExtensionProperties)).ok

section Refinement

variable {callbacks : Option VkAllocationCallbacks} {requests : ℕ → Request UInt8} {l : ExtensionArray}
  {exts : List ExtensionBytes} {e : ExtensionBytes} {list : ExtensionList}

theorem hasVkExtensionProperty_properties {capacity : ℕ} :
    hasVkExtensionProperty (properties e) ⟨exts.map properties, capacity⟩ = true ↔
      e.name ∈ exts.map ExtensionBytes.name := by
  rw [hasVkExtensionProperty_iff, List.map_map]
  have hmap : exts.map ((·.extensionName) ∘ properties) = (exts.map ExtensionBytes.name).map text := by
    rw [List.map_map]
    rfl
  rw [hmap]
  exact List.mem_map_of_injective text_injective

/-- The list has room left in entries if it has room left in bytes. -/
theorem Holds.length_lt_iff (h : l.Holds exts) :
    (exts.map properties).length < l.capacity / sizeofExtensionProperties ↔
      l.count * sizeofExtensionProperties < l.capacity := by
  rw [List.length_map, ← h.count, Nat.lt_div_iff_mul_lt' h.whole, Nat.mul_comm]

theorem growOf_capacity (h : l.Holds exts) :
    growOf requests (l.capacity / sizeofExtensionProperties) = (requests l.capacity).ok := by
  rw [growOf, Nat.div_mul_cancel h.whole]

/-- One extension is added to the list as to the list that it represents. -/
theorem addExtension_refines (h : l.Represents list) (hpos : 0 < l.capacity) (e : ExtensionBytes) :
    (∃ l' list', addExtension callbacks requests l e = some (.success, l') ∧
        VulkanLoader.addExtension (growOf requests) list (properties e) = some list' ∧ l'.Represents list' ∧
        0 < l'.capacity) ∨
      (addExtension callbacks requests l e = some (.errorOutOfHostMemory, l) ∧
        VulkanLoader.addExtension (growOf requests) list (properties e) = none) := by
  obtain ⟨exts, hholds, rfl⟩ := h
  unfold VulkanLoader.addExtension
  rcases @addExtension_cases callbacks requests _ _ hholds hpos e with
    ⟨hmem, hadd⟩ | ⟨hmem, l', hadd, hholds', hroom⟩ | ⟨hmem, hadd, hfull, hok⟩
  · refine .inl ⟨l, _, hadd, ?_, ⟨exts, hholds, rfl⟩, hpos⟩
    rw [if_pos (hasVkExtensionProperty_properties.2 hmem)]
  · rw [if_neg fun hhas => hmem (hasVkExtensionProperty_properties.1 hhas)]
    refine .inl ⟨l', _, hadd, ?_, ⟨_, hholds', rfl⟩, hroom.pos hpos⟩
    rw [List.map_append]
    generalize l'.capacity = capacity at hroom
    cases hroom with
    | left hleft => rw [if_neg (Nat.not_le_of_lt (hholds.length_lt_iff.2 hleft))]; rfl
    | doubled hfull hok =>
      rw [if_pos (Nat.le_of_not_lt fun hlt => absurd (hholds.length_lt_iff.1 hlt) hfull.ge.not_gt),
        if_pos (by rw [growOf_capacity hholds]; exact hok), Nat.mul_comm l.capacity, Nat.mul_comm (l.capacity / _),
        Nat.mul_div_assoc 2 hholds.whole]
      rfl
  · right
    refine ⟨hadd, ?_⟩
    rw [if_neg fun hhas => hmem (hasVkExtensionProperty_properties.1 hhas),
      if_pos (Nat.le_of_not_lt fun hlt => absurd (hholds.length_lt_iff.1 hlt) hfull.ge.not_gt),
      if_neg (by rw [growOf_capacity hholds, hok]; exact Bool.false_ne_true)]

theorem addExtensions_refines (h : l.Represents list) (hpos : 0 < l.capacity) (props : List ExtensionBytes) :
    ∃ l', addExtensions callbacks requests props l =
        some ((VulkanLoader.loaderAddToExtList.go (growOf requests) list (props.map properties)).1, l') ∧
      l'.Represents (VulkanLoader.loaderAddToExtList.go (growOf requests) list (props.map properties)).2 := by
  induction props generalizing l list with
  | nil => exact ⟨l, rfl, h⟩
  | cons e props ih =>
    rw [List.map_cons, VulkanLoader.loaderAddToExtList.go]
    rcases @addExtension_refines callbacks requests _ _ h hpos e with
      ⟨l₁, list₁, hadd, hadd', hrep, hpos₁⟩ | ⟨hadd, hadd'⟩
    · obtain ⟨l', hrun, hrep'⟩ := ih hrep hpos₁
      rw [hadd', addExtensions, hadd]
      exact ⟨l', hrun, hrep'⟩
    · rw [hadd', addExtensions, hadd]
      exact ⟨l, rfl, h⟩

/-- **The list of extensions refines the list without memory**: a call on the list in memory gives the same result, and
leaves what represents the list that the call without memory leaves. -/
theorem loaderAddToExtList_refines (h : l.Represents list) (props : List ExtensionBytes) :
    ∃ l', loaderAddToExtList callbacks requests l props =
        some ((VulkanLoader.loaderAddToExtList (growOf requests) list (props.map properties)).1, l') ∧
      l'.Represents (VulkanLoader.loaderAddToExtList (growOf requests) list (props.map properties)).2 := by
  obtain ⟨exts, hholds, rfl⟩ := h
  unfold loaderAddToExtList VulkanLoader.loaderAddToExtList loaderInitExtensionList
  rcases hholds.block with ⟨hlist, hcapacity⟩ | ⟨rest, hlist, -, hpos⟩
  · obtain rfl := hholds.eq_nil hcapacity
    rw [if_pos (.inr hcapacity), hcapacity, Nat.zero_div, if_pos rfl, growOf, Nat.zero_mul]
    rcases requests 0 with _ | fill
    · exact ⟨zero, rfl, [], holds_zero, rfl⟩
    · exact addExtensions_refines ⟨[], holds_initialized, rfl⟩ (by decide) props
  · have hne : l.capacity / sizeofExtensionProperties ≠ 0 :=
      (Nat.div_pos (Nat.le_of_dvd hpos hholds.whole) sizeof_pos).ne'
    rw [if_neg (by simp [hlist, hpos.ne']), if_neg hne]
    exact addExtensions_refines ⟨exts, hholds, rfl⟩ hpos props

/-- Calls on a list in memory do to it what they do to the list that it represents. -/
theorem runCalls_refines (h : l.Represents list) (calls : List ExtensionCall) :
    ∃ results l', runCalls callbacks calls l = some (results, l') ∧ l'.Represents (calls.foldl (fun list call =>
      (VulkanLoader.loaderAddToExtList (growOf call.requests) list (call.props.map properties)).2) list) := by
  induction calls generalizing l list with
  | nil => exact ⟨[], l, rfl, h⟩
  | cons call calls ih =>
    obtain ⟨l₁, hcall, hrep⟩ := @loaderAddToExtList_refines callbacks call.requests _ _ h call.props
    obtain ⟨results, l', hrun, hrep'⟩ := ih hrep
    have hruns : ∃ results, runCalls callbacks (call :: calls) l = some (results, l') := by
      rw [runCalls, hcall, Option.bind_some, hrun]
      exact ⟨_, rfl⟩
    obtain ⟨results', hruns⟩ := hruns
    exact ⟨results', l', hruns, hrep'⟩

end Refinement

end ExtensionArray

end VulkanLoader
