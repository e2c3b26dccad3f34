import VulkanLoader.Lib.ByteMemory
import VulkanLoader.Memory.Allocation

/-!
# The copy of a surface's create info (`wsi.c`)

A create info leads a chain of structures, each of which starts with its type and the pointer to the next one.  The copy
goes through the chain twice: first to add up the sizes, then to put the structures one after the other into one block.
The sizes do not overflow, for the structures are objects in memory.

A driver's table of surfaces outlives the surface; its memory is left out.
-/

namespace VulkanLoader

open Lib ByteMemory

/-- The size of a `VkBaseInStructure`: its type, and the pointer to the next structure at offset 8. -/
def sizeofVkBaseInStructure : ℕ := 16

/-- `struct loader_struct_type_info`; a structure has the fields of `VkBaseInStructure`. -/
structure LoaderStructTypeInfo where
  stype : ℕ
  size : ℕ
  base_le : sizeofVkBaseInStructure ≤ size

/-- `loader_aligned_size`. -/
def loaderAlignedSize (x : ℕ) : ℕ := (x + 8 - 1) / 8 * 8

structure VkBaseInStructure where
  sType : ℕ
  pNext : ℕ

/-- The type of the structure at an address. -/
def structType (m : ByteMemory) (p : ℕ) : ℕ := spelled (m.bytes ⟨p, 4⟩)

/-- `memcpy(&base, pnext, sizeof(VkBaseInStructure))`. -/
def readBase (m : ByteMemory) (p : ℕ) : Option VkBaseInStructure :=
  if m.Owns ⟨p, sizeofVkBaseInStructure⟩ then some ⟨structType m p, m.pointer (p + 8)⟩ else none

/-- The loops over the types: the first entry with the type. -/
def findStructType (info : List LoaderStructTypeInfo) (sType : ℕ) : Option LoaderStructTypeInfo :=
  info.find? fun i => sType = i.stype

/-- The first loop of `copy_surface_create_info`.  Of a chain without an end `none` is all that comes. -/
def createInfoTotalSize (info : List LoaderStructTypeInfo) (m : ByteMemory) :
    ℕ → ℕ → ℕ → Option (Except VkResult ℕ)
  | 0, _, _ => none
  | fuel + 1, pnext, total =>
    if pnext = 0 then some (.ok total)
    else
      match readBase m pnext with
      | none => none
      | some base =>
        match findStructType info base.sType with
        | some i => createInfoTotalSize info m fuel base.pNext (total + loaderAlignedSize i.size)
        | none => some (.error .errorExtensionNotPresent)

/-- A structure is copied, and the one before leads to it. -/
def copyStruct (m : ByteMemory) (dst prevStruct pnext size : ℕ) : Option ByteMemory :=
  (m.copy dst pnext size).bind fun m =>
    if prevStruct ≠ 0 then m.write (prevStruct + 8) (spell 8 dst) else some m

/-- The second loop; at a structure of another type it would stay. -/
def copyStructs (info : List LoaderStructTypeInfo) : ℕ → ByteMemory → ℕ → ℕ → ℕ → Option ByteMemory
  | 0, _, _, _, _ => none
  | fuel + 1, m, dst, prevStruct, pnext =>
    if pnext = 0 then some m
    else
      match readBase m pnext with
      | none => none
      | some base =>
        match findStructType info base.sType with
        | some i =>
          (copyStruct m dst prevStruct pnext i.size).bind fun m =>
            copyStructs info fuel m (dst + loaderAlignedSize i.size) dst base.pNext
        | none => copyStructs info fuel m dst prevStruct pnext

/-- What `VkIcdSurface` says about the copy. -/
structure VkIcdSurface where
  address : ℕ
  createInfo : ℕ
  callbacks : Option VkAllocationCallbacks

/-- `copy_surface_create_info`. -/
def copyCreateInfo (info : List LoaderStructTypeInfo) (fuel : ℕ) (m : ByteMemory) (icdSurface : VkIcdSurface)
    (createInfo : ℕ) (pAllocator : Option VkAllocationCallbacks) (proposal : ℕ × (ℕ → UInt8)) :
    Option (VkResult × ByteMemory × VkIcdSurface) :=
  (createInfoTotalSize info m fuel createInfo 0).bind fun
    | .error res => some (res, m, icdSurface)
    | .ok total =>
      match m.alloc total proposal with
      | none => some (.errorOutOfHostMemory, m, { icdSurface with createInfo := 0 })
      | some (dst, m) =>
        (copyStructs info fuel m dst 0 createInfo).map fun m =>
          (.success, m, { icdSurface with
            createInfo := dst, callbacks := pAllocator.or icdSurface.callbacks })

/-- What a creation meets: the index, the `VkIcdSurface`, the tables of the drivers, and the copy. -/
structure SurfaceRequests where
  nextIndex : VkResult
  icdSurface : ℕ × (ℕ → UInt8)
  surfaceLists : VkResult
  createInfo : ℕ × (ℕ → UInt8)

/-- The memory part of `allocate_icd_surface_struct`. -/
def allocateIcdSurface (sizeofVkIcdSurface : ℕ) (m : ByteMemory) (r : SurfaceRequests) :
    Option (VkResult × ByteMemory × Option VkIcdSurface) :=
  if r.nextIndex ≠ .success then some (r.nextIndex, m, none)
  else
    match m.alloc sizeofVkIcdSurface (r.icdSurface.1, fun _ => 0) with
    | none => some (.errorOutOfHostMemory, m, none)
    | some (p, m) =>
      if r.surfaceLists ≠ .success then (m.free p).map fun m => (r.surfaceLists, m, none)
      else some (.success, m, some ⟨p, 0, none⟩)

/-- The memory part of `cleanup_surface_creation`. -/
def cleanupIcdSurface (m : ByteMemory) (result : VkResult) : Option VkIcdSurface → Option ByteMemory
  | none => some m
  | some icdSurface =>
    if result ≠ .success then (m.free icdSurface.createInfo).bind fun m => m.free icdSurface.address else some m

/-- The body the functions that create surfaces share: the result, and the surface that `*pSurface` points to. -/
def createIcdSurface (sizeofVkIcdSurface : ℕ) (info : List LoaderStructTypeInfo) (fuel : ℕ) (m : ByteMemory)
    (createInfo : ℕ) (pAllocator : Option VkAllocationCallbacks) (r : SurfaceRequests) :
    Option (VkResult × ByteMemory × Option VkIcdSurface) :=
  (allocateIcdSurface sizeofVkIcdSurface m r).bind fun
    | (res, m, none) => (cleanupIcdSurface m res none).map fun m => (res, m, none)
    | (_, m, some icdSurface) =>
      (copyCreateInfo info fuel m icdSurface createInfo pAllocator r.createInfo).bind fun (res, m, icdSurface) =>
        (cleanupIcdSurface m res (some icdSurface)).map fun m =>
          (res, m, if res = .success then some icdSurface else none)

/-! ### Chains -/

/-- The size of the structure at an address, as far as its type is known. -/
def structSize (info : List LoaderStructTypeInfo) (m : ByteMemory) (p : ℕ) : ℕ :=
  ((findStructType info (structType m p)).map (·.size)).getD sizeofVkBaseInStructure

/-- From `p` the structures at the addresses `ws` lead to the null pointer. -/
def IsChain (info : List LoaderStructTypeInfo) (m : ByteMemory) : ℕ → List ℕ → Prop
  | p, [] => p = 0
  | p, a :: ws => p = a ∧ p ≠ 0 ∧ m.Owns ⟨p, structSize info m p⟩ ∧ IsChain info m (m.pointer (p + 8)) ws

/-- A chain of structures of recognised types; they are listed with their types. -/
def KnownChain (info : List LoaderStructTypeInfo) (m : ByteMemory) : ℕ → List (ℕ × LoaderStructTypeInfo) → Prop
  | p, [] => p = 0
  | p, w :: ws => p = w.1 ∧ p ≠ 0 ∧ findStructType info (structType m p) = some w.2 ∧ m.Owns ⟨p, w.2.size⟩ ∧
      KnownChain info m (m.pointer (p + 8)) ws

/-- The size of the block for the copies. -/
def totalSize : List (ℕ × LoaderStructTypeInfo) → ℕ
  | [] => 0
  | w :: ws => loaderAlignedSize w.2.size + totalSize ws

/-- The copies, one after the other. -/
def copiesFrom : ℕ → List (ℕ × LoaderStructTypeInfo) → List (ℕ × LoaderStructTypeInfo)
  | _, [] => []
  | dst, w :: ws => (dst, w.2) :: copiesFrom (dst + loaderAlignedSize w.2.size) ws

/-- The structures have one type and equal contents, but for the link. -/
def SameContents (m m' : ByteMemory) (w c : ℕ × LoaderStructTypeInfo) : Prop :=
  c.2 = w.2 ∧ ∀ i < w.2.size, i < 8 ∨ 16 ≤ i → m'.byte (c.1 + i) = m.byte (w.1 + i)

/-- The block of a structure. -/
def structBlock (w : ℕ × LoaderStructTypeInfo) : Block := ⟨w.1, w.2.size⟩

/-- **A faithful copy** of the chain `ws` at `dst`: a chain of as many structures, in the same order, with the same
contents, that lie apart from each other in one block in use. -/
structure CopiesChain (info : List LoaderStructTypeInfo) (m m' : ByteMemory) (ws : List (ℕ × LoaderStructTypeInfo))
    (dst : ℕ) (cs : List (ℕ × LoaderStructTypeInfo)) : Prop where
  chain : KnownChain info m' dst cs
  same : List.Forall₂ (SameContents m m') ws cs
  block : ⟨dst, totalSize ws⟩ ∈ m'.blocks
  within : ∀ c ∈ cs, (structBlock c).Within ⟨dst, totalSize ws⟩
  apart : cs.Pairwise fun c c' => (structBlock c).Apart (structBlock c')

/-- What comes before the copy is granted. -/
structure SurfaceRequests.StructGranted (r : SurfaceRequests) (sizeofVkIcdSurface : ℕ) (m : ByteMemory) : Prop where
  nextIndex : r.nextIndex = .success
  icdSurface : Fits m.blocks ⟨r.icdSurface.1, sizeofVkIcdSurface⟩
  surfaceLists : r.surfaceLists = .success

/-- **All requests are granted**; the copies need `total` bytes. -/
structure SurfaceRequests.Granted (r : SurfaceRequests) (sizeofVkIcdSurface total : ℕ) (m : ByteMemory) : Prop
    extends r.StructGranted sizeofVkIcdSurface m where
  createInfo : Fits (⟨r.icdSurface.1, sizeofVkIcdSurface⟩ :: m.blocks) ⟨r.createInfo.1, total⟩

/-! ### What the loops do -/

section Loops

variable {info : List LoaderStructTypeInfo} {m m' : ByteMemory} {p dst prevStruct fuel : ℕ}
  {w : ℕ × LoaderStructTypeInfo} {ws : List (ℕ × LoaderStructTypeInfo)}

theorem le_loaderAlignedSize (x : ℕ) : x ≤ loaderAlignedSize x := by
  unfold loaderAlignedSize
  omega

theorem structType_eq (h : m.Agree m' ⟨p, 4⟩) : structType m' p = structType m p := congrArg spelled h.bytes_eq

theorem readBase_of_owns {n : ℕ} (h : m.Owns ⟨p, n⟩) (hn : sizeofVkBaseInStructure ≤ n) :
    readBase m p = some ⟨structType m p, m.pointer (p + 8)⟩ :=
  if_pos (h.within (Block.within_mk.2 ⟨le_rfl, Nat.add_le_add_left hn p⟩))

/-- A chain of known structures does not depend on other memory. -/
theorem KnownChain.frame (h : KnownChain info m p ws) (hown : ∀ b, m.Owns b → m'.Owns b)
    (hagree : ∀ w ∈ ws, m.Agree m' (structBlock w)) : KnownChain info m' p ws := by
  induction ws generalizing p with
  | nil => exact h
  | cons w ws ih =>
    obtain ⟨rfl, hp, hinfo, howns, htail⟩ := h
    have hw : m.Agree m' (structBlock w) := hagree w List.mem_cons_self
    have hbase := w.2.base_le
    unfold sizeofVkBaseInStructure at hbase
    have htype : structType m' w.1 = structType m w.1 :=
      structType_eq (hw.within (Block.within_mk.2 (by omega)))
    have hpointer : m'.pointer (w.1 + 8) = m.pointer (w.1 + 8) :=
      Agree.pointer_eq (hw.within (Block.within_mk.2 (by omega)))
    refine ⟨rfl, hp, htype ▸ hinfo, hown _ howns, ?_⟩
    rw [hpointer]
    exact ih htail fun w hw => hagree w (List.mem_cons_of_mem _ hw)

theorem base_le_structSize (info : List LoaderStructTypeInfo) (m : ByteMemory) (p : ℕ) :
    16 ≤ structSize info m p := by
  unfold structSize
  cases findStructType info (structType m p) with
  | none => exact le_rfl
  | some i => exact i.base_le

/-- The sizes of a known chain are added up. -/
theorem createInfoTotalSize_of_known (h : KnownChain info m p ws) (hfuel : ws.length < fuel) (total : ℕ) :
    createInfoTotalSize info m fuel p total = some (.ok (total + totalSize ws)) := by
  induction ws generalizing p fuel total with
  | nil =>
    obtain ⟨fuel, rfl⟩ := Nat.exists_eq_succ_of_ne_zero (Nat.ne_of_gt hfuel)
    obtain rfl : p = 0 := h
    rfl
  | cons w ws ih =>
    obtain ⟨fuel, rfl⟩ := Nat.exists_eq_succ_of_ne_zero (Nat.ne_of_gt (Nat.zero_lt_of_lt hfuel))
    obtain ⟨-, hp, hinfo, howns, htail⟩ := h
    simp only [createInfoTotalSize, if_neg hp, readBase_of_owns howns w.2.base_le, hinfo]
    rw [ih htail (Nat.lt_of_succ_lt_succ hfuel), totalSize, Nat.add_assoc]

/-- At a structure of another type the first loop gives up. -/
theorem createInfoTotalSize_of_unknown {ws : List ℕ} (h : IsChain info m p ws)
    (hunknown : ∃ a ∈ ws, findStructType info (structType m a) = none) (hfuel : ws.length < fuel) (total : ℕ) :
    createInfoTotalSize info m fuel p total = some (.error .errorExtensionNotPresent) := by
  induction ws generalizing p fuel total with
  | nil =>
    obtain ⟨a, ha, -⟩ := hunknown
    cases ha
  | cons a ws ih =>
    obtain ⟨fuel, rfl⟩ := Nat.exists_eq_succ_of_ne_zero (Nat.ne_of_gt (Nat.zero_lt_of_lt hfuel))
    obtain ⟨rfl, hp, howns, htail⟩ := h
    simp only [createInfoTotalSize, if_neg hp, readBase_of_owns howns (base_le_structSize info m p)]
    cases hinfo : findStructType info (structType m p) with
    | none => rfl
    | some i =>
      refine ih htail ?_ (Nat.lt_of_succ_lt_succ hfuel) _
      obtain ⟨b, hb, hnone⟩ := hunknown
      rcases List.mem_cons.1 hb with rfl | hb
      · rw [hinfo] at hnone
        cases hnone
      · exact ⟨b, hb, hnone⟩

/-- A chain is known, or the first loop meets a structure of another type. -/
theorem known_or_unknown {ws : List ℕ} (h : IsChain info m p ws) :
    (∃ kws : List (ℕ × LoaderStructTypeInfo), kws.map Prod.fst = ws ∧ KnownChain info m p kws) ∨
      ∃ a ∈ ws, findStructType info (structType m a) = none := by
  induction ws generalizing p with
  | nil => exact .inl ⟨[], rfl, h⟩
  | cons a ws ih =>
    obtain ⟨rfl, hp, howns, htail⟩ := h
    cases hinfo : findStructType info (structType m p) with
    | none => exact .inr ⟨p, List.mem_cons_self, hinfo⟩
    | some i =>
      have hsize : structSize info m p = i.size := by rw [structSize, hinfo]; rfl
      rcases ih htail with ⟨kws, rfl, hknown⟩ | ⟨b, hb, hnone⟩
      · exact .inl ⟨(p, i) :: kws, rfl, rfl, hp, hinfo, hsize ▸ howns, hknown⟩
      · exact .inr ⟨b, List.mem_cons_of_mem _ hb, hnone⟩

/-- **One structure is copied**, and linked to. -/
theorem copyStruct_of_owns {size : ℕ} (hsrc : m.Owns ⟨p, size⟩) (hdst : m.Owns ⟨dst, size⟩) (hlt : dst < 2 ^ 64)
    (hprev : prevStruct ≠ 0 → m.Owns ⟨prevStruct + 8, 8⟩ ∧ prevStruct + 16 ≤ dst) :
    ∃ m', copyStruct m dst prevStruct p size = some m' ∧ m'.blocks = m.blocks ∧
      m'.bytes ⟨dst, size⟩ = m.bytes ⟨p, size⟩ ∧ (prevStruct ≠ 0 → m'.pointer (prevStruct + 8) = dst) ∧
      ∀ b : Block, b.Apart ⟨dst, size⟩ → (prevStruct ≠ 0 → b.Apart ⟨prevStruct + 8, 8⟩) → m.Agree m' b := by
  obtain ⟨m₁, hcopy, hblocks₁, hbytes₁, hagree₁⟩ := copy_of_owns hsrc hdst
  unfold copyStruct
  rw [hcopy, Option.bind_some]
  by_cases hzero : prevStruct = 0
  · rw [if_neg (not_not_intro hzero)]
    exact ⟨m₁, rfl, hblocks₁, hbytes₁, fun h => absurd hzero h, fun b hb _ => hagree₁ b hb⟩
  · obtain ⟨hown, hle⟩ := hprev hzero
    rw [if_pos hzero]
    obtain ⟨m₂, hwrite, hblocks₂, hpointer, hagree₂⟩ := write_pointer_of_owns hlt ((owns_congr hblocks₁).2 hown)
    have hapart : Block.Apart ⟨dst, size⟩ ⟨prevStruct + 8, 8⟩ := Block.apart_mk.2 (by omega)
    exact ⟨m₂, hwrite, hblocks₂.trans hblocks₁, (hagree₂ _ hapart).bytes_eq.trans hbytes₁, fun _ => hpointer,
      fun b hb hb' => (hagree₁ b hb).trans (hagree₂ b (hb' hzero))⟩

/-- **The second loop**: the copies are a chain, with the contents of the structures, and nothing else changes but the
link that leads to the first one. -/
theorem copyStructs_of_known (h : KnownChain info m p ws) (hfuel : ws.length < fuel)
    (hblock : m.Owns ⟨dst, totalSize ws⟩) (hdst : dst ≠ 0) (hlt : dst + totalSize ws < 2 ^ 64)
    (hapart : ∀ w ∈ ws, (structBlock w).Apart ⟨dst, totalSize ws⟩)
    (hprev : prevStruct ≠ 0 → m.Owns ⟨prevStruct + 8, 8⟩ ∧ prevStruct + 16 ≤ dst ∧ m.pointer (prevStruct + 8) = p ∧
      ∀ w ∈ ws, (structBlock w).Apart ⟨prevStruct + 8, 8⟩) :
    ∃ m', copyStructs info fuel m dst prevStruct p = some m' ∧ m'.blocks = m.blocks ∧
      KnownChain info m' (if p = 0 then 0 else dst) (copiesFrom dst ws) ∧
      List.Forall₂ (SameContents m m') ws (copiesFrom dst ws) ∧
      (prevStruct ≠ 0 → m'.pointer (prevStruct + 8) = if p = 0 then 0 else dst) ∧
      ∀ b : Block, b.Apart ⟨dst, totalSize ws⟩ → (prevStruct ≠ 0 → b.Apart ⟨prevStruct + 8, 8⟩) → m.Agree m' b := by
  induction ws generalizing m p dst prevStruct fuel with
  | nil =>
    obtain ⟨fuel, rfl⟩ := Nat.exists_eq_succ_of_ne_zero (Nat.ne_of_gt hfuel)
    obtain rfl : p = 0 := h
    exact ⟨m, rfl, rfl, rfl, .nil, fun hne => (hprev hne).2.2.1, fun b _ _ => .refl m b⟩
  | cons w ws ih =>
    obtain ⟨fuel, rfl⟩ := Nat.exists_eq_succ_of_ne_zero (Nat.ne_of_gt (Nat.zero_lt_of_lt hfuel))
    obtain ⟨rfl, hp, hinfo, howns, htail⟩ := h
    have hbase : 16 ≤ w.2.size := w.2.base_le
    have hsize := le_loaderAlignedSize w.2.size
    have htotal : totalSize (w :: ws) = loaderAlignedSize w.2.size + totalSize ws := rfl
    -- the parts of the block
    have hcopy : Block.Within ⟨dst, w.2.size⟩ ⟨dst, totalSize (w :: ws)⟩ := Block.within_mk.2 (by omega)
    have hlink : Block.Within ⟨dst + 8, 8⟩ ⟨dst, totalSize (w :: ws)⟩ := Block.within_mk.2 (by omega)
    have hrest : Block.Within ⟨dst + loaderAlignedSize w.2.size, totalSize ws⟩ ⟨dst, totalSize (w :: ws)⟩ :=
      Block.within_mk.2 (by omega)
    -- this structure
    obtain ⟨m₁, hstruct, hblocks₁, hbytes₁, hpointer₁, hagree₁⟩ :=
      @copyStruct_of_owns m w.1 dst prevStruct w.2.size howns (hblock.within hcopy) (by omega)
        fun hne => ⟨(hprev hne).1, (hprev hne).2.1⟩
    have hagree : ∀ v ∈ w :: ws, m.Agree m₁ (structBlock v) := fun v hv =>
      hagree₁ _ ((hapart v hv).symm.within hcopy).symm fun hne => (hprev hne).2.2.2 v hv
    have htail₁ : KnownChain info m₁ (m.pointer (w.1 + 8)) ws :=
      htail.frame (fun b hb => (owns_congr hblocks₁).2 hb) fun v hv => hagree v (List.mem_cons_of_mem _ hv)
    have hnext : m₁.pointer (dst + 8) = m.pointer (w.1 + 8) :=
      congrArg spelled (bytes_part hbytes₁ (by omega))
    -- the others
    obtain ⟨m', hrun, hblocks, hchain, hsame, hpointer, hagree'⟩ :=
      @ih m₁ (m.pointer (w.1 + 8)) (dst + loaderAlignedSize w.2.size) dst fuel htail₁ (Nat.lt_of_succ_lt_succ hfuel)
        (((owns_congr hblocks₁).2 hblock).within hrest) (by omega) (by omega)
        (fun v hv => ((hapart v (List.mem_cons_of_mem _ hv)).symm.within hrest).symm)
        fun _ => ⟨((owns_congr hblocks₁).2 hblock).within hlink, by omega, hnext,
          fun v hv => ((hapart v (List.mem_cons_of_mem _ hv)).symm.within hlink).symm⟩
    have hkeep : ∀ b : Block, b.Apart ⟨dst + loaderAlignedSize w.2.size, totalSize ws⟩ → b.Apart ⟨dst + 8, 8⟩ →
        m₁.Agree m' b := fun b hb hb' => hagree' b hb fun _ => hb'
    -- the copy keeps its bytes, but for the link
    have hbyte : ∀ i < w.2.size, i < 8 ∨ 16 ≤ i → m'.byte (dst + i) = m.byte (w.1 + i) := by
      intro i hi hother
      have hone : m₁.Agree m' ⟨dst + i, 1⟩ := hkeep _ (Block.apart_mk.2 (by omega)) (Block.apart_mk.2 (by omega))
      exact (hone _ le_rfl (Nat.lt_succ_self _)).trans (byte_eq_of_bytes_eq hbytes₁ hi)
    have htype : structType m' dst = structType m w.1 :=
      (structType_eq (hkeep _ (Block.apart_mk.2 (by omega)) (Block.apart_mk.2 (by omega)))).trans
        (congrArg spelled (@bytes_part w.2.size m m₁ w.1 dst 0 4 hbytes₁ (by omega)))
    refine ⟨m', ?_, hblocks.trans hblocks₁, ?_, .cons ⟨rfl, hbyte⟩ ?_, fun hne => ?_, fun b hb hb' => ?_⟩
    · rw [copyStructs, if_neg hp, readBase_of_owns howns w.2.base_le]
      simp only [hinfo, hstruct, Option.bind_some]
      exact hrun
    · rw [if_neg hp]
      refine ⟨rfl, hdst, htype ▸ hinfo, ?_, ?_⟩
      · exact (owns_congr (hblocks.trans hblocks₁)).2 (hblock.within hcopy)
      · rw [hpointer hdst]
        exact hchain
    · have hboth := (List.forall₂_and_left ws _).2 ⟨fun v hv => hagree v (List.mem_cons_of_mem _ hv), hsame⟩
      refine hboth.imp fun v c hvc => ⟨hvc.2.1, fun i hi hother => ?_⟩
      exact (hvc.2.2 i hi hother).trans (hvc.1 _ (Nat.le_add_right _ _) (Nat.add_lt_add_left hi _))
    · obtain ⟨-, hle, -, -⟩ := hprev hne
      rw [if_neg hp, ← hpointer₁ hne]
      exact Agree.pointer_eq (hkeep _ (Block.apart_mk.2 (by omega)) (Block.apart_mk.2 (by omega)))
    · exact (hagree₁ b (hb.symm.within hcopy).symm hb').trans
        (hkeep b (hb.symm.within hrest).symm (hb.symm.within hlink).symm)

/-- The copies lie in the block, -/
theorem copiesFrom_within (dst : ℕ) (ws : List (ℕ × LoaderStructTypeInfo)) :
    ∀ c ∈ copiesFrom dst ws, (structBlock c).Within ⟨dst, totalSize ws⟩ := by
  induction ws generalizing dst with
  | nil => exact fun c hc => absurd hc List.not_mem_nil
  | cons w ws ih =>
    have hsize := le_loaderAlignedSize w.2.size
    intro c hc
    rw [totalSize]
    rcases List.mem_cons.1 hc with rfl | hc
    · exact Block.within_mk.2 ⟨le_rfl, by dsimp only; omega⟩
    · exact (ih _ c hc).trans (Block.within_mk.2 (by omega))

/-- and apart from each other. -/
theorem copiesFrom_apart (dst : ℕ) (ws : List (ℕ × LoaderStructTypeInfo)) :
    (copiesFrom dst ws).Pairwise fun c c' => (structBlock c).Apart (structBlock c') := by
  induction ws generalizing dst with
  | nil => exact List.Pairwise.nil
  | cons w ws ih =>
    refine List.pairwise_cons.2 ⟨fun c hc => .inl ?_, ih _⟩
    exact (Nat.add_le_add_left (le_loaderAlignedSize _) _).trans (copiesFrom_within _ ws c hc).1

end Loops

/-! ### Creating a surface -/

section Create

variable {info : List LoaderStructTypeInfo} {m m' : ByteMemory} {p fuel : ℕ} {ws : List ℕ}
  {kws : List (ℕ × LoaderStructTypeInfo)}

/-- A chain does not depend on memory that is not in use. -/
theorem IsChain.frame (h : IsChain info m p ws) (hown : ∀ b, m.Owns b → m'.Owns b)
    (hagree : ∀ b, m.Owns b → m.Agree m' b) :
    IsChain info m' p ws ∧ ∀ a ∈ ws, structType m' a = structType m a := by
  induction ws generalizing p with
  | nil => exact ⟨h, fun a ha => absurd ha List.not_mem_nil⟩
  | cons a ws ih =>
    obtain ⟨rfl, hp, howns, htail⟩ := h
    have hsize := base_le_structSize info m p
    have htype : structType m' p = structType m p :=
      structType_eq ((hagree _ howns).within (Block.within_mk.2 (by omega)))
    have hpointer : m'.pointer (p + 8) = m.pointer (p + 8) :=
      Agree.pointer_eq ((hagree _ howns).within (Block.within_mk.2 (by omega)))
    have hstruct : structSize info m' p = structSize info m p := by rw [structSize, htype, structSize]
    obtain ⟨hchain, htypes⟩ := ih htail
    rw [← hpointer] at hchain
    exact ⟨⟨rfl, hp, hstruct ▸ hown _ howns, hchain⟩, List.forall_mem_cons.2 ⟨htype, htypes⟩⟩

theorem KnownChain.owns (h : KnownChain info m p kws) : ∀ w ∈ kws, m.Owns (structBlock w) := by
  induction kws generalizing p with
  | nil => exact fun w hw => absurd hw List.not_mem_nil
  | cons w kws ih =>
    obtain ⟨rfl, -, -, howns, htail⟩ := h
    exact List.forall_mem_cons.2 ⟨howns, ih htail⟩

/-- A copy is one of the chain in an earlier memory too. -/
theorem CopiesChain.of_agree {m₁ : ByteMemory} {dst : ℕ} {cs : List (ℕ × LoaderStructTypeInfo)}
    (h : CopiesChain info m₁ m' kws dst cs) (hagree : ∀ w ∈ kws, m.Agree m₁ (structBlock w)) :
    CopiesChain info m m' kws dst cs where
  __ := h
  same := ((List.forall₂_and_left kws _).2 ⟨hagree, h.same⟩).imp fun _ _ hwc => ⟨hwc.2.1, fun i hi hother =>
    (hwc.2.2 i hi hother).trans (hwc.1 _ (Nat.le_add_right _ _) (Nat.add_lt_add_left hi _))⟩

/-- The types of a chain are those that are found. -/
theorem KnownChain.unique {kws' : List (ℕ × LoaderStructTypeInfo)} (h : KnownChain info m p kws)
    (h' : KnownChain info m p kws') : kws = kws' := by
  induction kws generalizing p kws' with
  | nil =>
    cases kws' with
    | nil => rfl
    | cons w' kws' => exact absurd h h'.2.1
  | cons w kws ih =>
    obtain ⟨hw, hp, hinfo, -, htail⟩ := h
    cases kws' with
    | nil => exact absurd h' hp
    | cons w' kws' =>
      obtain ⟨hw', -, hinfo', -, htail'⟩ := h'
      have hsame : w = w' := Prod.ext (hw.symm.trans hw') (Option.some.inj (hinfo.symm.trans hinfo'))
      rw [hsame, ih htail htail']

/-- A known chain has no other structure. -/
theorem IsChain.known (h : IsChain info m p ws) (hknown : KnownChain info m p kws) :
    ∀ a ∈ ws, findStructType info (structType m a) ≠ none := by
  induction ws generalizing p kws with
  | nil => exact fun a ha => absurd ha List.not_mem_nil
  | cons a ws ih =>
    obtain ⟨rfl, hp, -, htail⟩ := h
    cases kws with
    | nil => exact absurd hknown hp
    | cons w kws =>
      obtain ⟨-, -, hinfo, -, htail'⟩ := hknown
      exact List.forall_mem_cons.2 ⟨hinfo ▸ Option.some_ne_none _, ih htail htail'⟩

/-- **A chain of known structures** is copied, or there is no block for the copy. -/
theorem copyCreateInfo_of_known (h : KnownChain info m p kws) (hp : p ≠ 0) (hfuel : kws.length < fuel)
    (icdSurface : VkIcdSurface) (pAllocator : Option VkAllocationCallbacks) (proposal : ℕ × (ℕ → UInt8)) :
    (copyCreateInfo info fuel m icdSurface p pAllocator proposal =
        some (.errorOutOfHostMemory, m, { icdSurface with createInfo := 0 }) ∧
        ¬ Fits m.blocks ⟨proposal.1, totalSize kws⟩) ∨
      ∃ m', copyCreateInfo info fuel m icdSurface p pAllocator proposal =
          some (.success, m', { icdSurface with
            createInfo := proposal.1, callbacks := pAllocator.or icdSurface.callbacks }) ∧
        Fits m.blocks ⟨proposal.1, totalSize kws⟩ ∧
        CopiesChain info m m' kws proposal.1 (copiesFrom proposal.1 kws) ∧
        m'.blocks = ⟨proposal.1, totalSize kws⟩ :: m.blocks ∧ ∀ b, m.Owns b → m.Agree m' b := by
  unfold copyCreateInfo
  rw [createInfoTotalSize_of_known h hfuel, Option.bind_some, Nat.zero_add]
  rcases alloc_cases m (totalSize kws) proposal with ⟨halloc, hnot⟩ | ⟨m₁, halloc, hfits, hblocks₁, hagree₁⟩
  · exact .inl ⟨by simp only [halloc], hnot⟩
  · have hown : m₁.Owns ⟨proposal.1, totalSize kws⟩ := ⟨_, hblocks₁ ▸ List.mem_cons_self, le_rfl, le_rfl⟩
    have hkeep : ∀ b, m.Owns b → m₁.Owns b := fun b ⟨c, hc, hb⟩ => ⟨c, hblocks₁ ▸ List.mem_cons_of_mem _ hc, hb⟩
    have hchain₁ : KnownChain info m₁ p kws := h.frame hkeep fun w hw => hagree₁ _ (h.owns w hw)
    obtain ⟨m', hrun, hblocks, hchain, hsame, -, hagree⟩ :=
      @copyStructs_of_known info m₁ p proposal.1 0 fuel kws hchain₁ hfuel hown hfits.not_null hfits.lt
        (fun w hw => hfits.apart_of_owns (h.owns w hw)) fun hne => absurd rfl hne
    rw [if_neg hp] at hchain
    have hcopies : CopiesChain info m₁ m' kws proposal.1 (copiesFrom proposal.1 kws) :=
      ⟨hchain, hsame, hblocks ▸ hblocks₁ ▸ List.mem_cons_self, copiesFrom_within _ kws, copiesFrom_apart _ kws⟩
    refine .inr ⟨m', ?_, hfits, hcopies.of_agree fun w hw => hagree₁ _ (h.owns w hw), hblocks.trans hblocks₁,
      fun b hb => (hagree₁ b hb).trans (hagree b (hfits.apart_of_owns hb) fun hne => absurd rfl hne)⟩
    simp only [halloc, hrun, Option.map_some]

/-- **A chain with another structure** is not copied. -/
theorem copyCreateInfo_of_unknown (h : IsChain info m p ws)
    (hunknown : ∃ a ∈ ws, findStructType info (structType m a) = none) (hfuel : ws.length < fuel)
    (icdSurface : VkIcdSurface) (pAllocator : Option VkAllocationCallbacks) (proposal : ℕ × (ℕ → UInt8)) :
    copyCreateInfo info fuel m icdSurface p pAllocator proposal = some (.errorExtensionNotPresent, m, icdSurface) := by
  unfold copyCreateInfo
  rw [createInfoTotalSize_of_unknown h hunknown hfuel]
  rfl

/-- A creation that fails leaves nothing allocated. -/
structure LeavesNothing (m : ByteMemory) (res : VkResult) (m' : ByteMemory) (surface : Option VkIcdSurface) : Prop where
  fails : res ≠ .success
  noSurface : surface = none
  blocks : m'.blocks = m.blocks

/-- A struct for the surface is allocated, or nothing is. -/
theorem allocateIcdSurface_cases (sizeofVkIcdSurface : ℕ) (m : ByteMemory) (r : SurfaceRequests) :
    ∃ res m' surface, allocateIcdSurface sizeofVkIcdSurface m r = some (res, m', surface) ∧
      (∀ b, m.Owns b → m.Agree m' b) ∧
      (LeavesNothing m res m' surface ∧ ¬ r.StructGranted sizeofVkIcdSurface m ∨
        surface = some ⟨r.icdSurface.1, 0, none⟩ ∧ r.StructGranted sizeofVkIcdSurface m ∧
          m'.blocks = ⟨r.icdSurface.1, sizeofVkIcdSurface⟩ :: m.blocks) := by
  have hsame : ∀ b, m.Owns b → m.Agree m b := fun b _ => .refl m b
  unfold allocateIcdSurface
  by_cases hindex : r.nextIndex ≠ .success
  · rw [if_pos hindex]
    exact ⟨_, m, none, rfl, hsame, .inl ⟨⟨hindex, rfl, rfl⟩, fun h => hindex h.nextIndex⟩⟩
  rw [if_neg hindex]
  rcases alloc_cases m sizeofVkIcdSurface (r.icdSurface.1, fun _ => 0) with
    ⟨halloc, hnot⟩ | ⟨m₁, halloc, hfits, hblocks₁, hagree₁⟩
  · rw [halloc]
    exact ⟨_, m, none, rfl, hsame, .inl ⟨⟨by decide, rfl, rfl⟩, fun h => hnot h.icdSurface⟩⟩
  rw [halloc]
  dsimp only
  by_cases hlists : r.surfaceLists ≠ .success
  · rw [if_pos hlists, free_of_blocks hfits.not_null hblocks₁]
    exact ⟨_, { m₁ with blocks := m.blocks }, none, rfl, hagree₁,
      .inl ⟨⟨hlists, rfl, rfl⟩, fun h => hlists h.surfaceLists⟩⟩
  · rw [if_neg hlists]
    exact ⟨_, m₁, _, rfl, hagree₁, .inr ⟨rfl, ⟨not_not.1 hindex, hfits, not_not.1 hlists⟩, hblocks₁⟩⟩

/-- **The chain of a surface's create info is copied faithfully, or nothing is left allocated** for the surface; it is
copied if its structures are known and all requests are granted.  What was in use keeps its bytes. -/
theorem createIcdSurface_copies (sizeofVkIcdSurface : ℕ) (info : List LoaderStructTypeInfo) (m : ByteMemory)
    (createInfo : ℕ) (ws : List ℕ) (h : IsChain info m createInfo ws) (hne : createInfo ≠ 0) (fuel : ℕ)
    (hfuel : ws.length < fuel) (pAllocator : Option VkAllocationCallbacks) (r : SurfaceRequests) :
    ∃ res m' surface, createIcdSurface sizeofVkIcdSurface info fuel m createInfo pAllocator r = some (res, m', surface) ∧
      (∀ b, m.Owns b → m.Agree m' b) ∧
      (LeavesNothing m res m' surface ∨
        res = .success ∧ ∃ s kws cs, surface = some s ∧ kws.map Prod.fst = ws ∧ KnownChain info m createInfo kws ∧
          CopiesChain info m m' kws s.createInfo cs ∧
          m'.blocks = ⟨s.createInfo, totalSize kws⟩ :: ⟨s.address, sizeofVkIcdSurface⟩ :: m.blocks) ∧
      (res = .success ↔
        ∃ kws, KnownChain info m createInfo kws ∧ r.Granted sizeofVkIcdSurface (totalSize kws) m) := by
  obtain ⟨res, m₁, surface, hstruct, hagree₁, ⟨hnothing, hnot⟩ | ⟨rfl, hgranted, hblocks₁⟩⟩ :=
    allocateIcdSurface_cases sizeofVkIcdSurface m r
  · obtain rfl := hnothing.noSurface
    unfold createIcdSurface
    rw [hstruct]
    refine ⟨res, m₁, none, rfl, hagree₁, .inl hnothing, iff_of_false hnothing.fails ?_⟩
    rintro ⟨kws, -, hall⟩
    exact hnot hall.toStructGranted
  unfold createIcdSurface
  rw [hstruct, Option.bind_some]
  dsimp only
  have hkeep : ∀ b, m.Owns b → m₁.Owns b := fun b ⟨c, hc, hb⟩ => ⟨c, hblocks₁ ▸ List.mem_cons_of_mem _ hc, hb⟩
  have hcleanup : ∀ res ≠ VkResult.success, cleanupIcdSurface m₁ res (some ⟨r.icdSurface.1, 0, none⟩) =
      some { m₁ with blocks := m.blocks } := by
    intro res hres
    unfold cleanupIcdSurface
    dsimp only
    rw [if_pos hres, free_null, Option.bind_some, free_of_blocks hgranted.icdSurface.not_null hblocks₁]
  rcases known_or_unknown h with ⟨kws, rfl, hknown⟩ | ⟨a, ha, hnone⟩
  · rw [List.length_map] at hfuel
    have hchain₁ : KnownChain info m₁ createInfo kws := hknown.frame hkeep fun w hw => hagree₁ _ (hknown.owns w hw)
    rcases copyCreateInfo_of_known hchain₁ hne hfuel ⟨r.icdSurface.1, 0, none⟩ pAllocator r.createInfo with
      ⟨hcopy, hnot⟩ | ⟨m', hcopy, hfits, hcopies, hblocks, hagree⟩
    · -- no block for the copy
      rw [hcopy, Option.bind_some]
      dsimp only
      rw [hcleanup _ (by decide)]
      refine ⟨_, { m₁ with blocks := m.blocks }, none, rfl, hagree₁, .inl ⟨by decide, rfl, rfl⟩,
        iff_of_false (by decide) ?_⟩
      rintro ⟨kws', hknown', hall⟩
      obtain rfl := hknown.unique hknown'
      exact hnot (hblocks₁ ▸ hall.createInfo)
    · rw [hcopy, Option.bind_some]
      refine ⟨.success, m', _, rfl, fun b hb => (hagree₁ b hb).trans (hagree b (hkeep b hb)), .inr ⟨rfl, ?_⟩,
        iff_of_true rfl ⟨kws, hknown, hgranted, hblocks₁ ▸ hfits⟩⟩
      exact ⟨_, kws, _, rfl, rfl, hknown, hcopies.of_agree fun w hw => hagree₁ _ (hknown.owns w hw),
        hblocks.trans (congrArg _ hblocks₁)⟩
  · -- another structure in the chain
    obtain ⟨hchain₁, htypes⟩ := h.frame hkeep hagree₁
    rw [copyCreateInfo_of_unknown hchain₁ ⟨a, ha, (htypes a ha).symm ▸ hnone⟩ hfuel, Option.bind_some]
    dsimp only
    rw [hcleanup _ (by decide)]
    refine ⟨_, { m₁ with blocks := m.blocks }, none, rfl, hagree₁, .inl ⟨by decide, rfl, rfl⟩,
      iff_of_false (by decide) ?_⟩
    rintro ⟨kws, hknown, -⟩
    exact h.known hknown a ha hnone

/-- The sizes for a display surface; the types are numbered here. -/
def displaySurfaceTypes : List LoaderStructTypeInfo := [⟨1, 64, by decide⟩, ⟨2, 24, by decide⟩]

/-- A create info at address 64, and the structure for stereo that follows it at 128. -/
def stereoCreateInfo : ByteMemory where
  byte a := if a = 64 then 1 else if a = 72 then 128 else if a = 128 then 2 else 0
  blocks := [⟨64, 64⟩, ⟨128, 24⟩]

theorem createIcdSurface_copies_stereo :
    let r : SurfaceRequests := ⟨.success, (256, fun _ => 0), .success, (512, fun _ => 7)⟩
    ∃ res m' surface, createIcdSurface 96 displaySurfaceTypes 3 stereoCreateInfo 64 none r = some (res, m', surface) ∧
      (∀ b, stereoCreateInfo.Owns b → stereoCreateInfo.Agree m' b) ∧
      (LeavesNothing stereoCreateInfo res m' surface ∨
        res = .success ∧ ∃ s kws cs, surface = some s ∧ kws.map Prod.fst = [64, 128] ∧
          KnownChain displaySurfaceTypes stereoCreateInfo 64 kws ∧
          CopiesChain displaySurfaceTypes stereoCreateInfo m' kws s.createInfo cs ∧
          m'.blocks = ⟨s.createInfo, totalSize kws⟩ :: ⟨s.address, 96⟩ :: stereoCreateInfo.blocks) ∧
      (res = .success ↔
        ∃ kws, KnownChain displaySurfaceTypes stereoCreateInfo 64 kws ∧ r.Granted 96 (totalSize kws) stereoCreateInfo) :=
  createIcdSurface_copies 96 displaySurfaceTypes stereoCreateInfo 64 [64, 128]
    ⟨rfl, by decide, by decide, rfl, by decide, by decide, rfl⟩ (by decide) 3 (by decide) none
    ⟨.success, (256, fun _ => 0), .success, (512, fun _ => 7)⟩

end Create

end VulkanLoader
