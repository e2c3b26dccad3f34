import Mathlib.Data.List.GetD
import Mathlib.Data.UInt
import Mathlib.Tactic.Common

/-!
# A memory of bytes

Bytes at 64-bit addresses, and the blocks that are in use.  A request for a block takes the address that the allocator
proposes; it fails where no such block can be given.  Reading and writing outside of the blocks in use, and freeing what
is no block, is undefined and gives `none`.  Numbers are stored with the low byte first.
-/

namespace VulkanLoader.Lib

/-- The addresses from `start` up to, and without, `start + size`. -/
structure Block where
  start : ℕ
  size : ℕ
  deriving DecidableEq

namespace Block

def stop (b : Block) : ℕ := b.start + b.size

/-- The blocks have no address in common. -/
def Apart (b c : Block) : Prop := b.stop ≤ c.start ∨ c.stop ≤ b.start

/-- The addresses of `b` are addresses of `c`. -/
def Within (b c : Block) : Prop := c.start ≤ b.start ∧ b.stop ≤ c.stop

instance (b c : Block) : Decidable (b.Apart c) := inferInstanceAs (Decidable (_ ∨ _))

instance (b c : Block) : Decidable (b.Within c) := inferInstanceAs (Decidable (_ ∧ _))

variable {b b' c : Block} {p q n k : ℕ}

theorem apart_mk : Apart ⟨p, n⟩ ⟨q, k⟩ ↔ p + n ≤ q ∨ q + k ≤ p := Iff.rfl

theorem within_mk : Within ⟨p, n⟩ ⟨q, k⟩ ↔ q ≤ p ∧ p + n ≤ q + k := Iff.rfl

theorem Within.trans {a : Block} (h : a.Within b) (h' : b.Within c) : a.Within c :=
  ⟨h'.1.trans h.1, h.2.trans h'.2⟩

theorem Apart.symm (h : b.Apart c) : c.Apart b := Or.symm h

theorem Apart.within (h : b.Apart c) (hb : b'.Within b) : b'.Apart c :=
  h.imp (fun h => hb.2.trans h) fun h => h.trans hb.1

end Block

/-- Bytes, and the blocks in use. -/
structure ByteMemory where
  byte : ℕ → UInt8
  blocks : List Block

namespace ByteMemory

/-! ### Numbers -/

/-- The number that the bytes spell. -/
def spelled : List UInt8 → ℕ
  | [] => 0
  | b :: bs => b.toNat + 256 * spelled bs

/-- The bytes that spell a number. -/
def spell : ℕ → ℕ → List UInt8
  | 0, _ => []
  | n + 1, x => UInt8.ofNat x :: spell n (x / 256)

@[simp] theorem length_spell (n x : ℕ) : (spell n x).length = n := by
  induction n generalizing x with
  | zero => rfl
  | succ n ih => rw [spell, List.length_cons, ih]

theorem spelled_spell (n : ℕ) {x : ℕ} (hx : x < 256 ^ n) : spelled (spell n x) = x := by
  induction n generalizing x with
  | zero =>
    rw [Nat.pow_zero, Nat.lt_one_iff] at hx
    exact hx.symm
  | succ n ih =>
    have hlt : x / 256 < 256 ^ n := Nat.div_lt_of_lt_mul (by rwa [Nat.pow_succ'] at hx)
    rw [spell, spelled, ih hlt, UInt8.toNat_ofNat']
    omega

/-! ### Reading and writing -/

/-- The block is part of a block in use. -/
def Owns (m : ByteMemory) (b : Block) : Prop := ∃ c ∈ m.blocks, b.Within c

instance (m : ByteMemory) (b : Block) : Decidable (m.Owns b) := inferInstanceAs (Decidable (∃ c ∈ m.blocks, _))

/-- The bytes of a block. -/
def bytes (m : ByteMemory) (b : Block) : List UInt8 := (List.range b.size).map fun i => m.byte (b.start + i)

/-- The bytes from `start` on are replaced. -/
def store (m : ByteMemory) (start : ℕ) (bs : List UInt8) : ByteMemory :=
  { m with byte := fun a => if start ≤ a ∧ a < start + bs.length then bs.getD (a - start) 0 else m.byte a }

def read (m : ByteMemory) (b : Block) : Option (List UInt8) := if m.Owns b then some (m.bytes b) else none

def write (m : ByteMemory) (start : ℕ) (bs : List UInt8) : Option ByteMemory :=
  if m.Owns ⟨start, bs.length⟩ then some (m.store start bs) else none

/-- `memcpy`. -/
def copy (m : ByteMemory) (dst src n : ℕ) : Option ByteMemory := (m.read ⟨src, n⟩).bind (m.write dst)

/-- The pointer that is stored at an address. -/
def pointer (m : ByteMemory) (a : ℕ) : ℕ := spelled (m.bytes ⟨a, 8⟩)

/-! ### Blocks -/

/-- A request for a block; the allocator proposes an address, and what the block holds. -/
def alloc (m : ByteMemory) (size : ℕ) (proposal : ℕ × (ℕ → UInt8)) : Option (ℕ × ByteMemory) :=
  if proposal.1 ≠ 0 ∧ proposal.1 + size < 2 ^ 64 ∧ ∀ b ∈ m.blocks, b.start ≠ proposal.1 ∧ b.Apart ⟨proposal.1, size⟩ then
    some (proposal.1, ⟨fun a => if proposal.1 ≤ a ∧ a < proposal.1 + size then proposal.2 a else m.byte a,
      ⟨proposal.1, size⟩ :: m.blocks⟩)
  else none

/-- A block that can be handed out: it is not at null, ends in the address space, and is apart from those in use. -/
structure Fits (blocks : List Block) (b : Block) : Prop where
  not_null : b.start ≠ 0
  lt : b.stop < 2 ^ 64
  apart : ∀ c ∈ blocks, c.start ≠ b.start ∧ c.Apart b

def free (m : ByteMemory) (p : ℕ) : Option ByteMemory :=
  if p = 0 then some m
  else if m.blocks.any (·.start = p) then some { m with blocks := m.blocks.eraseP (·.start = p) }
  else none

/-! ### What changes -/

/-- The memories have the same bytes in a block. -/
def Agree (m m' : ByteMemory) (b : Block) : Prop := ∀ a, b.start ≤ a → a < b.stop → m'.byte a = m.byte a

variable {m m' m'' : ByteMemory} {b c : Block} {start dst src n p : ℕ} {bs : List UInt8}

@[simp] theorem length_bytes (m : ByteMemory) (b : Block) : (m.bytes b).length = b.size := by simp [bytes]

theorem Agree.refl (m : ByteMemory) (b : Block) : m.Agree m b := fun _ _ _ => rfl

theorem Agree.trans (h : m.Agree m' b) (h' : m'.Agree m'' b) : m.Agree m'' b :=
  fun a h₁ h₂ => (h' a h₁ h₂).trans (h a h₁ h₂)

theorem Agree.within (h : m.Agree m' b) (hc : c.Within b) : m.Agree m' c :=
  fun a h₁ h₂ => h a (hc.1.trans h₁) (h₂.trans_le hc.2)

theorem Agree.bytes_eq (h : m.Agree m' b) : m'.bytes b = m.bytes b := by
  refine List.map_congr_left fun i hi => h _ (Nat.le_add_right _ _) ?_
  exact Nat.add_lt_add_left (List.mem_range.1 hi) _

theorem Agree.pointer_eq {a : ℕ} (h : m.Agree m' ⟨a, 8⟩) : m'.pointer a = m.pointer a := congrArg spelled h.bytes_eq

/-- Two blocks with the same bytes agree address by address. -/
theorem byte_eq_of_bytes_eq {m m' : ByteMemory} {a a' : ℕ} (h : m'.bytes ⟨a', n⟩ = m.bytes ⟨a, n⟩) {i : ℕ} (hi : i < n) :
    m'.byte (a' + i) = m.byte (a + i) := List.map_inj_left.1 h i (List.mem_range.2 hi)

/-- So do the parts of them. -/
theorem bytes_part {m m' : ByteMemory} {a a' i k : ℕ} (h : m'.bytes ⟨a', n⟩ = m.bytes ⟨a, n⟩) (hik : i + k ≤ n) :
    m'.bytes ⟨a' + i, k⟩ = m.bytes ⟨a + i, k⟩ := by
  refine List.map_congr_left fun j hj => ?_
  have hlt : j < k := List.mem_range.1 hj
  have hbyte := byte_eq_of_bytes_eq h (show i + j < n by omega)
  rwa [← Nat.add_assoc, ← Nat.add_assoc] at hbyte

theorem agree_store (hb : b.Apart ⟨start, bs.length⟩) : m.Agree (m.store start bs) b := by
  intro a h₁ h₂
  refine if_neg fun h => ?_
  rcases hb with hb | hb
  · exact absurd (h₂.trans_le hb) (Nat.not_lt.2 h.1)
  · exact absurd (h.2.trans_le hb) (Nat.not_lt.2 h₁)

theorem bytes_store_self (m : ByteMemory) (start : ℕ) (bs : List UInt8) :
    (m.store start bs).bytes ⟨start, bs.length⟩ = bs := by
  refine List.ext_getElem (length_bytes _ _) fun i _ hi => ?_
  simp only [bytes, List.getElem_map, List.getElem_range]
  refine (if_pos ⟨Nat.le_add_right _ _, Nat.add_lt_add_left hi _⟩).trans ?_
  rw [Nat.add_sub_cancel_left, List.getD_eq_getElem _ _ hi]

theorem pointer_store_self (m : ByteMemory) (start : ℕ) {x : ℕ} (hx : x < 2 ^ 64) :
    (m.store start (spell 8 x)).pointer start = x := by
  have hbytes := bytes_store_self m start (spell 8 x)
  rw [length_spell] at hbytes
  unfold pointer
  rw [hbytes, spelled_spell 8 (by simpa using hx)]

theorem read_of_owns (h : m.Owns b) : m.read b = some (m.bytes b) := if_pos h

theorem write_of_owns (h : m.Owns ⟨start, bs.length⟩) : m.write start bs = some (m.store start bs) := if_pos h

theorem Owns.within (h : m.Owns b) (hc : c.Within b) : m.Owns c := by
  obtain ⟨d, hd, hb⟩ := h
  exact ⟨d, hd, hc.trans hb⟩

theorem owns_congr (h : m'.blocks = m.blocks) : m'.Owns b ↔ m.Owns b := by rw [Owns, h, Owns]

/-- **Copying** from one block in use to another. -/
theorem copy_of_owns (hsrc : m.Owns ⟨src, n⟩) (hdst : m.Owns ⟨dst, n⟩) :
    ∃ m', m.copy dst src n = some m' ∧ m'.blocks = m.blocks ∧ m'.bytes ⟨dst, n⟩ = m.bytes ⟨src, n⟩ ∧
      ∀ b : Block, b.Apart ⟨dst, n⟩ → m.Agree m' b := by
  have hlength : (m.bytes ⟨src, n⟩).length = n := length_bytes _ _
  refine ⟨m.store dst (m.bytes ⟨src, n⟩), ?_, rfl, ?_, fun b hb => agree_store (hlength.symm ▸ hb)⟩
  · rw [copy, read_of_owns hsrc, Option.bind_some, write_of_owns (hlength.symm ▸ hdst)]
  · have hself := bytes_store_self m dst (m.bytes ⟨src, n⟩)
    rwa [hlength] at hself

/-- **Writing a pointer** to a block in use. -/
theorem write_pointer_of_owns {x : ℕ} (hx : x < 2 ^ 64) (hown : m.Owns ⟨start, 8⟩) :
    ∃ m', m.write start (spell 8 x) = some m' ∧ m'.blocks = m.blocks ∧ m'.pointer start = x ∧
      ∀ b : Block, b.Apart ⟨start, 8⟩ → m.Agree m' b :=
  ⟨m.store start (spell 8 x), write_of_owns hown, rfl, pointer_store_self m start hx, fun _ hb => agree_store hb⟩

theorem Fits.apart_of_owns (h : Fits m.blocks c) (hb : m.Owns b) : b.Apart c := by
  obtain ⟨d, hd, hbd⟩ := hb
  exact (h.apart d hd).2.within hbd

/-- **A block is granted** if it fits, and is new. -/
theorem alloc_cases (m : ByteMemory) (size : ℕ) (proposal : ℕ × (ℕ → UInt8)) :
    (m.alloc size proposal = none ∧ ¬ Fits m.blocks ⟨proposal.1, size⟩) ∨
      ∃ m', m.alloc size proposal = some (proposal.1, m') ∧ Fits m.blocks ⟨proposal.1, size⟩ ∧
        m'.blocks = ⟨proposal.1, size⟩ :: m.blocks ∧ ∀ b, m.Owns b → m.Agree m' b := by
  unfold alloc
  split_ifs with h
  · have hfits : Fits m.blocks ⟨proposal.1, size⟩ := ⟨h.1, h.2.1, h.2.2⟩
    refine .inr ⟨_, rfl, hfits, rfl, fun b hb a h₁ h₂ => if_neg fun hin => ?_⟩
    rcases hfits.apart_of_owns hb with hapart | hapart
    · exact absurd (h₂.trans_le hapart) (Nat.not_lt.2 hin.1)
    · exact absurd (hin.2.trans_le hapart) (Nat.not_lt.2 h₁)
  · exact .inl ⟨rfl, fun hfits => h ⟨hfits.not_null, hfits.lt, hfits.apart⟩⟩

/-- The block that was allocated last is freed. -/
theorem free_of_blocks {blocks : List Block} (hp : p ≠ 0) (h : m.blocks = ⟨p, n⟩ :: blocks) :
    m.free p = some { m with blocks := blocks } := by
  unfold free
  rw [if_neg hp, h, if_pos (by simp), List.eraseP_cons_of_pos (by simp)]

@[simp] theorem free_null (m : ByteMemory) : m.free 0 = some m := if_pos rfl

end ByteMemory

end VulkanLoader.Lib
