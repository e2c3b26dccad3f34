import VulkanLoader.Lib.LexicalPaths
import VulkanLoader.Manifests.Fields
import VulkanLoader.Settings.PathSearch

/-!
# Paths made normal in place (`normalize_path`)

What is left to the loader where there is neither `realpath` nor `GetFullPathName`.  A first loop drops separators that
are repeated and `/./`, in the string itself; a second one goes through what is left with a stack of characters, from
which it takes a component at each `/../`.

A read or a write outside of the string or of the stack leaves a run without a result.  The stack is `alloca`'s, which
does not fail; what it holds at first is open.
-/

namespace VulkanLoader

open VulkanLoader.Lib

/-- `storage[i] = c`. -/
def putChar (storage : List Char) (i : ℕ) (c : Char) : Option (List Char) :=
  if i < storage.length then some (storage.set i c) else none

/-- The first loop: the string, and how much of it was written. -/
def collapseLoop (pathLen : ℕ) : ℕ → ℕ → ℕ → List Char → Option (ℕ × List Char)
  | 0, _, _, _ => none
  | fuel + 1, i, outputIndex, path =>
    if pathLen - 1 ≤ i then some (outputIndex, path)
    else if i + 1 < pathLen ∧ path[i]? = some directorySymbol ∧ path[i + 1]? = some directorySymbol then
      collapseLoop pathLen fuel (i + 1) outputIndex path
    else if i + 2 < pathLen ∧ path[i]? = some directorySymbol ∧ path[i + 1]? = some '.' ∧
        path[i + 2]? = some directorySymbol then
      collapseLoop pathLen fuel (i + 2) outputIndex path
    else do
      let c ← path[i]?
      let path ← putChar path outputIndex c
      collapseLoop pathLen fuel (i + 1) (outputIndex + 1) path

/-- The stack loses the characters above the top separator. -/
def popCharacters : ℕ → List Char → Option (ℕ × List Char)
  | 0, stack => some (0, stack)
  | top + 1, stack =>
    if stack[top]? = some directorySymbol then some (top + 1, stack)
    else do
      let stack ← putChar stack top '\x00'
      popCharacters top stack

/-- The stack loses its top component, and the separator below it. -/
def popDirectory (top : ℕ) (stack : List Char) : Option (ℕ × List Char) := do
  let (top, stack) ← popCharacters top stack
  if 0 < top ∧ stack[top - 1]? = some directorySymbol then
    let stack ← putChar stack (top - 1) '\x00'
    some (top - 1, stack)
  else some (top, stack)

/-- The second loop, through a path that does not change. -/
def resolveLoop (path : List Char) (pathLen : ℕ) : ℕ → ℕ → ℕ → List Char → Option (ℕ × List Char)
  | 0, _, _, _ => none
  | fuel + 1, i, top, stack =>
    if pathLen - 1 ≤ i then some (top, stack)
    else if i + 3 < pathLen ∧ path[i]? = some directorySymbol ∧ path[i + 1]? = some '.' ∧ path[i + 2]? = some '.' ∧
        path[i + 3]? = some directorySymbol then do
      let (top, stack) ← popDirectory top stack
      resolveLoop path pathLen fuel (i + 3) top stack
    else do
      let c ← path[i]?
      let stack ← putChar stack top c
      resolveLoop path pathLen fuel (i + 1) (top + 1) stack

/-- `strncpy`: the characters before the terminator, and NULs. -/
def strncpy (dest src : List Char) (count : ℕ) : Option (List Char) :=
  if count ≤ dest.length then
    let copied := (src.takeWhile (· ≠ '\x00')).take count
    some (copied ++ List.replicate (count - copied.length) '\x00' ++ dest.drop count)
  else none

/-- The fallback of `normalize_path`: what becomes of the storage of the string. -/
def normalizePath (fill : ℕ → Char) (passedInPath : CString) : Option (List Char) := do
  let path := passedInPath.bytes ++ ['\x00']
  let pathLen := passedInPath.len + 1
  let (outputIndex, path) ← collapseLoop pathLen pathLen 0 0 path
  let path ← putChar path outputIndex '\x00'
  let pathLen := outputIndex + 1
  let (top, stack) ← resolveLoop path pathLen pathLen 0 0 ((List.range pathLen).map fill)
  let stack ← putChar stack top '\x00'
  let path ← strncpy path stack pathLen
  putChar path top '\x00'

/-! ### What the loops make of a string -/

/-- The first loop, on the string. -/
def collapsed : List Char → List Char
  | [] => []
  | c :: p =>
    if c = directorySymbol ∧ p[0]? = some directorySymbol then collapsed p
    else if c = directorySymbol ∧ p[0]? = some '.' ∧ p[1]? = some directorySymbol then collapsed p.tail
    else c :: collapsed p
termination_by p => p.length
decreasing_by all_goals (simp only [List.length_cons, List.length_tail]; omega)

/-- The stack without its top component; the top comes first. -/
def popped (stack : List Char) : List Char := (stack.dropWhile (· ≠ directorySymbol)).tail

/-- The second loop, on the string: the stack that is left. -/
def resolved (stack : List Char) : List Char → List Char
  | [] => stack
  | c :: p =>
    if c = directorySymbol ∧ p[0]? = some '.' ∧ p[1]? = some '.' ∧ p[2]? = some directorySymbol then
      resolved (popped stack) (p.drop 2)
    else resolved (c :: stack) p
termination_by p => p.length
decreasing_by all_goals (simp only [List.length_cons, List.length_drop]; omega)

/-! ### The loops on the storage -/

section Storage

/-- The storage begins with what is on a stack, the top of which comes last there. -/
structure Holds (storage stack : List Char) : Prop where
  take : storage.take stack.length = stack.reverse
  length_le : stack.length ≤ storage.length

variable {storage stack path p : List Char} {c d : Char} {i k n pathLen fuel : ℕ}

theorem holds_nil (storage : List Char) : Holds storage [] := ⟨rfl, Nat.zero_le _⟩

theorem putChar_of_lt (h : i < storage.length) (c : Char) : putChar storage i c = some (storage.set i c) := if_pos h

theorem Holds.top (h : Holds storage (c :: stack)) : storage[stack.length]? = some c := by
  have hlt : stack.length < (c :: stack).length := Nat.lt_succ_self _
  rw [← List.getElem?_take_of_lt hlt, h.take, List.reverse_cons, List.getElem?_append_right (by simp)]
  simp

theorem Holds.tail (h : Holds storage (c :: stack)) : Holds storage stack := by
  refine ⟨?_, (Nat.le_succ _).trans h.length_le⟩
  have htake := congrArg (List.take stack.length) h.take
  rw [List.take_take, List.length_cons, min_eq_left (Nat.le_succ _), List.reverse_cons,
    List.take_left' (List.length_reverse)] at htake
  exact htake

/-- A write above the top. -/
theorem Holds.set (h : Holds storage stack) (hi : stack.length ≤ i) (c : Char) : Holds (storage.set i c) stack := by
  refine ⟨?_, by rw [List.length_set]; exact h.length_le⟩
  rw [List.take_set_of_le hi, h.take]

theorem Holds.push (h : Holds storage stack) (hlt : stack.length < storage.length) (c : Char) :
    Holds (storage.set stack.length c) (c :: stack) := by
  refine ⟨?_, by rw [List.length_set]; exact hlt⟩
  rw [List.length_cons, List.take_add_one, List.take_set_of_le le_rfl, h.take, List.getElem?_set_self hlt,
    List.reverse_cons]
  rfl

/-- The string and its terminator fill what is left. -/
theorem length_of_drop (h : (path.take pathLen).drop i = p ++ ['\x00']) (hlen : pathLen ≤ path.length) :
    i + p.length + 1 = pathLen := by
  have hlength := congrArg List.length h
  simp only [List.length_drop, List.length_take, List.length_append, List.length_singleton] at hlength
  omega

/-- A character of the string is read, and not the terminator. -/
theorem read_iff (h : (path.take pathLen).drop i = p ++ ['\x00']) (hd : d ≠ '\x00') (k : ℕ) :
    i + k < pathLen ∧ path[i + k]? = some d ↔ p[k]? = some d := by
  have hread : (p ++ ['\x00'])[k]? = some d ↔ p[k]? = some d := by
    rcases lt_trichotomy k p.length with hlt | rfl | hgt
    · rw [List.getElem?_append_left hlt]
    · simp [hd.symm]
    · rw [List.getElem?_eq_none (by simp; omega), List.getElem?_eq_none (by omega)]
  rw [← hread, ← h, List.getElem?_drop]
  constructor
  · rintro ⟨hlt, hget⟩
    rwa [List.getElem?_take_of_lt hlt]
  · intro hget
    have hlt : i + k < pathLen := by
      have hlen := (List.getElem?_eq_some_iff.1 hget).1
      rw [List.length_take] at hlen
      omega
    rw [List.getElem?_take_of_lt hlt] at hget
    exact ⟨hlt, hget⟩

theorem read_head (h : (path.take pathLen).drop i = c :: p ++ ['\x00']) : path[i]? = some c := by
  have hget : ((path.take pathLen).drop i)[0]? = some c := by rw [h]; rfl
  rw [List.getElem?_drop, Nat.add_zero] at hget
  have hlt : i < pathLen := by
    have hlen := (List.getElem?_eq_some_iff.1 hget).1
    rw [List.length_take] at hlen
    omega
  rwa [List.getElem?_take_of_lt hlt] at hget

theorem drop_succ (h : (path.take pathLen).drop i = c :: p ++ ['\x00']) :
    (path.take pathLen).drop (i + 1) = p ++ ['\x00'] := by
  rw [← List.drop_drop, h]
  rfl

/-- Two separators in a row. -/
theorem repeated_iff (h : (path.take pathLen).drop i = c :: p ++ ['\x00']) :
    (i + 1 < pathLen ∧ path[i]? = some directorySymbol ∧ path[i + 1]? = some directorySymbol) ↔
      c = directorySymbol ∧ p[0]? = some directorySymbol := by
  rw [read_head h, Option.some_inj, ← read_iff (drop_succ h) (by decide) 0]
  tauto

/-- The first loop meets `/./`. -/
theorem current_iff (h : (path.take pathLen).drop i = c :: p ++ ['\x00']) :
    (i + 2 < pathLen ∧ path[i]? = some directorySymbol ∧ path[i + 1]? = some '.' ∧
        path[i + 2]? = some directorySymbol) ↔
      c = directorySymbol ∧ p[0]? = some '.' ∧ p[1]? = some directorySymbol := by
  rw [read_head h, Option.some_inj, ← read_iff (drop_succ h) (by decide) 0, ← read_iff (drop_succ h) (by decide) 1]
  constructor
  · rintro ⟨hlt, hc, hdot, hsep⟩
    exact ⟨hc, ⟨by omega, hdot⟩, hlt, hsep⟩
  · rintro ⟨hc, ⟨-, hdot⟩, hlt, hsep⟩
    exact ⟨hlt, hc, hdot, hsep⟩

/-- The second loop meets `/../`. -/
theorem parent_iff (h : (path.take pathLen).drop i = c :: p ++ ['\x00']) :
    (i + 3 < pathLen ∧ path[i]? = some directorySymbol ∧ path[i + 1]? = some '.' ∧ path[i + 2]? = some '.' ∧
        path[i + 3]? = some directorySymbol) ↔
      c = directorySymbol ∧ p[0]? = some '.' ∧ p[1]? = some '.' ∧ p[2]? = some directorySymbol := by
  rw [read_head h, Option.some_inj, ← read_iff (drop_succ h) (by decide) 0, ← read_iff (drop_succ h) (by decide) 1,
    ← read_iff (drop_succ h) (by decide) 2]
  constructor
  · rintro ⟨hlt, hc, hdot, hdot', hsep⟩
    exact ⟨hc, ⟨by omega, hdot⟩, ⟨by omega, hdot'⟩, hlt, hsep⟩
  · rintro ⟨hc, ⟨-, hdot⟩, ⟨-, hdot'⟩, hlt, hsep⟩
    exact ⟨hlt, hc, hdot, hdot', hsep⟩

/-- **The first loop writes what is left of the string** over its beginning. -/
theorem collapseLoop_spec (h : (path.take pathLen).drop i = p ++ ['\x00']) (hlen : path.length = pathLen)
    (hstack : Holds path stack) (hle : stack.length ≤ i) (hfuel : p.length < fuel) :
    ∃ path', collapseLoop pathLen fuel i stack.length path = some (stack.length + (collapsed p).length, path') ∧
      path'.length = pathLen ∧ Holds path' ((collapsed p).reverse ++ stack) ∧
      stack.length + (collapsed p).length ≤ i + p.length := by
  induction p using collapsed.induct generalizing path stack i fuel with
  | case1 =>
    obtain ⟨fuel, rfl⟩ := Nat.exists_eq_succ_of_ne_zero (Nat.ne_of_gt hfuel)
    have hend := length_of_drop h hlen.ge
    rw [List.length_nil] at hend
    refine ⟨path, ?_, hlen, by simpa [collapsed] using hstack, by simpa [collapsed] using hle⟩
    rw [collapseLoop, if_pos (by omega)]
    simp [collapsed]
  | case2 c p hrepeated ih =>
    obtain ⟨fuel, rfl⟩ := Nat.exists_eq_succ_of_ne_zero (Nat.ne_of_gt (Nat.zero_lt_of_lt hfuel))
    have hend := length_of_drop h hlen.ge
    rw [List.length_cons] at hend hfuel ⊢
    rw [collapseLoop, if_neg (by omega), if_pos ((repeated_iff h).2 hrepeated), collapsed, if_pos hrepeated]
    obtain ⟨path', hrun, hlen', hholds, hle'⟩ :=
      ih (drop_succ h) hlen hstack (Nat.le_succ_of_le hle) (Nat.lt_of_succ_lt_succ hfuel)
    exact ⟨path', hrun, hlen', hholds, by omega⟩
  | case3 c p hrepeated hcurrent ih =>
    obtain ⟨fuel, rfl⟩ := Nat.exists_eq_succ_of_ne_zero (Nat.ne_of_gt (Nat.zero_lt_of_lt hfuel))
    have hend := length_of_drop h hlen.ge
    rw [List.length_cons] at hend hfuel ⊢
    rw [collapseLoop, if_neg (by omega), if_neg ((repeated_iff h).not.2 hrepeated), if_pos ((current_iff h).2 hcurrent),
      collapsed, if_neg hrepeated, if_pos hcurrent]
    -- the dot is passed too
    rcases p with _ | ⟨d, p⟩
    · cases hcurrent.2.1
    rw [List.length_cons] at hend hfuel ⊢
    obtain ⟨path', hrun, hlen', hholds, hle'⟩ :=
      ih (drop_succ (drop_succ h)) hlen hstack (by omega) (Nat.lt_of_succ_lt (Nat.lt_of_succ_lt_succ hfuel))
    exact ⟨path', hrun, hlen', hholds, by rw [List.tail_cons] at hle' ⊢; omega⟩
  | case4 c p hrepeated hcurrent ih =>
    obtain ⟨fuel, rfl⟩ := Nat.exists_eq_succ_of_ne_zero (Nat.ne_of_gt (Nat.zero_lt_of_lt hfuel))
    have hend := length_of_drop h hlen.ge
    rw [List.length_cons] at hend hfuel ⊢
    have hlt : stack.length < path.length := by omega
    have hdrop : ((path.set stack.length c).take pathLen).drop (i + 1) = p ++ ['\x00'] := by
      rw [List.take_set, List.drop_set_of_lt (Nat.lt_succ_of_le hle)]
      exact drop_succ h
    rw [collapseLoop, if_neg (by omega), if_neg ((repeated_iff h).not.2 hrepeated),
      if_neg ((current_iff h).not.2 hcurrent), collapsed, if_neg hrepeated, if_neg hcurrent, read_head h]
    obtain ⟨path', hrun, hlen', hholds, hle'⟩ :=
      ih hdrop (by rw [List.length_set, hlen]) (hstack.push hlt c) (Nat.succ_le_succ hle) (Nat.lt_of_succ_lt_succ hfuel)
    rw [List.length_cons] at hle'
    refine ⟨path', ?_, hlen', by simpa using hholds, by rw [List.length_cons]; omega⟩
    rw [Option.bind_eq_bind, Option.bind_some, putChar_of_lt hlt, Option.bind_eq_bind, Option.bind_some]
    rw [List.length_cons] at hrun ⊢
    rw [hrun, Nat.add_right_comm, Nat.add_assoc]

/-- The characters above the top separator are popped. -/
theorem popCharacters_spec (hstack : Holds storage stack) :
    ∃ storage', popCharacters stack.length storage =
        some ((stack.dropWhile (· ≠ directorySymbol)).length, storage') ∧
      storage'.length = storage.length ∧ Holds storage' (stack.dropWhile (· ≠ directorySymbol)) := by
  induction stack generalizing storage with
  | nil => exact ⟨storage, rfl, rfl, hstack⟩
  | cons c stack ih =>
    rw [List.length_cons, popCharacters, hstack.top]
    by_cases hc : c = directorySymbol
    · rw [if_pos (congrArg some hc), List.dropWhile_cons_of_neg (by simpa using hc)]
      exact ⟨storage, rfl, rfl, hstack⟩
    · have hlt : stack.length < storage.length := hstack.length_le
      rw [if_neg fun h => hc (Option.some.inj h), List.dropWhile_cons_of_pos (by simpa using hc), putChar_of_lt hlt]
      obtain ⟨storage', hrun, hlen, hholds⟩ := ih (hstack.tail.set le_rfl '\x00')
      exact ⟨storage', hrun, hlen.trans (List.length_set), hholds⟩

/-- **A directory is popped**, if there is one. -/
theorem popDirectory_spec (hstack : Holds storage stack) :
    ∃ storage', popDirectory stack.length storage = some ((popped stack).length, storage') ∧
      storage'.length = storage.length ∧ Holds storage' (popped stack) := by
  obtain ⟨storage', hrun, hlen, hholds⟩ := popCharacters_spec hstack
  unfold popDirectory popped
  rw [hrun, Option.bind_eq_bind, Option.bind_some]
  dsimp only
  rcases dropWhile_ne_eq directorySymbol stack with hnil | ⟨rest, hrest⟩
  · rw [hnil] at hholds ⊢
    exact ⟨storage', if_neg fun h => absurd h.1 (Nat.lt_irrefl 0), hlen, hholds⟩
  · rw [hrest] at hholds ⊢
    have hlt : rest.length < storage'.length := hholds.length_le
    rw [List.length_cons, Nat.add_sub_cancel, if_pos ⟨Nat.succ_pos _, hholds.top⟩, putChar_of_lt hlt]
    exact ⟨_, rfl, (List.length_set).trans hlen, hholds.tail.set le_rfl '\x00'⟩

theorem length_popped_le (stack : List Char) : (popped stack).length ≤ stack.length := by
  unfold popped
  rw [List.length_tail]
  exact (Nat.sub_le _ _).trans (List.length_dropWhile_le _ _)

/-- **The second loop leaves what it makes of the string** on the stack. -/
theorem resolveLoop_spec (h : (path.take pathLen).drop i = p ++ ['\x00']) (hlen : pathLen ≤ path.length)
    (hstorage : storage.length = pathLen) (hstack : Holds storage stack) (hle : stack.length ≤ i)
    (hfuel : p.length < fuel) :
    ∃ storage', resolveLoop path pathLen fuel i stack.length storage = some ((resolved stack p).length, storage') ∧
      storage'.length = pathLen ∧ Holds storage' (resolved stack p) ∧ (resolved stack p).length ≤ i + p.length := by
  induction stack, p using resolved.induct generalizing storage i fuel with
  | case1 stack =>
    obtain ⟨fuel, rfl⟩ := Nat.exists_eq_succ_of_ne_zero (Nat.ne_of_gt hfuel)
    have hend := length_of_drop h hlen
    rw [List.length_nil] at hend
    rw [resolveLoop, if_pos (by omega), resolved]
    exact ⟨storage, rfl, hstorage, hstack, hle⟩
  | case2 stack c p hparent ih =>
    obtain ⟨fuel, rfl⟩ := Nat.exists_eq_succ_of_ne_zero (Nat.ne_of_gt (Nat.zero_lt_of_lt hfuel))
    have hend := length_of_drop h hlen
    rw [List.length_cons] at hend hfuel ⊢
    obtain ⟨storage₁, hpop, hlen₁, hholds₁⟩ := popDirectory_spec hstack
    have hle₁ := length_popped_le stack
    rw [resolveLoop, if_neg (by omega), if_pos ((parent_iff h).2 hparent), hpop, resolved, if_pos hparent]
    -- the two dots are passed too
    rcases p with _ | ⟨d, _ | ⟨e, p⟩⟩
    · cases hparent.2.1
    · cases hparent.2.2.1
    simp only [List.length_cons] at hend hfuel ⊢
    have hfuel' : p.length < fuel := by omega
    obtain ⟨storage', hrun, hlen', hholds, hle'⟩ :=
      ih (drop_succ (drop_succ (drop_succ h))) (hlen₁.trans hstorage) hholds₁ (by omega) hfuel'
    simp only [List.drop_succ_cons, List.drop_zero] at hrun hholds hle' ⊢
    exact ⟨storage', hrun, hlen', hholds, by omega⟩
  | case3 stack c p hparent ih =>
    obtain ⟨fuel, rfl⟩ := Nat.exists_eq_succ_of_ne_zero (Nat.ne_of_gt (Nat.zero_lt_of_lt hfuel))
    have hend := length_of_drop h hlen
    rw [List.length_cons] at hend hfuel ⊢
    have hlt : stack.length < storage.length := by omega
    rw [resolveLoop, if_neg (by omega), if_neg ((parent_iff h).not.2 hparent), read_head h, resolved, if_neg hparent]
    obtain ⟨storage', hrun, hlen', hholds, hle'⟩ :=
      ih (drop_succ h) ((List.length_set).trans hstorage) (hstack.push hlt c) (Nat.succ_le_succ hle)
        (Nat.lt_of_succ_lt_succ hfuel)
    refine ⟨storage', ?_, hlen', hholds, by omega⟩
    rw [Option.bind_eq_bind, Option.bind_some, putChar_of_lt hlt, Option.bind_eq_bind, Option.bind_some]
    exact hrun

end Storage

/-! ### The loops on the components -/

section Components

/-- `..`. -/
def parentDirectory : List Char := ['.', '.']

variable {first w p q stack last : List Char} {cs ds : List (List Char)}

theorem collapsed_append (hw : directorySymbol ∉ w) : collapsed (w ++ q) = w ++ collapsed q := by
  induction w with
  | nil => rfl
  | cons c w ih =>
    obtain ⟨hc, hw⟩ := not_or.1 fun h => hw (List.mem_cons.2 h)
    rw [List.cons_append, collapsed, if_neg fun h => hc h.1.symm, if_neg fun h => hc h.1.symm, ih hw, List.cons_append]

theorem resolved_append (hw : directorySymbol ∉ w) (stack : List Char) :
    resolved stack (w ++ q) = resolved (w.reverse ++ stack) q := by
  induction w generalizing stack with
  | nil => rfl
  | cons c w ih =>
    obtain ⟨hc, hw⟩ := not_or.1 fun h => hw (List.mem_cons.2 h)
    rw [List.cons_append, resolved, if_neg fun h => hc h.1.symm, ih hw, List.reverse_cons, List.append_assoc]
    rfl

/-- The last component stays as it is. -/
theorem collapsed_last (hw : directorySymbol ∉ w) : collapsed (directorySymbol :: w) = directorySymbol :: w := by
  have hnot : ∀ k, w[k]? ≠ some directorySymbol := fun k h => hw (List.mem_of_getElem? h)
  have happend := @collapsed_append w [] hw
  rw [List.append_nil, collapsed, List.append_nil] at happend
  rw [collapsed, if_neg fun h => hnot 0 h.2, if_neg fun h => hnot 1 h.2.2, happend]

/-- A component that a separator follows is dropped if it stays where it is. -/
theorem collapsed_interior (hw : directorySymbol ∉ w) :
    collapsed (directorySymbol :: w ++ directorySymbol :: q) =
      if stays '.' w then collapsed (directorySymbol :: q)
      else directorySymbol :: w ++ collapsed (directorySymbol :: q) := by
  rcases w with _ | ⟨a, w⟩
  · rw [List.cons_append, collapsed, if_pos ⟨rfl, rfl⟩]
    rfl
  · obtain ⟨ha, hw'⟩ := not_or.1 fun h => hw (List.mem_cons.2 h)
    have hrepeated : (a :: w ++ directorySymbol :: q)[0]? ≠ some directorySymbol := fun h =>
      ha (Option.some.inj h).symm
    rw [List.cons_append, collapsed, if_neg fun h => hrepeated h.2]
    rcases w with _ | ⟨b, w⟩
    · by_cases hdot : a = '.'
      · subst hdot
        rw [if_pos ⟨rfl, rfl, rfl⟩]
        rfl
      · rw [if_neg fun h => hdot (Option.some.inj h.2.1), collapsed_append hw,
          if_neg fun h => hdot (by simpa [stays] using h)]
        rfl
    · have hb : directorySymbol ≠ b := fun h => hw' (h ▸ List.mem_cons_self)
      rw [if_neg fun h => hb (Option.some.inj h.2.2).symm, collapsed_append hw,
        if_neg fun h => absurd h (by simp [stays])]
      rfl

/-- **The first loop drops the components that stay where they are**, but for the first and the last. -/
theorem collapsed_slashed (hfirst : directorySymbol ∉ first) (hcs : ∀ c ∈ cs, directorySymbol ∉ c)
    (hlast : directorySymbol ∉ last) :
    collapsed (first ++ slashed directorySymbol (cs ++ [last])) =
      first ++ slashed directorySymbol ((cs.filter fun c => !stays '.' c) ++ [last]) := by
  rw [collapsed_append hfirst]
  congr 1
  induction cs with
  | nil =>
    rw [List.filter_nil, List.nil_append, slashed_cons, slashed_nil, List.append_nil]
    exact collapsed_last hlast
  | cons c cs ih =>
    obtain ⟨hc, hcs⟩ := List.forall_mem_cons.1 hcs
    obtain ⟨q, hq⟩ := exists_slashed_eq_cons directorySymbol cs last
    rw [List.cons_append, slashed_cons, hq, collapsed_interior hc, ← hq, ih hcs]
    by_cases h : stays '.' c
    · rw [if_pos h, List.filter_cons_of_neg (by simpa using h)]
    · rw [if_neg h, List.filter_cons_of_pos (by simpa using h)]
      rfl

theorem resolved_last (hw : directorySymbol ∉ w) (stack : List Char) :
    resolved stack (directorySymbol :: w) = w.reverse ++ directorySymbol :: stack := by
  have happend := @resolved_append w [] hw (directorySymbol :: stack)
  rw [List.append_nil, resolved] at happend
  rw [resolved, if_neg fun h => hw (List.mem_of_getElem? h.2.2.2), happend]

/-- A component that a separator follows: `..` takes a component from the stack, another one goes onto it. -/
theorem resolved_interior (hw : directorySymbol ∉ w) (stack : List Char) :
    resolved stack (directorySymbol :: w ++ directorySymbol :: q) =
      if w = parentDirectory then resolved (popped stack) (directorySymbol :: q)
      else resolved (w.reverse ++ directorySymbol :: stack) (directorySymbol :: q) := by
  have hparent : (w ++ directorySymbol :: q)[0]? = some '.' ∧ (w ++ directorySymbol :: q)[1]? = some '.' ∧
      (w ++ directorySymbol :: q)[2]? = some directorySymbol ↔ w = parentDirectory := by
    have hne : directorySymbol ≠ '.' := by decide
    unfold parentDirectory
    rcases w with _ | ⟨a, _ | ⟨b, _ | ⟨c, w⟩⟩⟩
    · simp [hne]
    · simp [hne]
    · simp
    · have hc : c ≠ directorySymbol := fun h => hw (by simp [h])
      simp [hc]
  rw [List.cons_append, resolved]
  simp only [hparent, true_and]
  split_ifs with h
  · rw [h]
    rfl
  · exact resolved_append hw _

/-- What a stack of components is as a stack of characters. -/
def stackChars (state : List Char × List (List Char)) : List Char :=
  (state.1 ++ slashed directorySymbol state.2.reverse).reverse

theorem stackChars_cons (first c : List Char) (ds : List (List Char)) :
    stackChars (first, c :: ds) = c.reverse ++ directorySymbol :: stackChars (first, ds) := by
  simp [stackChars]

theorem popped_append (hw : directorySymbol ∉ w) : popped (w.reverse ++ directorySymbol :: q) = q := by
  unfold popped
  rw [List.dropWhile_append_of_pos fun c hc => by
    have hne : c ≠ directorySymbol := fun h => hw (h ▸ List.mem_reverse.1 hc)
    simpa using hne]
  rw [List.dropWhile_cons_of_neg (by simp), List.tail_cons]

theorem popped_of_not_mem (hw : directorySymbol ∉ w) : popped w.reverse = [] := by
  unfold popped
  rw [List.dropWhile_eq_nil_iff.2, List.tail_nil]
  intro c hc
  have hne : c ≠ directorySymbol := fun h => hw (h ▸ List.mem_reverse.1 hc)
  simpa using hne

/-- **The second loop is a stack of components**; the last component goes onto it. -/
theorem resolved_slashed (hfirst : directorySymbol ∉ first) (hds : ∀ d ∈ ds, directorySymbol ∉ d)
    (hcs : ∀ c ∈ cs, directorySymbol ∉ c) (hlast : directorySymbol ∉ last) :
    resolved (stackChars (first, ds)) (slashed directorySymbol (cs ++ [last])) =
      last.reverse ++ directorySymbol :: stackChars (cs.foldl (stackStep '.') (first, ds)) := by
  induction cs generalizing first ds with
  | nil =>
    rw [List.nil_append, slashed_cons, slashed_nil, List.append_nil]
    exact resolved_last hlast _
  | cons c cs ih =>
    obtain ⟨hc, hcs⟩ := List.forall_mem_cons.1 hcs
    obtain ⟨q, hq⟩ := exists_slashed_eq_cons directorySymbol cs last
    rw [List.cons_append, slashed_cons, hq, resolved_interior hc, ← hq, List.foldl_cons]
    by_cases hparent : c = parentDirectory
    · rw [if_pos hparent, hparent]
      rcases ds with _ | ⟨d, ds⟩
      · have hpop : popped (stackChars (first, [])) = stackChars ([], []) := by
          have hnil := popped_of_not_mem hfirst
          simpa [stackChars] using hnil
        rw [hpop, parentDirectory, stackStep_parent_nil]
        exact ih List.not_mem_nil (fun d hd => absurd hd List.not_mem_nil) hcs
      · obtain ⟨hd, hds⟩ := List.forall_mem_cons.1 hds
        rw [stackChars_cons, popped_append hd, parentDirectory, stackStep_parent_cons]
        exact ih hfirst hds hcs
    · rw [if_neg hparent, stackStep_of_ne hparent, ← stackChars_cons]
      exact ih hfirst (List.forall_mem_cons.2 ⟨hc, hds⟩) hcs

end Components

/-! ### The result -/

section Result

variable {p : List Char} {c : Char} {stack : List Char}

theorem mem_of_mem_collapsed (h : c ∈ collapsed p) : c ∈ p := by
  induction p using collapsed.induct with
  | case1 => rwa [collapsed] at h
  | case2 d p hrepeated ih =>
    rw [collapsed, if_pos hrepeated] at h
    exact List.mem_cons_of_mem _ (ih h)
  | case3 d p hrepeated hcurrent ih =>
    rw [collapsed, if_neg hrepeated, if_pos hcurrent] at h
    exact List.mem_cons_of_mem _ (List.mem_of_mem_tail (ih h))
  | case4 d p hrepeated hcurrent ih =>
    rw [collapsed, if_neg hrepeated, if_neg hcurrent] at h
    rcases List.mem_cons.1 h with rfl | h
    · exact List.mem_cons_self
    · exact List.mem_cons_of_mem _ (ih h)

theorem mem_of_mem_resolved (h : c ∈ resolved stack p) : c ∈ stack ∨ c ∈ p := by
  induction stack, p using resolved.induct with
  | case1 stack =>
    rw [resolved] at h
    exact .inl h
  | case2 stack d p hparent ih =>
    rw [resolved, if_pos hparent] at h
    exact (ih h).imp (fun h => (List.dropWhile_suffix _).subset (List.mem_of_mem_tail h))
      fun h => List.mem_cons_of_mem _ (List.mem_of_mem_drop h)
  | case3 stack d p hparent ih =>
    rw [resolved, if_neg hparent] at h
    rcases ih h with h | h
    · rcases List.mem_cons.1 h with rfl | h
      · exact .inr List.mem_cons_self
      · exact .inl h
    · exact .inr (List.mem_cons_of_mem _ h)

theorem nul_not_mem_resolved (path : CString) : '\x00' ∉ (resolved [] (collapsed path.bytes)).reverse := fun h =>
  path.noNul (mem_of_mem_collapsed ((mem_of_mem_resolved (List.mem_reverse.1 h)).resolve_left List.not_mem_nil))

/-- What becomes of the string. -/
def normalizedPath (path : CString) : CString where
  bytes := (resolved [] (collapsed path.bytes)).reverse
  noNul := nul_not_mem_resolved path

theorem normalizedPath_bytes (path : CString) :
    (normalizedPath path).bytes = (resolved [] (collapsed path.bytes)).reverse := rfl

/-- `strncpy` of a string that ends in its storage. -/
theorem strncpy_holds {dest storage : List Char} {count : ℕ} (hnul : '\x00' ∉ stack)
    (hholds : Holds storage ('\x00' :: stack))
    (hlt : stack.length < count) (hle : count ≤ dest.length) :
    ∃ rest, strncpy dest storage count = some (stack.reverse ++ '\x00' :: rest) ∧
      (stack.reverse ++ '\x00' :: rest).length = dest.length := by
  have hwhile : storage.takeWhile (· ≠ '\x00') = stack.reverse := by
    rw [← List.take_append_drop ('\x00' :: stack).length storage, hholds.take, List.reverse_cons, List.append_assoc,
      List.takeWhile_append_of_pos fun c hc => by
        have hne : c ≠ '\x00' := fun h => hnul (h ▸ List.mem_reverse.1 hc)
        simpa using hne]
    simp
  have hcount : count - stack.length = (count - stack.length - 1) + 1 := by omega
  refine ⟨List.replicate (count - stack.length - 1) '\x00' ++ dest.drop count, ?_, ?_⟩
  · unfold strncpy
    rw [if_pos hle, hwhile, List.take_of_length_le (by rw [List.length_reverse]; omega)]
    dsimp only
    rw [List.length_reverse, hcount, List.replicate_succ, List.append_assoc, List.cons_append]
    rfl
  · simp only [List.length_append, List.length_cons, List.length_reverse, List.length_replicate, List.length_drop]
    omega

/-- **The string is rewritten in its own storage**; no access is out of bounds. -/
theorem normalizePath_eq (fill : ℕ → Char) (path : CString) :
    ∃ rest, normalizePath fill path = some ((normalizedPath path).bytes ++ '\x00' :: rest) ∧
      ((normalizedPath path).bytes ++ '\x00' :: rest).length = path.len + 1 := by
  have hlength : (path.bytes ++ ['\x00']).length = path.len + 1 := List.length_append
  have htake : ((path.bytes ++ ['\x00']).take (path.len + 1)).drop 0 = path.bytes ++ ['\x00'] :=
    List.take_of_length_le hlength.le
  obtain ⟨path₁, hcollapse, hlen₁, hholds₁, hle₁⟩ :=
    collapseLoop_spec htake hlength (holds_nil _) (Nat.zero_le _) (Nat.lt_succ_self path.len)
  rw [List.length_nil, Nat.zero_add] at hcollapse hle₁
  rw [Nat.zero_add] at hle₁
  rw [List.append_nil] at hholds₁
  -- the terminator behind what the first loop left
  have hlt₁ : (collapsed path.bytes).reverse.length < path₁.length := by
    rw [List.length_reverse, hlen₁]
    exact Nat.lt_succ_of_le hle₁
  have hholds₂ := hholds₁.push hlt₁ '\x00'
  have htake₂ := hholds₂.take
  rw [List.length_reverse] at hlt₁
  rw [List.length_cons, List.length_reverse, List.reverse_cons, List.reverse_reverse] at htake₂
  have hlen₂ : (path₁.set (collapsed path.bytes).length '\x00').length = path.len + 1 := (List.length_set).trans hlen₁
  have hfits : (collapsed path.bytes).length + 1 ≤ (path₁.set (collapsed path.bytes).length '\x00').length := by
    rw [hlen₂]
    exact Nat.succ_le_succ hle₁
  obtain ⟨stack₁, hresolve, hlen₃, hholds₃, hle₃⟩ :=
    @resolveLoop_spec _ [] _ _ 0 _ _ htake₂ hfits
      (by rw [List.length_map, List.length_range]) (holds_nil ((List.range _).map fill)) (Nat.zero_le _)
      (Nat.lt_succ_self _)
  rw [List.length_nil] at hresolve
  rw [Nat.zero_add] at hle₃
  have hlt₃ : (resolved [] (collapsed path.bytes)).length < stack₁.length := hlen₃ ▸ Nat.lt_succ_of_le hle₃
  have hnul : '\x00' ∉ resolved [] (collapsed path.bytes) := fun h =>
    nul_not_mem_resolved path (List.mem_reverse.2 h)
  obtain ⟨rest, hcopy, hlen₄⟩ := strncpy_holds hnul (hholds₃.push hlt₃ '\x00') (Nat.lt_succ_of_le hle₃) hfits
  refine ⟨rest, ?_, hlen₄.trans hlen₂⟩
  have hlast : putChar ((resolved [] (collapsed path.bytes)).reverse ++ '\x00' :: rest)
      (resolved [] (collapsed path.bytes)).length '\x00' =
        some ((resolved [] (collapsed path.bytes)).reverse ++ '\x00' :: rest) := by
    rw [putChar_of_lt (by simp), List.set_append_right _ _ (by simp)]
    simp
  unfold normalizePath
  simp only [hcollapse, putChar_of_lt hlt₁, hresolve, putChar_of_lt hlt₃, hcopy, Option.bind_eq_bind, Option.bind_some]
  exact hlast

end Result

/-! ### What the result means -/

section Meaning

/-- The components of a path that a separator follows, but for the first one, without those that stay where they
are. -/
def interior (p : List Char) : List (List Char) :=
  (components directorySymbol p).2.dropLast.filter fun c => !stays '.' c

/-- **No `..` takes away the first component**: the path is absolute, or at no `..` that a separator follows have more
directories been left than were entered after the first component. -/
def KeepsFirst (p : List Char) : Prop := IsAbsolutePath directorySymbol p ∨ StaysBelow '.' 0 (interior p)

/-- An ordinary component. -/
structure IsOrdinary (name : List Char) : Prop where
  noSymbol : directorySymbol ∉ name
  enters : ¬ stays '.' name ∧ name ≠ parentDirectory

/-- **The result means what the path means**: it is the same location, from any directory, absolute or not; it is
normal, and normalizing it again returns it. -/
structure PreservesMeaning (path out : CString) : Prop where
  location : ∀ base, resolvePath directorySymbol '.' base out.bytes = resolvePath directorySymbol '.' base path.bytes
  absolute : IsAbsolutePath directorySymbol out.bytes ↔ IsAbsolutePath directorySymbol path.bytes
  noRepeated : ¬ [directorySymbol, directorySymbol] <:+: out.bytes
  noCurrent : ¬ [directorySymbol, '.', directorySymbol] <:+: out.bytes
  noParent : ∀ name, IsOrdinary name →
    ¬ directorySymbol :: name ++ directorySymbol :: parentDirectory ++ [directorySymbol] <:+: out.bytes
  again : ∀ fill, ∃ rest, normalizePath fill out = some (out.bytes ++ '\x00' :: rest)

variable {path : CString} {first last : List Char} {cs : List (List Char)}

/-- A path has no separator, or a first component, and a last one. -/
theorem components_cases (p : List Char) :
    directorySymbol ∉ p ∨ ∃ first cs last, p = first ++ slashed directorySymbol (cs ++ [last]) ∧
      directorySymbol ∉ first ∧ (∀ c ∈ cs, directorySymbol ∉ c) ∧ directorySymbol ∉ last := by
  have heq := components_eq directorySymbol p
  obtain ⟨hfirst, hcs⟩ := not_mem_components directorySymbol p
  rcases List.eq_nil_or_concat (components directorySymbol p).2 with hnil | ⟨cs, last, hconcat⟩
  · rw [hnil, slashed_nil, List.append_nil] at heq
    exact .inl (heq ▸ hfirst)
  · rw [List.concat_eq_append] at hconcat
    rw [hconcat] at heq hcs
    refine .inr ⟨_, cs, last, heq.symm, hfirst, fun c hc => hcs c (by simp [hc]), hcs last (by simp)⟩

theorem normalizedPath_of_not_mem (h : directorySymbol ∉ path.bytes) : (normalizedPath path).bytes = path.bytes := by
  have hcollapsed := @collapsed_append path.bytes [] h
  have hresolved := @resolved_append path.bytes [] h []
  rw [List.append_nil, collapsed, List.append_nil] at hcollapsed
  rw [List.append_nil, resolved, List.append_nil] at hresolved
  rw [normalizedPath_bytes, hcollapsed, hresolved, List.reverse_reverse]

/-- **The components of the result** are what is left on the stack, and the last one. -/
theorem normalizedPath_slashed (hpath : path.bytes = first ++ slashed directorySymbol (cs ++ [last]))
    (hfirst : directorySymbol ∉ first) (hcs : ∀ c ∈ cs, directorySymbol ∉ c) (hlast : directorySymbol ∉ last) :
    ∃ state, (cs.filter fun c => !stays '.' c).foldl (stackStep '.') (first, []) = state ∧
      (normalizedPath path).bytes = state.1 ++ slashed directorySymbol (state.2.reverse ++ [last]) ∧
      components directorySymbol (normalizedPath path).bytes = (state.1, state.2.reverse ++ [last]) ∧
      ∀ c ∈ state.2, ¬ stays '.' c ∧ c ≠ parentDirectory := by
  have hfilter : ∀ c ∈ cs.filter fun c => !stays '.' c, directorySymbol ∉ c := fun c hc => hcs c (List.mem_filter.1 hc).1
  have hstack : first.reverse ++ [] = stackChars (first, []) := by simp [stackChars]
  obtain ⟨state, hstate⟩ : ∃ state, (cs.filter fun c => !stays '.' c).foldl (stackStep '.') (first, []) = state := ⟨_, rfl⟩
  have hbytes : (normalizedPath path).bytes = state.1 ++ slashed directorySymbol (state.2.reverse ++ [last]) := by
    rw [normalizedPath_bytes, hpath, collapsed_slashed hfirst hcs hlast, resolved_append hfirst, hstack,
      resolved_slashed hfirst (fun d hd => absurd hd List.not_mem_nil) hfilter hlast, hstate]
    simp [stackChars]
  have hmem : ∀ c ∈ state.2, c ∈ cs.filter (fun c => !stays '.' c) ∧ c ≠ parentDirectory := by
    intro c hc
    rw [← hstate] at hc
    obtain ⟨hsource, hne⟩ := mem_foldl_stackStep (fun d hd => absurd hd List.not_mem_nil) hc
    exact ⟨hsource.resolve_left List.not_mem_nil, hne⟩
  have hfirst' : directorySymbol ∉ state.1 := by
    rcases foldl_stackStep_first '.' first (cs.filter fun c => !stays '.' c) [] with h | h
    · rwa [← hstate, h]
    · rw [← hstate, h]
      exact List.not_mem_nil
  have hall : ∀ c ∈ state.2.reverse ++ [last], directorySymbol ∉ c := by
    intro c hc
    rcases List.mem_append.1 hc with hc | hc
    · exact hfilter c (hmem c (List.mem_reverse.1 hc)).1
    · rwa [List.mem_singleton.1 hc]
  refine ⟨state, hstate, hbytes, by rw [hbytes, components_slashed hfirst' hall], fun c hc => ?_⟩
  exact ⟨by simpa using (List.mem_filter.1 (hmem c hc).1).2, (hmem c hc).2⟩

/-- **No component of the result** that a separator follows stays where it is, or leaves its directory. -/
theorem normalizedPath_interior (path : CString) :
    ∀ c ∈ (components directorySymbol (normalizedPath path).bytes).2.dropLast, ¬ stays '.' c ∧ c ≠ parentDirectory := by
  rcases components_cases path.bytes with hnone | ⟨first, cs, last, hpath, hfirst, hcs, hlast⟩
  · rw [normalizedPath_of_not_mem hnone, components_of_not_mem hnone]
    exact fun c hc => absurd hc List.not_mem_nil
  · obtain ⟨state, -, -, hcomponents, hmem⟩ := normalizedPath_slashed hpath hfirst hcs hlast
    rw [hcomponents, List.dropLast_concat]
    exact fun c hc => hmem c (List.mem_reverse.1 hc)

/-- A path without such components is left alone. -/
theorem normalizedPath_eq_self
    (h : ∀ c ∈ (components directorySymbol path.bytes).2.dropLast, ¬ stays '.' c ∧ c ≠ parentDirectory) :
    (normalizedPath path).bytes = path.bytes := by
  rcases components_cases path.bytes with hnone | ⟨first, cs, last, hpath, hfirst, hcs, hlast⟩
  · exact normalizedPath_of_not_mem hnone
  · have hall : ∀ c ∈ cs ++ [last], directorySymbol ∉ c := by
      intro c hc
      rcases List.mem_append.1 hc with hc | hc
      · exact hcs c hc
      · rwa [List.mem_singleton.1 hc]
    rw [hpath, components_slashed hfirst hall, List.dropLast_concat] at h
    obtain ⟨state, hstate, hbytes, -, -⟩ := normalizedPath_slashed hpath hfirst hcs hlast
    rw [List.filter_eq_self.2 fun c hc => by simpa using (h c hc).1, foldl_stackStep_of_ne fun c hc => (h c hc).2] at hstate
    rw [hbytes, ← hstate, hpath, List.append_nil, List.reverse_reverse]

/-- What `KeepsFirst` says about a path with components. -/
theorem keepsFirst_slashed (hpath : path.bytes = first ++ slashed directorySymbol (cs ++ [last]))
    (hfirst : directorySymbol ∉ first) (hcs : ∀ c ∈ cs, directorySymbol ∉ c) (hlast : directorySymbol ∉ last) :
    components directorySymbol path.bytes = (first, cs ++ [last]) ∧
      (IsAbsolutePath directorySymbol path.bytes ↔ first = []) ∧
      (KeepsFirst path.bytes ↔ first = [] ∨ StaysBelow '.' 0 (cs.filter fun c => !stays '.' c)) := by
  have hall : ∀ c ∈ cs ++ [last], directorySymbol ∉ c := by
    intro c hc
    rcases List.mem_append.1 hc with hc | hc
    · exact hcs c hc
    · rwa [List.mem_singleton.1 hc]
  have hcomponents : components directorySymbol path.bytes = (first, cs ++ [last]) := by
    rw [hpath, components_slashed hfirst hall]
  have habsolute : IsAbsolutePath directorySymbol path.bytes ↔ first = [] := by
    rw [isAbsolutePath_iff, hcomponents]
    exact and_iff_left (List.append_ne_nil_of_right_ne_nil _ (List.cons_ne_nil _ _))
  refine ⟨hcomponents, habsolute, ?_⟩
  rw [KeepsFirst, habsolute, interior, hcomponents, List.dropLast_concat]

/-- The location, as long as the first component is there. -/
theorem normalizedPath_location (h : KeepsFirst path.bytes) :
    (∀ base, resolvePath directorySymbol '.' base (normalizedPath path).bytes =
        resolvePath directorySymbol '.' base path.bytes) ∧
      (IsAbsolutePath directorySymbol (normalizedPath path).bytes ↔ IsAbsolutePath directorySymbol path.bytes) := by
  rcases components_cases path.bytes with hnone | ⟨first, cs, last, hpath, hfirst, hcs, hlast⟩
  · rw [normalizedPath_of_not_mem hnone]
    exact ⟨fun _ => rfl, Iff.rfl⟩
  obtain ⟨hcomponents, habsolute, hkeeps⟩ := keepsFirst_slashed hpath hfirst hcs hlast
  have hstays : ∀ c ∈ cs.filter fun c => !stays '.' c, ¬ stays '.' c := fun c hc => by
    simpa using (List.mem_filter.1 hc).2
  obtain ⟨ds, hfold, hlocation⟩ := @foldl_stackStep_kept _ _ '.' first _ [] hstays (hkeeps.1 h)
  obtain ⟨state, hstate, -, hcomponents', hmem⟩ := normalizedPath_slashed hpath hfirst hcs hlast
  obtain rfl : state = (first, ds) := hstate.symm.trans hfold
  have habsolute' : IsAbsolutePath directorySymbol (normalizedPath path).bytes ↔
      IsAbsolutePath directorySymbol path.bytes := by
    rw [habsolute, isAbsolutePath_iff, hcomponents']
    exact and_iff_left (List.append_ne_nil_of_right_ne_nil _ (List.cons_ne_nil _ _))
  refine ⟨fun base => ?_, habsolute'⟩
  unfold resolvePath
  rw [hcomponents, hcomponents', List.foldl_append, List.foldl_append]
  simp only [habsolute']
  -- both come to the directory of the last component
  have hstart : first = [] →
      resolveComponent '.' (if IsAbsolutePath directorySymbol path.bytes then [] else base) first = [] := by
    intro hnil
    rw [if_pos (habsolute.2 hnil), hnil]
    rfl
  have hinput := hlocation _ hstart
  rw [List.nil_append, foldl_resolveComponent_filter] at hinput
  rw [hinput, foldl_resolveComponent_of_enters fun c hc => hmem c (List.mem_reverse.1 hc), List.reverse_reverse]

/-- **The result means what the path means** where no `..` takes away the first component. -/
theorem preservesMeaning_of_keepsFirst (h : KeepsFirst path.bytes) : PreservesMeaning path (normalizedPath path) := by
  have hinterior := normalizedPath_interior path
  have hnone : ∀ w, directorySymbol ∉ w → stays '.' w ∨ w = parentDirectory →
      ¬ directorySymbol :: w ++ [directorySymbol] <:+: (normalizedPath path).bytes := by
    intro w hw hbad hinfix
    obtain ⟨hstays, hparent⟩ := hinterior w (mem_dropLast_components hw hinfix)
    exact hbad.elim hstays hparent
  obtain ⟨hlocation, habsolute⟩ := normalizedPath_location h
  refine ⟨hlocation, habsolute, hnone [] List.not_mem_nil (.inl rfl), hnone ['.'] (by decide) (.inl rfl), ?_,
    fun fill => ?_⟩
  · intro name _ hinfix
    refine hnone parentDirectory (by decide) (.inr rfl) (List.IsInfix.trans ?_ hinfix)
    exact ⟨directorySymbol :: name, [], by simp⟩
  · obtain ⟨rest, hrun, -⟩ := normalizePath_eq fill (normalizedPath path)
    exact ⟨rest, by rw [hrun, normalizedPath_eq_self hinterior]⟩

/-- **The result is absolute** where a `..` takes away the first component, though the path is not. -/
theorem not_preservesMeaning (h : ¬ KeepsFirst path.bytes) : ¬ PreservesMeaning path (normalizedPath path) := by
  intro hpreserves
  have hrelative : ¬ IsAbsolutePath directorySymbol path.bytes := fun habsolute => h (.inl habsolute)
  refine hrelative (hpreserves.absolute.1 ?_)
  rcases components_cases path.bytes with hnone | ⟨first, cs, last, hpath, hfirst, hcs, hlast⟩
  · -- a single component is always kept
    refine absurd (.inr ?_) h
    rw [interior, components_of_not_mem hnone]
    exact staysBelow_nil '.' 0
  · obtain ⟨-, -, hkeeps⟩ := keepsFirst_slashed hpath hfirst hcs hlast
    have hbelow : ¬ StaysBelow '.' 0 (cs.filter fun c => !stays '.' c) := fun hbelow => h (hkeeps.2 (.inr hbelow))
    obtain ⟨state, hstate, -, hcomponents, -⟩ := normalizedPath_slashed hpath hfirst hcs hlast
    rw [isAbsolutePath_iff, hcomponents, ← hstate]
    exact ⟨@foldl_stackStep_lost _ _ '.' first _ [] hbelow, List.append_ne_nil_of_right_ne_nil _ (List.cons_ne_nil _ _)⟩

end Meaning

/-- **`normalize_path` preserves the meaning of a path** exactly if no `..` takes away the first component. -/
theorem normalizePath_preservesMeaning_iff (fill : ℕ → Char) (path : CString) :
    ∃ (out : CString) (rest : List Char), normalizePath fill path = some (out.bytes ++ '\x00' :: rest) ∧
      (out.bytes ++ '\x00' :: rest).length = path.len + 1 ∧ (PreservesMeaning path out ↔ KeepsFirst path.bytes) := by
  obtain ⟨rest, hrun, hlen⟩ := normalizePath_eq fill path
  refine ⟨normalizedPath path, rest, hrun, hlen, fun h => ?_, preservesMeaning_of_keepsFirst⟩
  by_contra hnot
  exact not_preservesMeaning hnot h

/-- A relative path becomes an absolute one. -/
theorem not_normalizePath_preservesMeaning :
    let path : CString := ⟨"a/../b".toList, by decide⟩
    let out : CString := ⟨"/b".toList, by decide⟩
    normalizePath (fun _ => 'x') path = some (out.bytes ++ '\x00' :: ['\x00', '\x00', '\x00', '\x00']) ∧
      ¬ PreservesMeaning path out :=
  ⟨by decide, fun h => absurd (h.absolute.1 rfl) (by decide)⟩

end VulkanLoader
