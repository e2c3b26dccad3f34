import VulkanLoader.CallChain.DeviceChain

/-!
# The application's chain after creating a device

The copy of a `VkDeviceGroupDeviceCreateInfo` is put into the application's chain if a structure of the application
comes before the original.  Creating the device takes it out again where `vkCreateDevice` succeeds; on every other way
out of the function it stays, and points into a stack frame that is gone.
-/

namespace VulkanLoader

open Lib Lib.Heap

/-! ### The first group in a list of structures -/

section Lists

variable {ws as bs : List (ℕ × ChainStruct)} {v w : ℕ × ChainStruct} {prev : ℕ}

/-- The first `VkDeviceGroupDeviceCreateInfo`, with the address before it. -/
def firstGroup (prev : ℕ) : List (ℕ × ChainStruct) → Option (ℕ × ℕ × ChainStruct)
  | [] => none
  | w :: ws => if w.2.isGroup then some (prev, w) else firstGroup w.1 ws

/-- The structure of the list that is written to put a copy of the group in: the one before the first group, if that
has handles; `0` if there is none. -/
def groupContainer (ws : List (ℕ × ChainStruct)) : ℕ :=
  match firstGroup 0 ws with
  | none => 0
  | some (prev, w) => if w.2.hasDevices then prev else 0

/-- **The copy goes into the list**: the first group has handles, and another structure comes before it. -/
def GroupInside (ws : List (ℕ × ChainStruct)) : Prop :=
  ∃ as v w bs, ws = as ++ v :: w :: bs ∧ (∀ u ∈ as ++ [v], u.2.isGroup = false) ∧ w.2.isGroup = true ∧
    w.2.hasDevices = true

theorem firstGroup_append (has : ∀ u ∈ as, u.2.isGroup = false) (hw : w.2.isGroup = true) :
    firstGroup prev (as ++ w :: bs) = some (lastAddr prev as, w) := by
  induction as generalizing prev with
  | nil => exact if_pos hw
  | cons u as ih =>
    rw [List.cons_append, firstGroup, if_neg (by simp [has u List.mem_cons_self])]
    exact ih fun u hu => has u (List.mem_cons_of_mem _ hu)

theorem firstGroup_eq_none (has : ∀ u ∈ ws, u.2.isGroup = false) : firstGroup prev ws = none := by
  induction ws generalizing prev with
  | nil => rfl
  | cons u ws ih =>
    rw [firstGroup, if_neg (by simp [has u List.mem_cons_self])]
    exact ih fun u hu => has u (List.mem_cons_of_mem _ hu)

/-- A list has no group, or it has a first one. -/
theorem exists_firstGroup (ws : List (ℕ × ChainStruct)) :
    (∀ u ∈ ws, u.2.isGroup = false) ∨
      ∃ as w bs, ws = as ++ w :: bs ∧ (∀ u ∈ as, u.2.isGroup = false) ∧ w.2.isGroup = true := by
  induction ws with
  | nil => exact Or.inl (by simp)
  | cons u ws ih =>
    rcases hu : u.2.isGroup with _ | _
    · rcases ih with hnone | ⟨as, w, bs, rfl, has, hw⟩
      · left
        simpa [hu] using hnone
      · right
        exact ⟨u :: as, w, bs, rfl, by simpa [hu] using has, hw⟩
    · exact Or.inr ⟨[], u, ws, rfl, by simp, hu⟩

theorem groupContainer_append (has : ∀ u ∈ as, u.2.isGroup = false) (hw : w.2.isGroup = true) :
    groupContainer (as ++ w :: bs) = if w.2.hasDevices then lastAddr 0 as else 0 := by
  unfold groupContainer
  rw [firstGroup_append has hw]

theorem groupContainer_eq_zero (has : ∀ u ∈ ws, u.2.isGroup = false) : groupContainer ws = 0 := by
  unfold groupContainer
  rw [firstGroup_eq_none has]

theorem groupContainer_head (hw : w.2.isGroup = true) : groupContainer (w :: bs) = 0 := by
  unfold groupContainer firstGroup
  rw [if_pos hw]
  exact ite_self 0

/-- A structure in front of a list changes nothing for the structures of the list. -/
theorem eq_groupContainer_cons {p : ℕ} (hv : v.2.isGroup = false) (hp : p ≠ v.1) (h0 : p ≠ 0) :
    p = groupContainer (v :: ws) ↔ p = groupContainer ws := by
  rcases exists_firstGroup ws with hnone | ⟨as, w, bs, rfl, has, hw⟩
  · rw [groupContainer_eq_zero hnone, groupContainer_eq_zero (by simpa [hv] using hnone)]
  · have hcons : ∀ u ∈ v :: as, u.2.isGroup = false := by simpa [hv] using has
    rw [← List.cons_append, groupContainer_append hcons hw, groupContainer_append has hw]
    cases as with
    | nil => split_ifs <;> simp [lastAddr, hp, h0]
    | cons u as => rfl

/-- The address before the group is one of the list, or the one before the list. -/
theorem lastAddr_eq (prev : ℕ) (as : List (ℕ × ChainStruct)) :
    (as = [] ∧ lastAddr prev as = prev) ∨ ∃ as' v, as = as' ++ [v] ∧ lastAddr prev as = v.1 := by
  rcases List.eq_nil_or_concat as with rfl | ⟨as', v, rfl⟩
  · exact Or.inl ⟨rfl, rfl⟩
  · exact Or.inr ⟨as', v, by simp, by rw [List.concat_eq_append, lastAddr_append]⟩

end Lists

/-! ### The search in a heap -/

section Search

variable {h h' : Heap ChainStruct} {p info prev fuel : ℕ} {s : ChainStruct} {ws : List (ℕ × ChainStruct)}

theorem findDeviceGroup_eq (hs : Chain ChainStruct.pNext h p ws) (hfuel : ws.length < fuel) :
    findDeviceGroup h fuel prev p = some ((firstGroup prev ws).map fun r => (r.1, r.2.1)) := by
  induction ws generalizing p prev fuel with
  | nil =>
    obtain ⟨fuel, rfl⟩ : ∃ k, fuel = k + 1 := ⟨fuel - 1, by simp at hfuel; omega⟩
    obtain rfl : p = 0 := hs
    rfl
  | cons w ws ih =>
    obtain ⟨fuel, rfl⟩ : ∃ k, fuel = k + 1 := ⟨fuel - 1, by simp at hfuel; omega⟩
    obtain ⟨rfl, hw, hs⟩ := hs
    have hrest : findDeviceGroup h fuel w.1 w.2.pNext = some ((firstGroup w.1 ws).map fun r => (r.1, r.2.1)) :=
      ih hs (by simpa using hfuel)
    rw [findDeviceGroup, if_neg (ne_null_of_get hw), hw, Option.bind_some, firstGroup, hrest]
    split_ifs <;> rfl

/-- The search from a structure gets through its chain. -/
theorem findDeviceGroup_of_chain (hs : Chain ChainStruct.pNext h info ((info, s) :: ws)) :
    findDeviceGroup h h.bound info s.pNext = some ((firstGroup info ws).map fun r => (r.1, r.2.1)) := by
  have hlen := hs.length_lt
  rw [List.length_cons] at hlen
  exact findDeviceGroup_eq hs.2.2 (by omega)

theorem setPNext_of_get (hp : h.get p = some s) (q : ℕ) :
    ∃ h', setPNext h p q = some h' ∧ h'.get p = some { s with pNext := q } ∧ ∀ r, r ≠ p → h'.get r = h.get r := by
  obtain ⟨h', hput, hget, -⟩ := put_of_isSome (h := h) (p := p) (by rw [hp]; rfl) { s with pNext := q }
  refine ⟨h', ?_, ?_, fun r hr => ?_⟩
  · unfold setPNext
    rw [hp]
    exact hput
  · rw [hget]
    exact if_pos rfl
  · rw [hget]
    exact if_neg hr

/-- A chain stays a chain where its structures are as before. -/
theorem seg_of_agree {p q : ℕ} {off : ℕ} (hs : Seg ChainStruct.pNext h p ws q) (hoff : ∀ w ∈ ws, w.1 ≠ off)
    (hagree : ∀ p t, h.get p = some t → p ≠ off → h'.get p = some t) : Seg ChainStruct.pNext h' p ws q :=
  hs.congr fun w hw => (hagree _ _ (hs.get hw) (hoff w hw)).trans (hs.get hw).symm

end Search

/-! ### The three ways to write the chain -/

section Write

variable {h h' : Heap ChainStruct} {info : ℕ} {s : ChainStruct} {ws : List (ℕ × ChainStruct)}

/-- What putting in the copy does: the chain goes through the copy, and the structure before the original points at it;
nothing else is written but the structure `info`. -/
structure Spliced (h : Heap ChainStruct) (info : ℕ) (ws : List (ℕ × ChainStruct)) (h' : Heap ChainStruct)
    (splice : Option Splice) : Prop where
  chain : ∃ s' ys, Chain ChainStruct.pNext h' info ((info, s') :: ys) ∧ groupContainer ys = groupContainer ws
  frame : ∀ p t, h.get p = some t → p ≠ info →
    h'.get p = some (if p = groupContainer ws then { t with pNext := splice.elim 0 Splice.temp } else t)
  original : ∀ t, h.get (groupContainer ws) = some t → t.pNext = splice.elim 0 Splice.original
  stale : groupContainer ws ≠ 0 → splice.elim 0 Splice.temp ≠ splice.elim 0 Splice.original
  temp : ∀ sp, splice = some sp → h.get sp.temp = none ∧ sp.temp ≠ 0 ∧ (h'.get sp.temp).isSome

theorem spliced_none (hs : Chain ChainStruct.pNext h info ((info, s) :: ws)) (hzero : groupContainer ws = 0) :
    Spliced h info ws h none where
  chain := ⟨s, ws, hs, rfl⟩
  frame p t hp _ := by rw [if_neg (hzero ▸ ne_null_of_get hp), hp]
  original t ht := by
    rw [hzero, h.get_null] at ht
    cases ht
  stale hne := absurd hzero hne
  temp _ he := by cases he

theorem groupContainer_snoc {as bs : List (ℕ × ChainStruct)} {v w : ℕ × ChainStruct}
    (has : ∀ u ∈ as ++ [v], u.2.isGroup = false) (hw : w.2.isGroup = true) (hdev : w.2.hasDevices = true) :
    groupContainer ((as ++ [v]) ++ w :: bs) = v.1 := by
  rw [groupContainer_append has hw, hdev, lastAddr_append]
  rfl

/-- A copy of a group with handles is in the heap `h₁`, at an address that was not in use. -/
structure CopyMade (h : Heap ChainStruct) (w : ChainStruct) (h₁ : Heap ChainStruct) (temp : ℕ) : Prop where
  new : h.get temp = none
  ne_null : temp ≠ 0
  keep : ∀ p t, h.get p = some t → h₁.get p = some t
  copy : ∃ c, h₁.get temp = some c ∧ c.pNext = w.pNext ∧ c.isGroup = true ∧ c.hasDevices = true

theorem CopyMade.ne {w : ChainStruct} {h₁ : Heap ChainStruct} {temp p : ℕ} {t : ChainStruct} (hc : CopyMade h w h₁ temp)
    (hp : h.get p = some t) : p ≠ temp := by
  rintro rfl
  rw [hc.new] at hp
  cases hp

theorem copyMade_alloc (physDevOf : Handle → Handle) (wish : ℕ) {w : ChainStruct} (hw : w.isGroup = true)
    (hdev : w.hasDevices = true) :
    CopyMade h w (h.alloc wish { w with pPhysicalDevices := w.pPhysicalDevices.map (·.map physDevOf) })
      (h.place wish) where
  new := h.get_place wish
  ne_null := h.place_ne_null wish
  keep _ _ := alloc_get_of_get
  copy := by
    refine ⟨_, alloc_get_self h wish _, rfl, hw, ?_⟩
    obtain ⟨sType, pNext, _ | ⟨_ | ⟨d, ds⟩⟩, _, _⟩ := w
    · cases hdev
    · cases hdev
    · rfl

/-- The group is the first structure: the loader's own structure is made to point at the copy. -/
theorem spliced_first {w : ℕ × ChainStruct} {bs : List (ℕ × ChainStruct)} {h₁ : Heap ChainStruct} {temp : ℕ}
    (hs : Chain ChainStruct.pNext h info ((info, s) :: w :: bs)) (hw : w.2.isGroup = true)
    (hc : CopyMade h w.2 h₁ temp) :
    ∃ h', setPNext h₁ info temp = some h' ∧ Spliced h info (w :: bs) h' (some ⟨info, w.1, temp⟩) := by
  obtain ⟨c, hcopy, hnext, hgroup, -⟩ := hc.copy
  have hinfo : h.get info = some s := hs.2.1
  have hbs : Seg ChainStruct.pNext h w.2.pNext bs 0 := hs.2.2.2.2
  have hnd := hs.nodup
  simp only [List.map_cons, List.nodup_cons, List.mem_cons, List.mem_map, not_or] at hnd
  obtain ⟨h', hput, hget, hothers⟩ := setPNext_of_get (hc.keep _ _ hinfo) temp
  have hkeep : ∀ p t, h.get p = some t → p ≠ info → h'.get p = some t := fun p t hp hne =>
    (hothers p hne).trans (hc.keep p t hp)
  have htemp : h'.get temp = some c := (hothers temp (hc.ne hinfo).symm).trans hcopy
  have hzero : groupContainer (w :: bs) = 0 := groupContainer_head hw
  refine ⟨h', hput, ⟨{ s with pNext := temp }, (temp, c) :: bs, ?_, ?_⟩, fun p t hp hne => ?_, fun t ht => ?_,
    fun hne => absurd hzero hne, ?_⟩
  · refine ⟨rfl, hget, rfl, htemp, ?_⟩
    rw [hnext]
    exact seg_of_agree hbs (fun u hu he => hnd.1.2 ⟨u, hu, he⟩) hkeep
  · rw [hzero]
    exact groupContainer_head hgroup
  · rw [hzero, if_neg (ne_null_of_get hp)]
    exact hkeep p t hp hne
  · rw [hzero, h.get_null] at ht
    cases ht
  · rintro _ he
    obtain rfl := Option.some.inj he
    exact ⟨hc.new, hc.ne_null, by rw [htemp]; rfl⟩

/-- A structure of the application comes before the group, and is made to point at the copy. -/
theorem spliced_inside {as bs : List (ℕ × ChainStruct)} {v w : ℕ × ChainStruct} {h₁ : Heap ChainStruct} {temp : ℕ}
    (hs : Chain ChainStruct.pNext h info ((info, s) :: ((as ++ [v]) ++ w :: bs)))
    (has : ∀ u ∈ as ++ [v], u.2.isGroup = false) (hw : w.2.isGroup = true) (hdev : w.2.hasDevices = true)
    (hc : CopyMade h w.2 h₁ temp) :
    ∃ h', setPNext h₁ v.1 temp = some h' ∧
      Spliced h info ((as ++ [v]) ++ w :: bs) h' (some ⟨v.1, w.1, temp⟩) := by
  obtain ⟨c, hcopy, hnext, hgroup, hcopyDev⟩ := hc.copy
  have hinfo : h.get info = some s := hs.2.1
  have hgetv : h.get v.1 = some v.2 := hs.get (by simp)
  have hgetw : h.get w.1 = some w.2 := hs.get (by simp)
  have hcontainer : groupContainer ((as ++ [v]) ++ w :: bs) = v.1 := groupContainer_snoc has hw hdev
  -- the places of the chain
  obtain ⟨_, hseg, hrest⟩ := seg_append.1 (hs.2.2 : Seg ChainStruct.pNext h s.pNext ((as ++ [v]) ++ w :: bs) 0)
  obtain ⟨rfl, -, hbs⟩ := hrest
  obtain ⟨_, hpre, hv⟩ := seg_append.1 hseg
  obtain ⟨rfl, -, hvw⟩ := hv
  have hnd : v.1 ≠ info ∧ (∀ u ∈ as, u.1 ≠ v.1) ∧ ∀ u ∈ bs, u.1 ≠ v.1 := by
    have hnd := hs.nodup
    simp only [List.map_cons, List.map_append, List.append_assoc, List.singleton_append, List.nodup_cons,
      List.nodup_append, List.mem_append, List.mem_cons, List.mem_map, not_or] at hnd
    obtain ⟨⟨-, hv, -⟩, -, ⟨hvb, -⟩, hav⟩ := hnd
    exact ⟨fun he => hv he.symm, fun u hu he => hav u.1 ⟨u, hu, rfl⟩ v.1 (Or.inl rfl) he,
      fun u hu he => hvb.2 ⟨u, hu, he⟩⟩
  obtain ⟨h', hput, hget, hothers⟩ := setPNext_of_get (hc.keep _ _ hgetv) temp
  have hkeep : ∀ p t, h.get p = some t → p ≠ v.1 → h'.get p = some t := fun p t hp hne =>
    (hothers p hne).trans (hc.keep p t hp)
  have htemp : h'.get temp = some c := (hothers temp (hc.ne hgetv).symm).trans hcopy
  refine ⟨h', hput, ⟨s, (as ++ [(v.1, { v.2 with pNext := temp })]) ++ (temp, c) :: bs, ?_, ?_⟩, fun p t hp _ => ?_,
    fun t ht => ?_, fun _ he => hc.ne hgetw he.symm, ?_⟩
  · refine ⟨rfl, hkeep info s hinfo hnd.1.symm, ?_⟩
    refine seg_append.2 ⟨temp, seg_append.2 ⟨v.1, seg_of_agree hpre hnd.2.1 hkeep, rfl, hget, rfl⟩, rfl, htemp, ?_⟩
    rw [hnext]
    exact seg_of_agree hbs hnd.2.2 hkeep
  · rw [hcontainer]
    refine groupContainer_snoc (fun u hu => ?_) hgroup hcopyDev
    rcases List.mem_append.1 hu with hu | hu
    · exact has u (List.mem_append_left _ hu)
    · rw [List.mem_singleton.1 hu]
      exact has v (List.mem_append_right _ (List.mem_singleton_self v))
  · rw [hcontainer]
    by_cases he : p = v.1
    · subst he
      rw [if_pos rfl, hget]
      obtain rfl := Option.some.inj (hgetv.symm.trans hp)
      rfl
    · rw [if_neg he]
      exact hkeep p t hp he
  · rw [hcontainer, hgetv] at ht
    obtain rfl := Option.some.inj ht
    exact hvw
  · rintro _ he
    obtain rfl := Option.some.inj he
    exact ⟨hc.new, hc.ne_null, by rw [htemp]; rfl⟩

theorem spliceDeviceGroup_of_chain (physDevOf : Handle → Handle) (wish : ℕ)
    (hs : Chain ChainStruct.pNext h info ((info, s) :: ws)) :
    ∃ h' splice, spliceDeviceGroup physDevOf wish h info = some (h', splice) ∧ Spliced h info ws h' splice := by
  have hinfo : h.get info = some s := hs.2.1
  unfold spliceDeviceGroup
  rw [hinfo, Option.bind_some, findDeviceGroup_of_chain hs, Option.bind_some]
  rcases exists_firstGroup ws with hnone | ⟨as, w, bs, rfl, has, hw⟩
  · rw [firstGroup_eq_none hnone]
    exact ⟨h, none, rfl, spliced_none hs (groupContainer_eq_zero hnone)⟩
  have hgetw : h.get w.1 = some w.2 := hs.get (by simp)
  rw [firstGroup_append has hw]
  dsimp only [Option.map_some]
  rw [hgetw, Option.bind_some]
  rcases hdev : w.2.hasDevices with _ | _
  · rw [if_neg Bool.false_ne_true]
    refine ⟨h, none, rfl, spliced_none hs ?_⟩
    rw [groupContainer_append has hw, hdev]
    rfl
  rw [if_pos rfl]
  have hc := copyMade_alloc (h := h) physDevOf wish hw hdev
  rcases lastAddr_eq info as with ⟨rfl, hlast⟩ | ⟨as', v, rfl, hlast⟩
  · obtain ⟨h', hput, hspliced⟩ := spliced_first hs hw hc
    exact ⟨h', _, by rw [hlast, hput]; rfl, hspliced⟩
  · obtain ⟨h', hput, hspliced⟩ := spliced_inside hs has hw hdev hc
    exact ⟨h', _, by rw [hlast, hput]; rfl, hspliced⟩

/-- Writing the chain back changes the structure before the first group with handles only. -/
theorem restoreDeviceGroup_of_chain (original : ℕ) (hs : Chain ChainStruct.pNext h info ((info, s) :: ws)) :
    ∃ h', restoreDeviceGroup h info original = some h' ∧ (∀ p, (h.get p).isSome → (h'.get p).isSome) ∧
      ∀ p t, h.get p = some t → p ≠ info →
        h'.get p = some (if p = groupContainer ws then { t with pNext := original } else t) := by
  have hinfo : h.get info = some s := hs.2.1
  have hkept : groupContainer ws = 0 → ∀ p t, h.get p = some t → p ≠ info →
      h.get p = some (if p = groupContainer ws then { t with pNext := original } else t) := by
    intro hzero p t hp _
    rw [if_neg (hzero ▸ ne_null_of_get hp), hp]
  unfold restoreDeviceGroup
  rw [hinfo, Option.bind_some, findDeviceGroup_of_chain hs, Option.bind_some]
  rcases exists_firstGroup ws with hnone | ⟨as, w, bs, rfl, has, hw⟩
  · rw [firstGroup_eq_none hnone]
    exact ⟨h, rfl, fun _ hp => hp, hkept (groupContainer_eq_zero hnone)⟩
  have hgetw : h.get w.1 = some w.2 := hs.get (by simp)
  rw [firstGroup_append has hw]
  dsimp only [Option.map_some]
  rw [hgetw, Option.bind_some]
  rcases hdev : w.2.hasDevices with _ | _
  · rw [if_neg Bool.false_ne_true]
    refine ⟨h, rfl, fun _ hp => hp, hkept ?_⟩
    rw [groupContainer_append has hw, hdev]
    rfl
  rw [if_pos rfl]
  have hlast : ∃ t, h.get (lastAddr info as) = some t := by
    rcases lastAddr_eq info as with ⟨-, hlast⟩ | ⟨as', v, rfl, hlast⟩
    · exact ⟨s, by rw [hlast, hinfo]⟩
    · exact ⟨v.2, by rw [hlast]; exact hs.get (by simp)⟩
  obtain ⟨t₀, ht₀⟩ := hlast
  obtain ⟨h', hput, hget, hothers⟩ := setPNext_of_get ht₀ original
  refine ⟨h', hput, fun p hp => ?_, fun p t hp hne => ?_⟩
  · by_cases he : p = lastAddr info as
    · rw [he, hget]
      rfl
    · rw [hothers p he]
      exact hp
  · rcases lastAddr_eq info as with ⟨rfl, hlast⟩ | ⟨as', v, rfl, hlast⟩
    · -- the loader's own structure is written
      have hzero : groupContainer ([] ++ w :: bs) = 0 := groupContainer_head hw
      rw [hzero, if_neg (ne_null_of_get hp), hothers p (by rw [hlast]; exact hne), hp]
    · rw [groupContainer_snoc has hw hdev]
      rw [hlast] at hget hothers ht₀
      by_cases he : p = v.1
      · subst he
        rw [if_pos rfl, hget]
        obtain rfl := Option.some.inj (ht₀.symm.trans hp)
        rfl
      · rw [if_neg he, hothers p he, hp]

/-- A structure of the loader comes in front of the chain. -/
theorem pushStruct_of_chain (wish : ℕ) (hs : Chain ChainStruct.pNext h info ((info, s) :: ws)) :
    ∃ h' q s' t', pushStruct wish h info = some (h', q) ∧ h.get q = none ∧ q ≠ 0 ∧
      Chain ChainStruct.pNext h' info ((info, s') :: (q, t') :: ws) ∧ t'.isGroup = false ∧
      ∀ p t, h.get p = some t → p ≠ info → h'.get p = some t := by
  have hinfo : h.get info = some s := hs.2.1
  have hnew := h.get_place wish
  have hnull := h.place_ne_null wish
  let pushed : ChainStruct := .plain .loaderDeviceCreateInfo s.pNext
  have hpushed : (h.alloc wish pushed).get (h.place wish) = some pushed := alloc_get_self h wish pushed
  have hne : h.place wish ≠ info := by
    intro he
    rw [he, hinfo] at hnew
    cases hnew
  have hinfo' : (h.alloc wish pushed).get info = some s := alloc_get_of_get hinfo
  obtain ⟨h', hput, hget, hothers⟩ := setPNext_of_get hinfo' (h.place wish)
  have hkeep : ∀ p t, h.get p = some t → p ≠ info → h'.get p = some t := fun p t hp hne =>
    (hothers p hne).trans (alloc_get_of_get hp)
  refine ⟨h', h.place wish, { s with pNext := h.place wish }, pushed, ?_, hnew, hnull, ⟨rfl, hget, rfl, ?_, ?_⟩, rfl,
    hkeep⟩
  · unfold pushStruct
    rw [hinfo, Option.bind_some]
    dsimp only
    rw [hput]
    rfl
  · exact (hothers _ hne).trans hpushed
  · refine seg_of_agree hs.2.2 (fun u hu he => ?_) hkeep
    have hnd := hs.nodup
    rw [List.map_cons, List.nodup_cons] at hnd
    exact hnd.1 (List.mem_map.2 ⟨u, hu, he⟩)

end Write

/-! ### The call -/

section Call

variable (env : DeviceChainEnv) {h : Heap ChainStruct} {info : ℕ} {s : ChainStruct} {ws : List (ℕ × ChainStruct)}

/-- The `vkCreateDevice` is there and returns `VK_SUCCESS`. -/
def succeeds (next : Option NextCreateDevice) : Bool := next.any fun next => decide (next.result = .success)

/-- The structures of the loader are gone after it returns; the others are as they were. -/
theorem freeAll_locals {locals : List ℕ} (hnd : locals.Nodup) (hlive : ∀ p ∈ locals, (h.get p).isSome) :
    ∃ h', h.freeAll locals = some h' ∧ ∀ p, p ∉ locals → h'.get p = h.get p := by
  obtain ⟨h', hfree, hget, -⟩ := freeAll_of_get (hnd.filter _) fun p hp _ => hlive p hp
  exact ⟨h', hfree, fun p hp => by rw [hget, if_neg hp]⟩

/-- A structure that was pushed is one more structure on the stack. -/
theorem pushed_locals {h₁ : Heap ChainStruct} {new : ℕ} {s₁ t₁ : ChainStruct} {locals : List ℕ}
    (hnew : h.get new = none) (hchain : Chain ChainStruct.pNext h₁ info ((info, s₁) :: (new, t₁) :: ws))
    (hkeep : ∀ p t, h.get p = some t → p ≠ info → h₁.get p = some t) (hnd : locals.Nodup)
    (hlive : ∀ p ∈ locals, (h.get p).isSome) :
    (new :: locals).Nodup ∧ ∀ p ∈ new :: locals, (h₁.get p).isSome := by
  refine ⟨List.nodup_cons.2 ⟨fun hmem => ?_, hnd⟩, fun p hp => ?_⟩
  · have hl := hlive new hmem
    rw [hnew] at hl
    cases hl
  · rcases List.mem_cons.1 hp with rfl | hp
    · rw [hchain.get (w := (p, t₁)) (by simp)]
      rfl
    · by_cases he : p = info
      · rw [he, hchain.get (w := (info, s₁)) (by simp)]
        rfl
      · obtain ⟨t, ht⟩ := Option.isSome_iff_exists.1 (hlive p hp)
        rw [hkeep p t ht he]
        rfl

/-- **The call of `vkCreateDevice`** writes the chain back exactly if it succeeds. -/
theorem callCreateDevice_of_chain (links : DeviceLinks) (original : ℕ) {locals : List ℕ}
    (hs : Chain ChainStruct.pNext h info ((info, s) :: ws)) (hinfo : info ∈ locals) (hnd : locals.Nodup)
    (hlive : ∀ p ∈ locals, (h.get p).isSome) :
    ∃ r h', callCreateDevice env links h info original locals = some (r, h') ∧
      ∀ p t, h.get p = some t → p ∉ locals → h'.get p =
        some (if p = groupContainer ws ∧ succeeds (env.createDeviceOf links.nextGipa) = true then
          { t with pNext := original } else t) := by
  unfold callCreateDevice
  rcases hnext : env.createDeviceOf links.nextGipa with _ | next
  · obtain ⟨h', hfree, hget⟩ := freeAll_locals hnd hlive
    refine ⟨⟨.errorInitializationFailed, none, links.layerNextGdpa⟩, h', by dsimp only; rw [hfree]; rfl,
      fun p t hp hnot => ?_⟩
    rw [if_neg (by rintro ⟨-, hsucc⟩; cases hsucc), hget p hnot, hp]
  obtain ⟨h₁, disp, s₁, t₁, hpush, hnew, hnull, hchain₁, ht₁, hkeep₁⟩ := pushStruct_of_chain env.wishes.2.2.2 hs
  obtain ⟨hnd₁, hlive₁⟩ := pushed_locals hnew hchain₁ hkeep₁ hnd hlive
  dsimp only
  rw [hpush, Option.bind_some]
  -- the next function leaves what is there as it is
  have hkeep₂ : ∀ p t, h₁.get p = some t → (next.run h₁ info).get p = some t := next.keeps h₁ info
  have hlive₂ : ∀ p ∈ disp :: locals, ((next.run h₁ info).get p).isSome := by
    intro p hp
    obtain ⟨t, ht⟩ := Option.isSome_iff_exists.1 (hlive₁ p hp)
    rw [hkeep₂ p t ht]
    rfl
  have hchain₂ : Chain ChainStruct.pNext (next.run h₁ info) info ((info, s₁) :: (disp, t₁) :: ws) :=
    hchain₁.congr fun w hw => (hkeep₂ _ _ (hchain₁.get hw)).trans (hchain₁.get hw).symm
  have happ : ∀ p t, h.get p = some t → p ∉ locals → (next.run h₁ info).get p = some t ∧ p ∉ disp :: locals := by
    intro p t hp hnot
    have hne : p ≠ info := fun he => hnot (he ▸ hinfo)
    refine ⟨hkeep₂ p t (hkeep₁ p t hp hne), fun hmem => ?_⟩
    rcases List.mem_cons.1 hmem with rfl | hmem
    · rw [hnew] at hp
      cases hp
    · exact hnot hmem
  by_cases hres : next.result = .success
  · rw [if_neg (not_not.2 hres)]
    obtain ⟨h₃, hrestore, hlive₃, hget₃⟩ := restoreDeviceGroup_of_chain original hchain₂
    obtain ⟨h', hfree, hget⟩ := freeAll_locals hnd₁ fun p hp => hlive₃ p (hlive₂ p hp)
    rw [hrestore, Option.bind_some, hfree]
    refine ⟨_, h', rfl, fun p t hp hnot => ?_⟩
    obtain ⟨hp₂, hnot₂⟩ := happ p t hp hnot
    have hsucc : succeeds (some next) = true := by simp [succeeds, hres]
    rw [hget p hnot₂, hget₃ p t hp₂ fun he => hnot (he ▸ hinfo)]
    have hne : p ≠ disp := fun he => hnot₂ (he ▸ List.mem_cons_self)
    have hcontainer : p = groupContainer ((disp, t₁) :: ws) ↔ p = groupContainer ws :=
      eq_groupContainer_cons ht₁ hne (ne_null_of_get hp)
    simp [hcontainer, hsucc]
  · rw [if_pos hres]
    obtain ⟨h', hfree, hget⟩ := freeAll_locals hnd₁ hlive₂
    rw [hfree]
    refine ⟨_, h', rfl, fun p t hp hnot => ?_⟩
    obtain ⟨hp₂, hnot₂⟩ := happ p t hp hnot
    have hsucc : ¬ succeeds (some next) = true := by simp [succeeds, hres]
    rw [hget p hnot₂, hp₂, if_neg fun hc => hsucc hc.2]

/-- With layers, their structure comes in front of the chain before the call. -/
theorem pushAndCallCreateDevice_of_chain (links : DeviceLinks) (original : ℕ) {locals : List ℕ}
    (hs : Chain ChainStruct.pNext h info ((info, s) :: ws)) (hinfo : info ∈ locals) (hnd : locals.Nodup)
    (hlive : ∀ p ∈ locals, (h.get p).isSome) :
    ∃ r h', ((pushStruct env.wishes.2.2.1 h info).bind fun (h, chainInfo) =>
        callCreateDevice env links h info original (chainInfo :: locals)) = some (r, h') ∧
      ∀ p t, h.get p = some t → p ∉ locals → h'.get p =
        some (if p = groupContainer ws ∧ succeeds (env.createDeviceOf links.nextGipa) = true then
          { t with pNext := original } else t) := by
  obtain ⟨h₁, chainInfo, s₁, t₁, hpush, hnew, -, hchain₁, ht₁, hkeep₁⟩ := pushStruct_of_chain env.wishes.2.2.1 hs
  obtain ⟨hnd₁, hlive₁⟩ := pushed_locals hnew hchain₁ hkeep₁ hnd hlive
  obtain ⟨r, h', hcall, hget⟩ :=
    callCreateDevice_of_chain env links original hchain₁ (List.mem_cons_of_mem _ hinfo) hnd₁ hlive₁
  refine ⟨r, h', by rw [hpush]; exact hcall, fun p t hp hnot => ?_⟩
  have hne : p ≠ chainInfo := by
    rintro rfl
    rw [hnew] at hp
    cases hp
  have hnot₁ : p ∉ chainInfo :: locals := fun hmem => (List.mem_cons.1 hmem).elim hne hnot
  have hcontainer : p = groupContainer ((chainInfo, t₁) :: ws) ↔ p = groupContainer ws :=
    eq_groupContainer_cons ht₁ hne (ne_null_of_get hp)
  rw [hget p t (hkeep₁ p t hp fun he => hnot (he ▸ hinfo)) hnot₁]
  simp only [hcontainer]

/-- The structures on the stack after the copy was put in. -/
def stackLocals (splice : Option Splice) (info : ℕ) : List ℕ := splice.elim [] (fun s => [s.temp]) ++ [info]

/-- The structures on the stack are distinct, and not those of the application, which are in the heap `h`. -/
theorem Spliced.locals {h₁ h₂ : Heap ChainStruct} {splice : Option Splice} (hspliced : Spliced h₁ info ws h₂ splice)
    (hinfo : h₁.get info = some s) (hnew : h.get info = none) (hkeep : ∀ p t, h.get p = some t → h₁.get p = some t) :
    (stackLocals splice info).Nodup ∧ ∀ p ∈ stackLocals splice info, (h₂.get p).isSome ∧ h.get p = none := by
  obtain ⟨s₂, ys, hchain₂, -⟩ := hspliced.chain
  have hlast : (h₂.get info).isSome ∧ h.get info = none := ⟨by rw [hchain₂.get List.mem_cons_self]; rfl, hnew⟩
  cases splice with
  | none => exact ⟨List.nodup_singleton _, by simpa [stackLocals] using hlast⟩
  | some sp =>
    obtain ⟨htemp, -, htempLive⟩ := hspliced.temp sp rfl
    have hne : sp.temp ≠ info := by
      intro he
      rw [he, hinfo] at htemp
      cases htemp
    have htempNew : h.get sp.temp = none := by
      by_contra hsome
      obtain ⟨t, ht⟩ := Option.ne_none_iff_exists'.1 hsome
      rw [hkeep _ _ ht] at htemp
      cases htemp
    refine ⟨by simpa [stackLocals] using hne, fun p hp => ?_⟩
    rcases List.mem_cons.1 hp with rfl | hp
    · exact ⟨htempLive, htempNew⟩
    · rw [List.mem_singleton.1 hp]
      exact hlast

/-- What is written back is what was there before the copy was put in. -/
theorem Spliced.writeBack {h₁ h₂ : Heap ChainStruct} {splice : Option Splice} (hspliced : Spliced h₁ info ws h₂ splice)
    {p : ℕ} {t u : ChainStruct} (hp : h₁.get p = some t) (hne : p ≠ info) (hu : h₂.get p = some u) (success : Bool) :
    (if p = groupContainer ws ∧ success = true then { u with pNext := splice.elim 0 Splice.original } else u) =
      if p = groupContainer ws ∧ success = false then { t with pNext := splice.elim 0 Splice.temp } else t := by
  obtain rfl := Option.some.inj (hu.symm.trans (hspliced.frame p t hp hne))
  by_cases he : p = groupContainer ws
  · rw [← hspliced.original t (he ▸ hp)]
    cases success <;> simp [he]
  · simp [he]

/-- What creating a device does to the structures that are there before: the structure that comes before the group
keeps pointing at the copy unless `vkCreateDevice` succeeds. -/
theorem loaderCreateDeviceChain_of_chain {pCreateInfo : ℕ} (hget : h.get pCreateInfo = some s)
    (hs : Chain ChainStruct.pNext h s.pNext ws) :
    ∃ r h' temp, loaderCreateDeviceChain env h pCreateInfo = some (r, h') ∧
      (∀ t, h.get (groupContainer ws) = some t → temp ≠ t.pNext) ∧
      ∀ p t, h.get p = some t → h'.get p =
        some (if p = groupContainer ws ∧ succeeds env.fpCreateDevice = false then { t with pNext := temp } else t) := by
  -- the copy of the application's structure
  have hnew := h.get_place env.wishes.1
  have halloc : (h.alloc env.wishes.1 s).get (h.place env.wishes.1) = some s := alloc_get_self h env.wishes.1 s
  have hkeep : ∀ p t, h.get p = some t → (h.alloc env.wishes.1 s).get p = some t := fun p t => alloc_get_of_get
  have hlive : ∀ p t, h.get p = some t → p ≠ h.place env.wishes.1 := by
    rintro p t hp rfl
    rw [hnew] at hp
    cases hp
  unfold loaderCreateDeviceChain
  rw [hget, Option.bind_some]
  dsimp only
  generalize h.place env.wishes.1 = info at hnew halloc hlive ⊢
  generalize h.alloc env.wishes.1 s = h₁ at halloc hkeep ⊢
  have hchain₁ : Chain ChainStruct.pNext h₁ info ((info, s) :: ws) :=
    ⟨rfl, halloc, hs.congr fun w hw => (hkeep _ _ (hs.get hw)).trans (hs.get hw).symm⟩
  obtain ⟨h₂, splice, hsplice, hspliced⟩ := spliceDeviceGroup_of_chain env.physDevOf env.wishes.2.1 hchain₁
  obtain ⟨s₂, ys, hchain₂, hys⟩ := hspliced.chain
  obtain ⟨hnd, hlocals⟩ := hspliced.locals halloc hnew hkeep
  have hmem : info ∈ stackLocals splice info := List.mem_append_right _ (List.mem_singleton_self _)
  have hnot : ∀ p t, h.get p = some t → p ∉ stackLocals splice info := fun p t hp hmem => by
    have hnone := (hlocals p hmem).2
    rw [hp] at hnone
    cases hnone
  have hstale : ∀ t, h.get (groupContainer ws) = some t → splice.elim 0 Splice.temp ≠ t.pNext := by
    intro t ht
    rw [hspliced.original t (hkeep _ _ ht)]
    exact hspliced.stale (ne_null_of_get ht)
  have hlive₂ : ∀ p ∈ stackLocals splice info, (h₂.get p).isSome := fun p hp => (hlocals p hp).1
  have hcall : ∃ r h', (if env.expandedActivatedLayerList.isEmpty then
        callCreateDevice env (.start env.layers) h₂ info (splice.elim 0 Splice.original) (stackLocals splice info)
      else (pushStruct env.wishes.2.2.1 h₂ info).bind fun (h, chainInfo) =>
        callCreateDevice env (buildDeviceChain env env.expandedActivatedLayerList) h info
          (splice.elim 0 Splice.original) (chainInfo :: stackLocals splice info)) = some (r, h') ∧
      ∀ p t, h₂.get p = some t → p ∉ stackLocals splice info → h'.get p =
        some (if p = groupContainer ys ∧ succeeds env.fpCreateDevice = true then
          { t with pNext := splice.elim 0 Splice.original } else t) := by
    by_cases hempty : env.expandedActivatedLayerList.isEmpty = true
    · rw [if_pos hempty]
      have hnext : env.fpCreateDevice = env.createDeviceOf (DeviceLinks.start env.layers).nextGipa := by
        unfold DeviceChainEnv.fpCreateDevice
        rw [List.isEmpty_iff.1 hempty]
        rfl
      rw [hnext]
      exact callCreateDevice_of_chain env _ _ hchain₂ hmem hnd hlive₂
    · rw [if_neg hempty]
      exact pushAndCallCreateDevice_of_chain env _ _ hchain₂ hmem hnd hlive₂
  obtain ⟨r, h', hcall, hget'⟩ := hcall
  refine ⟨r, h', splice.elim 0 Splice.temp, by rw [hsplice]; exact hcall, hstale, fun p t hp => ?_⟩
  have hne := hlive p t hp
  rw [hget' p _ (hspliced.frame p t (hkeep p t hp) hne) (hnot p t hp), hys,
    hspliced.writeBack (hkeep p t hp) hne (hspliced.frame p t (hkeep p t hp) hne)]

end Call

/-! ### The application's chain -/

section Chain

variable {env : DeviceChainEnv} {h h' : Heap ChainStruct} {pCreateInfo : ℕ} {createInfo : ChainStruct}
  {chain : List (ℕ × ChainStruct)}

/-- **The application sees its chain unchanged**: its own structure, and the same structures behind it, each as it
was. -/
def ChainRestored (h' : Heap ChainStruct) (pCreateInfo : ℕ) (createInfo : ChainStruct)
    (chain : List (ℕ × ChainStruct)) : Prop :=
  h'.get pCreateInfo = some createInfo ∧ Chain ChainStruct.pNext h' createInfo.pNext chain

theorem groupInside_iff {h : Heap ChainStruct} {p : ℕ} (hs : Chain ChainStruct.pNext h p chain) :
    GroupInside chain ↔ groupContainer chain ≠ 0 := by
  constructor
  · rintro ⟨as, v, w, bs, rfl, has, hw, hdev⟩
    rw [show as ++ v :: w :: bs = (as ++ [v]) ++ w :: bs by simp, groupContainer_snoc has hw hdev]
    exact ne_null_of_get (hs.get (w := v) (by simp))
  · intro hne
    rcases exists_firstGroup chain with hnone | ⟨as, w, bs, rfl, has, hw⟩
    · exact absurd (groupContainer_eq_zero hnone) hne
    · rw [groupContainer_append has hw] at hne
      split_ifs at hne with hdev
      · rcases lastAddr_eq 0 as with ⟨rfl, hlast⟩ | ⟨as', v, rfl, -⟩
        · exact absurd hlast hne
        · exact ⟨as', v, w, bs, by simp, has, hw, hdev⟩
      · exact absurd rfl hne

/-- **Creating a device restores the application's chain exactly if** `vkCreateDevice` succeeds or there was nothing to
put into that chain: the first group of the chain has no handles, or no other structure of the chain comes before it. -/
theorem chainRestored_iff (env : DeviceChainEnv) (hget : h.get pCreateInfo = some createInfo)
    (hchain : Chain ChainStruct.pNext h createInfo.pNext chain) :
    ∃ r h', loaderCreateDeviceChain env h pCreateInfo = some (r, h') ∧
      (ChainRestored h' pCreateInfo createInfo chain ↔
        (GroupInside chain → ∃ next, env.fpCreateDevice = some next ∧ next.result = .success)) := by
  obtain ⟨r, h', temp, hrun, hstale, hafter⟩ := loaderCreateDeviceChain_of_chain env hget hchain
  have hsucc : (∃ next, env.fpCreateDevice = some next ∧ next.result = .success) ↔
      succeeds env.fpCreateDevice = true := by
    unfold succeeds
    cases env.fpCreateDevice <;> simp
  refine ⟨r, h', hrun, ?_⟩
  rw [groupInside_iff hchain, hsucc]
  constructor
  · -- the structure before the group would point at the copy
    rintro ⟨-, hchain'⟩ hne
    by_contra hfail
    obtain ⟨as, v, w, bs, rfl, has, hw, hdev⟩ := (groupInside_iff hchain).2 hne
    have hcontainer : groupContainer (as ++ v :: w :: bs) = v.1 := by
      rw [show as ++ v :: w :: bs = (as ++ [v]) ++ w :: bs by simp]
      exact groupContainer_snoc has hw hdev
    have hv : h.get v.1 = some v.2 := hchain.get (by simp)
    have hv' := hafter v.1 v.2 hv
    rw [if_pos ⟨hcontainer.symm, by simpa using hfail⟩, hchain'.get (w := v) (by simp)] at hv'
    apply hstale v.2 (by rw [hcontainer, hv])
    rw [Option.some.inj hv']
  · intro hok
    have hkeep : ∀ p t, h.get p = some t → h'.get p = some t := by
      intro p t hp
      rw [hafter p t hp, if_neg]
      rintro ⟨rfl, hfail⟩
      rw [hok (ne_null_of_get hp)] at hfail
      cases hfail
    exact ⟨hkeep _ _ hget, hchain.congr fun w hw => (hkeep _ _ (hchain.get hw)).trans (hchain.get hw).symm⟩

end Chain

/-! ### The terminator -/

section Terminator

variable {env : CreateDeviceTerminator} {h h' : Heap ChainStruct}

theorem findDeviceGroup_container {fuel prev p q c : ℕ} {s : ChainStruct} (hs : h.get prev = some s)
    (hp : s.pNext = p) (h₀ : findDeviceGroup h fuel prev p = some (some (q, c))) :
    ∃ t, h.get q = some t ∧ t.pNext = c := by
  induction fuel generalizing prev p s with
  | zero => cases h₀
  | succ fuel ih =>
    unfold findDeviceGroup at h₀
    split_ifs at h₀
    · cases h₀
    · obtain ⟨t, ht, h₀⟩ := Option.bind_eq_some_iff.1 h₀
      split_ifs at h₀
      · obtain ⟨rfl, rfl⟩ := Prod.mk.inj (Option.some.inj (Option.some.inj h₀))
        exact ⟨s, hs, hp⟩
      · exact ih ht rfl h₀

theorem setPNext_cases {p q : ℕ} (h₀ : setPNext h p q = some h') :
    ∃ s, h.get p = some s ∧ h'.get p = some { s with pNext := q } ∧ ∀ r, r ≠ p → h'.get r = h.get r := by
  obtain ⟨s, hs, hput⟩ := Option.bind_eq_some_iff.1 h₀
  obtain ⟨h'', hset, hget, hothers⟩ := setPNext_of_get hs q
  rw [h₀] at hset
  obtain rfl := Option.some.inj hset
  exact ⟨s, hs, hget, hothers⟩

/-- Where a copy is put in, the structure before the original points at the copy, and no other one is written. -/
theorem spliceDeviceGroup_cases {physDevOf : Handle → Handle} {wish info : ℕ} {splice : Option Splice}
    (h₀ : spliceDeviceGroup physDevOf wish h info = some (h', splice)) :
    match splice with
    | none => h' = h
    | some sp => h.get sp.temp = none ∧ ∃ t, h.get sp.container = some t ∧ t.pNext = sp.original ∧
        h'.get sp.container = some { t with pNext := sp.temp } ∧
        ∀ p u, h.get p = some u → p ≠ sp.container → h'.get p = some u := by
  obtain ⟨createInfo, hinfo, h₀⟩ := Option.bind_eq_some_iff.1 h₀
  obtain ⟨found, hfound, h₀⟩ := Option.bind_eq_some_iff.1 h₀
  rcases found with _ | ⟨pPrev, cur⟩
  · obtain ⟨rfl, rfl⟩ := Prod.mk.inj (Option.some.inj h₀)
    rfl
  · obtain ⟨s, -, h₀⟩ := Option.bind_eq_some_iff.1 h₀
    split_ifs at h₀
    · obtain ⟨h₁, hset, heq⟩ := Option.map_eq_some_iff.1 h₀
      obtain ⟨rfl, rfl⟩ := Prod.mk.inj heq
      obtain ⟨t, ht, hnext⟩ := findDeviceGroup_container hinfo rfl hfound
      obtain ⟨u, hu, hget, hothers⟩ := setPNext_cases hset
      rw [alloc_get_of_get ht] at hu
      obtain rfl := Option.some.inj hu
      exact ⟨h.get_place wish, t, ht, hnext, hget, fun p v hv hne => (hothers p hne).trans (alloc_get_of_get hv)⟩
    · obtain ⟨rfl, rfl⟩ := Prod.mk.inj (Option.some.inj h₀)
      rfl

theorem free_get_of_ne {p q : ℕ} (h₀ : h.free p = some h') (hne : q ≠ p) : h'.get q = h.get q := by
  have hall : h.freeAll [p] = some h' := by
    rw [freeAll, h₀]
    rfl
  exact freeAll_get_of_not_mem hall (by simpa using hne)

/-- **The terminator leaves every structure as it was**, whatever the driver returns. -/
theorem terminatorCreateDevice_keeps {pCreateInfo : ℕ} (h₀ : terminatorCreateDevice env h pCreateInfo = some h')
    {p : ℕ} {s : ChainStruct} (hp : h.get p = some s) : h'.get p = some s := by
  unfold terminatorCreateDevice at h₀
  split at h₀
  · obtain rfl := Option.some.inj h₀
    exact hp
  · rename_i fpCreateDevice _
    obtain ⟨createInfo, -, h₀⟩ := Option.bind_eq_some_iff.1 h₀
    have hne : p ≠ h.place env.wishes.1 := by
      rintro rfl
      rw [get_place] at hp
      cases hp
    have hp₁ : (h.alloc env.wishes.1 (env.localCreateInfo createInfo)).get p = some s := alloc_get_of_get hp
    dsimp only at h₀
    split_ifs at h₀
    · rw [free_get_of_ne h₀ hne, hp₁]
    · obtain ⟨⟨h₂, splice⟩, hsplice, h₀⟩ := Option.bind_eq_some_iff.1 h₀
      have hcases := spliceDeviceGroup_cases hsplice
      rcases splice with _ | sp
      · dsimp only at hcases h₀
        subst hcases
        rw [free_get_of_ne h₀ hne]
        exact fpCreateDevice.keeps _ _ p s hp₁
      · obtain ⟨hnew, t, ht, hnext, hget, hothers⟩ := hcases
        obtain ⟨h₃, hset, hfree⟩ := Option.bind_eq_some_iff.1 h₀
        have hnot : p ∉ [sp.temp, h.place env.wishes.1] := by
          have htemp : p ≠ sp.temp := by
            rintro rfl
            rw [hp₁] at hnew
            cases hnew
          simp [htemp, hne]
        rw [freeAll_get_of_not_mem hfree hnot]
        obtain ⟨u, hu, hback, hrest⟩ := setPNext_cases hset
        by_cases he : p = sp.container
        · -- the structure that was written is written back
          subst he
          rw [fpCreateDevice.keeps _ _ _ _ hget] at hu
          obtain rfl := Option.some.inj hu
          obtain rfl := Option.some.inj (hp₁.symm.trans ht)
          rw [hback, ← hnext]
        · rw [hrest p he]
          exact fpCreateDevice.keeps _ _ _ _ (hothers p s hp₁ he)

/-- The terminator, as the next function that the loader calls. -/
def CreateDeviceTerminator.next (env : CreateDeviceTerminator) (device : Handle) : NextCreateDevice where
  result := env.result
  device := device
  run h info := (terminatorCreateDevice env h info).getD h
  keeps h info p s hp := by
    rcases hrun : terminatorCreateDevice env h info with _ | h'
    · exact hp
    · exact terminatorCreateDevice_keeps hrun hp

end Terminator

section Example

/-- A group of one device behind another structure, from the address 2. -/
def groupChain : List (ℕ × ChainStruct) :=
  [(2, .plain (.other 0) 3), (3, { ChainStruct.plain .deviceGroupDeviceCreateInfo 0 with pPhysicalDevices := some [7] })]

/-- The application's structures: its create info at the address 1, and the chain behind it. -/
def groupHeap : Heap ChainStruct :=
  ((Heap.empty.alloc 1 (.plain .deviceCreateInfo 2)).alloc 2 (.plain (.other 0) 3)).alloc 3
    { ChainStruct.plain .deviceGroupDeviceCreateInfo 0 with pPhysicalDevices := some [7] }

/-- No layer, and a driver that exposes no `vkCreateDevice`. -/
def refusingEnv : DeviceChainEnv where
  lib := ⟨fun _ _ => .notLoaded, fun _ => 0, fun _ _ => none, fun _ => (.success, ⟨0, none, none, none⟩), 1,
    fun name _ => (.success, name)⟩
  expandedActivatedLayerList := []
  layers _ := ⟨"", 0, "", .notLoaded, none, ⟨none, none, none, none, none, none, none⟩⟩
  createDeviceOf _ := some (CreateDeviceTerminator.next ⟨none, .success, .success, [], id, (0, 0)⟩ 0)
  callingLayer := none
  physDevOf device := device + 10
  wishes := (0, 0, 0, 0)

theorem chainRestored_iff_groupChain :
    ∃ r h', loaderCreateDeviceChain refusingEnv groupHeap 1 = some (r, h') ∧
      (ChainRestored h' 1 (.plain .deviceCreateInfo 2) groupChain ↔
        (GroupInside groupChain → ∃ next, refusingEnv.fpCreateDevice = some next ∧ next.result = .success)) :=
  chainRestored_iff refusingEnv rfl ⟨rfl, rfl, rfl, rfl, rfl⟩

/-- The driver refuses, and the structure before the group points at a copy that is gone. -/
theorem not_chainRestored :
    ¬ ∀ env h pCreateInfo createInfo chain r h', h.get pCreateInfo = some createInfo →
      Chain ChainStruct.pNext h createInfo.pNext chain → loaderCreateDeviceChain env h pCreateInfo = some (r, h') →
        ChainRestored h' pCreateInfo createInfo chain := by
  intro hall
  have hrun : ∃ r h', loaderCreateDeviceChain refusingEnv groupHeap 1 = some (r, h') ∧
      h'.get 2 = some (.plain (.other 0) 5) ∧ h'.get 5 = none := ⟨_, _, rfl, rfl, rfl⟩
  obtain ⟨r, h', hrun, hget, -⟩ := hrun
  have hchain : Chain ChainStruct.pNext groupHeap 2 groupChain := ⟨rfl, rfl, rfl, rfl, rfl⟩
  obtain ⟨-, hrestored⟩ := hall refusingEnv groupHeap 1 (.plain .deviceCreateInfo 2) groupChain r h' rfl hchain hrun
  have hbefore : h'.get 2 = some (.plain (.other 0) 3) := hrestored.get (w := (2, .plain (.other 0) 3)) (by decide)
  rw [hget] at hbefore
  exact absurd hbefore (by decide)

end Example

end VulkanLoader
