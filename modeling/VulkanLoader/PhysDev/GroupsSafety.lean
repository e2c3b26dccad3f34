import VulkanLoader.PhysDev.GroupsFilling

/-!
# The groups that the instance keeps

A call of `terminator_EnumeratePhysicalDeviceGroups` returns, the list of groups is sound, errors are returned, and a
call that failed left the list alone, unless the drivers fill in less than they counted, a group that is stored twice
is not reported again, an error meets a caller with room for fewer groups than are stored or a list with a null entry,
or the list is left as it was after a device in it went away.
-/

namespace VulkanLoader

open Lib

/-- Every entry is a group, and every device of it is a live object of the terminator's list. -/
def GroupsSound (s : GroupsState) : Prop :=
  ∀ p ∈ s.stored, p ≠ nullHandle ∧ ∃ g, s.heap.get p = some g ∧
    ∀ d ∈ g.physicalDevices, d ∈ s.term.stored ∧ (s.term.heap.get d).isSome

/-- A call from `s` that returned keeps the groups. -/
structure KeepsGroups (s : GroupsState) (out : GroupsOutcome) : Prop where
  sound : out.result = .success ∨ out.result = .incomplete → GroupsSound out.state
  error : out.ended ≠ .success → out.ended ≠ .incomplete → out.result = out.ended
  unchanged : out.ended ≠ .success → out.state.physDevGroupsTerm = s.physDevGroupsTerm ∧
    out.state.physDevGroupCountTerm = s.physDevGroupCountTerm

/-- The call returns and keeps the groups. -/
def CallResult.Keeps (s : GroupsState) (result : CallResult GroupsOutcome) : Prop :=
  ∃ out, result = .returned out ∧ KeepsGroups s out

section Keeps

variable {s : GroupsState} {out : GroupsOutcome}

theorem CallResult.keeps_returned_iff : (CallResult.returned out).Keeps s ↔ KeepsGroups s out := by
  constructor
  · rintro ⟨out', hout, h⟩
    obtain rfl := CallResult.returned.inj hout
    exact h
  · intro h
    exact ⟨out, rfl, h⟩

theorem CallResult.not_keeps_freedTwice : ¬ (CallResult.freedTwice : CallResult GroupsOutcome).Keeps s := by
  rintro ⟨out, hout, -⟩
  cases hout

theorem CallResult.not_keeps_copiedNull : ¬ (CallResult.copiedNull : CallResult GroupsOutcome).Keeps s := by
  rintro ⟨out, hout, -⟩
  cases hout

end Keeps

/-! ### When a call does -/

/-- The first thing that goes wrong in a call: the enumeration of the devices, with the result `r`, the request for the
array, an answer of a driver, a device without an object, or the request for a group. -/
def GroupsCall.trouble (c : GroupsCall) (s : GroupsState) (totalCount : ℕ) (r : VkResult × TermState) : VkResult :=
  if r.1 ≠ .success then r.1
  else if c.room.isNone then .success
  else if c.newGroups = false then .errorOutOfHostMemory
  else
    match answeredGroups c totalCount r.2 with
    | none => .success
    | some q =>
      if q.1 ≠ .success then q.1
      else if groupRefused s.heap s.stored c.object q.2 0 then .errorOutOfHostMemory
      else .success

/-- The call does no harm to the list, where the enumeration of the devices gives `r`. -/
structure GroupsCall.HarmlessAfter (c : GroupsCall) (s : GroupsState) (totalCount : ℕ) (r : VkResult × TermState) :
    Prop where
  /-- Where nothing goes wrong, the drivers fill in what they counted, and no group is without devices. -/
  filled : c.trouble s totalCount r = .success → c.room.isSome → ∀ q, answeredGroups c totalCount r.2 = some q →
    ∀ g ∈ q.2, g.physicalDevices ≠ []
  /-- A group that is stored twice is then taken over, so that it is not freed. -/
  taken : c.trouble s totalCount r = .success → c.room.isSome → ∀ q, answeredGroups c totalCount r.2 = some q →
    ∀ p ∈ s.stored, p ≠ nullHandle → 1 < s.stored.count p → TakenOver s.heap s.stored q.2 p
  /-- A call for the count only finds the list sound. -/
  counted : c.trouble s totalCount r = .success → c.room = none → GroupsSound { s with term := r.2 }
  /-- So does a call with `VK_INCOMPLETE` from a driver. -/
  incomplete : c.trouble s totalCount r = .incomplete → GroupsSound { s with term := r.2 }
  /-- Where an error is met, the caller has room for the list, and no entry of it is null. -/
  room : c.trouble s totalCount r ≠ .success → c.trouble s totalCount r ≠ .incomplete →
    ∀ room, c.room = some room → s.physDevGroupCountTerm ≤ room ∧ nullHandle ∉ s.stored

/-- The call does no harm to the list. -/
def GroupsCall.Harmless (c : GroupsCall) (s : GroupsState) (totalCount : ℕ) : Prop :=
  ∀ r, setupDevices s c totalCount = some r → c.HarmlessAfter s totalCount r

/-! ### A call -/

/-- What holds of the instance between calls: where the number of devices is known there is a list of them, and the
entries of the list of groups are groups or null. -/
structure GroupsState.WellFormed (s : GroupsState) : Prop where
  list : s.term.totalGpuCount ≠ 0 → s.term.physDevsTerm ≠ []
  allocated : Allocated s.heap s.stored

section Call

variable {s : GroupsState} {c : GroupsCall} {totalCount : ℕ} {r : VkResult × TermState} {b : GroupsBody}
  {out : GroupsOutcome} {p : Handle}

theorem setupDevices_array (hs : s.WellFormed) (h : setupDevices s c totalCount = some r) :
    (r.1 = .success → r.2.physDevsTerm ≠ []) ∧ (r.2.totalGpuCount ≠ 0 → r.2.physDevsTerm ≠ []) := by
  unfold setupDevices at h
  split_ifs at h with hneeded
  · obtain ⟨hok, hfail⟩ := setupLoaderTermPhysDevs_array h
    refine ⟨hok, fun hcount => hok ?_⟩
    by_contra hne
    exact hcount (hfail hne).2
  · obtain rfl := Option.some.inj h
    exact ⟨fun _ => hs.list fun h0 => hneeded (Or.inr h0), hs.list⟩

/-- How the part before `out:` comes out, where the enumeration of the devices gives `r`. -/
inductive BodyOutcome (s : GroupsState) (c : GroupsCall) (totalCount : ℕ) (r : VkResult × TermState) :
    GroupsBody → Prop where
  | stopped (res : VkResult) (new : List Handle) (count : ℕ) (hnull : ∀ p ∈ new, p = nullHandle)
      (hstop : res ≠ .success ∨ c.room = none) : BodyOutcome s c totalCount r ⟨res, r.2, s.heap, new, count⟩
  | refused (heap : Heap GroupProperties) (gs : List GroupProperties) (new : List Handle) (count : ℕ)
      (hsetup : r.1 = .success) (hroom : c.room ≠ none) (hfilled : Filled s.heap gs .errorOutOfHostMemory heap new)
      (hfresh : (new.filter (· ∉ s.stored)).Nodup) :
      BodyOutcome s c totalCount r ⟨.errorOutOfHostMemory, r.2, heap, new, count⟩
  | made (heap : Heap GroupProperties) (gs : List GroupProperties) (added : List Handle) (hsetup : r.1 = .success)
      (hroom : c.room ≠ none) (hanswered : answeredGroups c totalCount r.2 = some (.success, gs))
      (hfilled : Filled s.heap gs .success heap added)
      (htaken : ∀ p, (s.heap.get p).isSome → (p ∈ added ↔ TakenOver s.heap s.stored gs p)) :
      BodyOutcome s c totalCount r ⟨.success, r.2, heap,
        added ++ List.replicate (totalCount - added.length) nullHandle, totalCount⟩

/-- **The part before `out:`.** -/
theorem groupsBody_outcome (hs : s.WellFormed) (hb : groupsBody s c totalCount = some b) :
    ∃ r, setupDevices s c totalCount = some r ∧ b.res = c.trouble s totalCount r ∧ BodyOutcome s c totalCount r b := by
  unfold groupsBody at hb
  obtain ⟨r, hr, hb⟩ := Option.bind_eq_some_iff.1 hb
  have hnulls : ∀ p ∈ List.replicate totalCount nullHandle, p = nullHandle := fun p hp => List.eq_of_mem_replicate hp
  refine ⟨r, hr, ?_⟩
  unfold GroupsCall.trouble
  split_ifs at hb ⊢ with hsetup hroom hnew
  · obtain rfl := Option.some.inj hb
    exact ⟨rfl, .stopped _ _ _ (by simp) (Or.inl hsetup)⟩
  · obtain rfl := Option.some.inj hb
    exact ⟨rfl, .stopped _ _ _ (by simp) (Or.inr (Option.isNone_iff_eq_none.1 hroom))⟩
  · obtain rfl := Option.some.inj hb
    exact ⟨rfl, .stopped _ _ _ (by simp) (Or.inl nofun)⟩
  · obtain ⟨q, hq, hb⟩ := Option.bind_eq_some_iff.1 hb
    have hroom' : c.room ≠ none := fun hnone => hroom (Option.isNone_iff_eq_none.2 hnone)
    rw [hq]
    dsimp only
    split_ifs at hb with hanswer
    · obtain rfl := Option.some.inj hb
      rw [if_pos hanswer]
      exact ⟨rfl, .stopped _ _ _ hnulls (Or.inl hanswer)⟩
    · obtain ⟨f, hf, rfl⟩ := Option.map_eq_some_iff.1 hb
      rw [if_neg hanswer]
      obtain ⟨res, gs⟩ := q
      obtain rfl : res = .success := not_not.1 hanswer
      have hresult := fillGroups_result hs.allocated (fun _ _ hv => hv) hf
      obtain ⟨added, hadd, hfilled⟩ := fillGroups_filled hf
      obtain ⟨fresh, hadd', hfresh, -⟩ := fillGroups_fresh hf
      have htaken := fun hok p hp => fillGroups_taken hs.allocated (fun _ _ hv => hv) hf hok (p := p) hp
      obtain ⟨fres, heap, new⟩ := f
      rw [List.nil_append] at hadd hadd'
      dsimp only at hadd hadd' hresult hfilled htaken ⊢
      subst hadd hadd'
      rw [List.length_nil] at hresult
      rcases hfilled.result with rfl | rfl
      · refine ⟨hresult, .made heap gs new (not_not.1 hsetup) hroom' hq hfilled fun p hp => ?_⟩
        simpa using htaken rfl p hp
      · exact ⟨hresult, .refused heap gs new _ (not_not.1 hsetup) hroom' hfilled hfresh⟩

/-- The list after a call that met no error, with the entries `added` for the groups `gs`. -/
theorem groupsSound_made_iff {term : TermState} {gs : List GroupProperties} {heap heap' : Heap GroupProperties}
    {added : List Handle} (hlen : gs.length = totalCount)
    (hlive : ∀ g ∈ gs, ∀ d ∈ g.physicalDevices, d ∈ term.stored ∧ (term.heap.get d).isSome)
    (hfilled : Filled s.heap gs .success heap added) (hget : ∀ p ∈ added, heap'.get p = heap.get p) :
    GroupsSound ⟨term, heap', added ++ List.replicate (totalCount - added.length) nullHandle, totalCount⟩ ↔
      ∀ g ∈ gs, g.physicalDevices ≠ [] := by
  have hcount := hfilled.complete rfl
  have hle : (gs.filter (·.physicalDevices ≠ [])).length ≤ gs.length := List.length_filter_le _ _
  have hstored : GroupsState.stored ⟨term, heap', added ++ List.replicate (totalCount - added.length) nullHandle,
      totalCount⟩ = added ++ List.replicate (totalCount - added.length) nullHandle := by
    unfold GroupsState.stored
    rw [List.take_of_length_le]
    simp only [List.length_append, List.length_replicate]
    omega
  unfold GroupsSound
  rw [hstored]
  constructor
  · intro hsound
    -- an entry that stayed null would not be a group
    have hfull : totalCount - added.length = 0 := by
      by_contra hne
      have hnull : nullHandle ∈ added ++ List.replicate (totalCount - added.length) nullHandle :=
        List.mem_append_right _ (List.mem_replicate.2 ⟨hne, rfl⟩)
      exact (hsound nullHandle hnull).1 rfl
    have hall : (gs.filter (·.physicalDevices ≠ [])).length = gs.length := by omega
    intro g hg
    simpa using List.length_filter_eq_length_iff.1 hall g hg
  · intro hall p hp
    have hfull : gs.filter (·.physicalDevices ≠ []) = gs := List.filter_eq_self.2 (by simpa using hall)
    have hzero : totalCount - added.length = 0 := by
      rw [hfull] at hcount
      omega
    rw [hzero, List.replicate_zero, List.append_nil] at hp
    obtain ⟨g, hg, -, g', hget', -, hdevices⟩ := hfilled.groups p hp
    refine ⟨Heap.ne_null_of_get hget', g', by rw [hget p hp, hget'], fun d hd => ?_⟩
    exact hlive g hg d (hdevices d hd)

/-- The soundness of the list does not depend on groups that are not in it. -/
theorem groupsSound_congr {heap : Heap GroupProperties} (term : TermState) (hget : ∀ p ∈ s.stored, heap.get p = s.heap.get p) :
    GroupsSound { s with term := term, heap := heap } ↔ GroupsSound { s with term := term } := by
  unfold GroupsSound
  constructor
  · intro h p hp
    obtain ⟨hnull, g, hg, hdevices⟩ := h p hp
    exact ⟨hnull, g, (hget p hp).symm.trans hg, hdevices⟩
  · intro h p hp
    obtain ⟨hnull, g, hg, hdevices⟩ := h p hp
    exact ⟨hnull, g, (hget p hp).trans hg, hdevices⟩

/-- The copy is made unless an entry is null, and one that is made of the whole list met no such entry. -/
theorem copyGroups_outcome (hs : Allocated s.heap s.stored) (res : VkResult) (room : ℕ) :
    (copyGroups s res room = .copiedNull ∧ nullHandle ∈ s.stored) ∨ ∃ count properties,
      copyGroups s res room =
        .returned ⟨res, if s.physDevGroupCountTerm > room then .incomplete else res, s, count, properties⟩ ∧
      (s.physDevGroupCountTerm ≤ room → nullHandle ∉ s.stored) := by
  unfold copyGroups
  dsimp only
  generalize hcount : (if s.physDevGroupCountTerm > room then room else s.physDevGroupCountTerm) = count
  rcases hcopy : (s.stored.take count).mapM s.heap.get with _ | properties
  · left
    refine ⟨rfl, ?_⟩
    -- what cannot be read is null
    have hnone : ¬ ∀ p ∈ s.stored.take count, (s.heap.get p).isSome := by
      rw [← isSome_mapM, hcopy]
      exact Bool.false_ne_true
    push Not at hnone
    obtain ⟨p, hp, hget⟩ := hnone
    have hmem := List.mem_of_mem_take hp
    by_cases hnull : p = nullHandle
    · exact hnull ▸ hmem
    · exact absurd (hs p hmem hnull) hget
  · right
    refine ⟨count, properties, rfl, fun hroom hnull => ?_⟩
    have hall : s.stored.take count = s.stored := by
      rw [if_neg (by omega)] at hcount
      subst hcount
      unfold GroupsState.stored
      rw [List.take_take, Nat.min_self]
    have hread := isSome_mapM.1 (by rw [hcopy]; rfl) nullHandle (hall ▸ hnull)
    rw [s.heap.get_null] at hread
    cases hread

theorem not_groupsSound_of_null (hnull : nullHandle ∈ s.stored) : ¬ GroupsSound s :=
  fun h => (h nullHandle hnull).1 rfl

/-- A call that did not make a new list: what it keeps depends on the room of the caller. -/
theorem keepsGroups_left_iff {term : TermState} {heap : Heap GroupProperties} {res : VkResult} {count : ℕ}
    {properties : List GroupProperties} (room : ℕ) (hne : res ≠ .success) :
    KeepsGroups s ⟨res, if s.physDevGroupCountTerm > room then .incomplete else res,
        { s with term := term, heap := heap }, count, properties⟩ ↔
      (res = .incomplete → GroupsSound { s with term := term, heap := heap }) ∧
        (res ≠ .incomplete → s.physDevGroupCountTerm ≤ room) := by
  constructor
  · intro h
    refine ⟨fun hinc => h.sound (Or.inr ?_), fun hinc => ?_⟩
    · subst hinc
      exact ite_self _
    · by_contra hroom
      have herror := h.error hne hinc
      dsimp only at herror
      rw [if_pos (by omega)] at herror
      exact hinc herror.symm
  · rintro ⟨hsound, hroom⟩
    refine ⟨fun hresult => ?_, fun _ hinc => if_neg (by have := hroom hinc; omega), fun _ => ⟨rfl, rfl⟩⟩
    by_cases hinc : res = .incomplete
    · exact hsound hinc
    · dsimp only at hresult
      rw [if_neg (by have := hroom hinc; omega)] at hresult
      exact absurd hresult (not_or.2 ⟨hne, hinc⟩)

/-- With the copy: it must not meet a null entry. -/
theorem keeps_left_iff {term : TermState} {heap : Heap GroupProperties} {res : VkResult} (room : ℕ)
    (hne : res ≠ .success) (hs : Allocated heap s.stored) :
    (copyGroups { s with term := term, heap := heap } res room).Keeps s ↔
      (res = .incomplete → GroupsSound { s with term := term, heap := heap }) ∧
        (res ≠ .incomplete → s.physDevGroupCountTerm ≤ room ∧ nullHandle ∉ s.stored) := by
  rcases copyGroups_outcome (s := { s with term := term, heap := heap }) hs res room with
    ⟨hcopy, hnull⟩ | ⟨count, properties, hcopy, hread⟩
  · rw [hcopy]
    refine iff_of_false CallResult.not_keeps_copiedNull fun h => ?_
    by_cases hinc : res = .incomplete
    · exact not_groupsSound_of_null hnull (h.1 hinc)
    · exact (h.2 hinc).2 hnull
  · rw [hcopy, CallResult.keeps_returned_iff]
    refine (keepsGroups_left_iff room hne).trans ?_
    exact and_congr_right fun _ => forall_congr' fun _ => (and_iff_left_of_imp hread).symm

/-- **The clean-up after an error** frees nothing twice, and leaves the groups of the list: what was made is null, or
distinct objects beside those of the list. -/
theorem swapGroups_of_error (hne : b.res ≠ .success) (hnew : (∀ p ∈ b.newPhysDevGroups, p = nullHandle) ∨
      b.term.physDevsTerm ≠ [] ∧ (b.newPhysDevGroups.filter (· ∉ s.stored)).Nodup ∧
        ∀ p ∈ b.newPhysDevGroups, (b.heap.get p).isSome) :
    ∃ heap, swapGroups s b = some { s with term := b.term, heap := heap } ∧
      ∀ p ∈ s.stored, heap.get p = b.heap.get p := by
  let freed := b.newPhysDevGroups.filter fun p => b.term.physDevsTerm = [] ∨ p ∉ s.stored
  have hfreed : (freed.filter (· ≠ 0)).Nodup ∧ (∀ p ∈ freed, p ≠ 0 → (b.heap.get p).isSome) ∧
      ∀ p ∈ freed, p ≠ 0 → p ∉ s.stored := by
    rcases hnew with hnull | ⟨hterm, hfresh, hlive⟩
    · -- there is nothing to free
      have hnone : ∀ p ∈ freed, p = 0 := fun p hp => hnull p (List.mem_of_mem_filter hp)
      refine ⟨?_, fun p hp hne => absurd (hnone p hp) hne, fun p hp hne => absurd (hnone p hp) hne⟩
      rw [List.filter_eq_nil_iff.2 (by simpa using hnone)]
      exact List.nodup_nil
    · have hcond : freed = b.newPhysDevGroups.filter (· ∉ s.stored) := List.filter_congr fun p _ => by simp [hterm]
      rw [hcond]
      exact ⟨hfresh.sublist List.filter_sublist, fun p hp _ => hlive p (List.mem_of_mem_filter hp),
        fun p hp _ => of_decide_eq_true (List.mem_filter.1 hp).2⟩
  obtain ⟨hnd, hlive, hother⟩ := hfreed
  obtain ⟨heap, hfree, -⟩ := Heap.freeAll_of_get hnd hlive
  refine ⟨heap, ?_, fun p hp => ?_⟩
  · unfold swapGroups
    rw [if_pos hne]
    exact congrArg (Option.map _) hfree
  · by_cases hnull : p = 0
    · rw [hnull, heap.get_null, b.heap.get_null]
    · exact Heap.freeAll_get_of_not_mem hfree fun hmem => hother p hmem hnull hp

/-- The clean-up where no error is met. -/
theorem swapGroups_success {s' : GroupsState} (hres : b.res = .success) (h : swapGroups s b = some s') : ∃ heap,
    b.heap.freeAll (s.stored.filter (· ∉ b.newPhysDevGroups)) = some heap ∧
      s' = ⟨b.term, heap, b.newPhysDevGroups, b.totalCount⟩ := by
  unfold swapGroups at h
  rw [if_neg (not_not_intro hres)] at h
  obtain ⟨heap, hfree, rfl⟩ := Option.map_eq_some_iff.1 h
  exact ⟨heap, hfree, rfl⟩

/-- Once an error is met, the groups of the list stay as they were before the call. -/
theorem BodyOutcome.swapGroups_of_error (hbody : BodyOutcome s c totalCount r b) (hs : Allocated s.heap s.stored)
    (hterm : r.1 = .success → r.2.physDevsTerm ≠ []) (hne : b.res ≠ .success) :
    ∃ heap, swapGroups s b = some { s with term := r.2, heap := heap } ∧ ∀ p ∈ s.stored, heap.get p = s.heap.get p := by
  cases hbody with
  | stopped res new count hnull hstop => exact VulkanLoader.swapGroups_of_error hne (Or.inl hnull)
  | refused heap gs new count hsetup hroom hfilled hfresh =>
    have hlive : ∀ p ∈ new, (heap.get p).isSome := by
      intro p hp
      obtain ⟨-, -, -, g, hg, -⟩ := hfilled.groups p hp
      rw [hg]
      rfl
    obtain ⟨heap', hswap, hget⟩ := @VulkanLoader.swapGroups_of_error s ⟨.errorOutOfHostMemory, r.2, heap, new, count⟩ hne
      (Or.inr ⟨hterm hsetup, hfresh, hlive⟩)
    refine ⟨heap', hswap, fun p hp => ?_⟩
    by_cases hnull : p = 0
    · rw [hnull, heap'.get_null, s.heap.get_null]
    · obtain ⟨v, hv⟩ := Option.isSome_iff_exists.1 (hs p hp hnull)
      rw [hget p hp, hv]
      exact hfilled.old p v hv
  | made => exact absurd rfl hne

/-- What holds between calls holds after the clean-up. -/
theorem GroupsState.WellFormed.swapGroups {s' : GroupsState} (hs : s.WellFormed)
    (hb : groupsBody s c totalCount = some b) (hroom : c.room ≠ none) (hswap : swapGroups s b = some s') :
    s'.WellFormed := by
  obtain ⟨r, hr, -, hbody⟩ := groupsBody_outcome hs hb
  obtain ⟨harray, hlist⟩ := setupDevices_array hs hr
  by_cases hok : b.res = .success
  · cases hbody with
    | stopped res new count hnull hstop => exact absurd hok (hstop.resolve_right hroom)
    | refused => cases hok
    | made heap gs added hsetup hroom hanswered hfilled htaken =>
      obtain ⟨heap', hfree, rfl⟩ := swapGroups_success rfl hswap
      refine ⟨hlist, fun p hp hnull => ?_⟩
      have hmem := List.mem_of_mem_take hp
      have hadded : p ∈ added := by
        rcases List.mem_append.1 hmem with hadded | hnulls
        · exact hadded
        · exact absurd (List.eq_of_mem_replicate hnulls) hnull
      obtain ⟨g, -, -, g', hget', -⟩ := hfilled.groups p hadded
      show (heap'.get p).isSome
      rw [Heap.freeAll_get_of_not_mem hfree fun hdrop => of_decide_eq_true (List.mem_filter.1 hdrop).2 hmem, hget']
      rfl
  · obtain ⟨heap, hdone, hget⟩ := hbody.swapGroups_of_error hs.allocated harray hok
    obtain rfl := Option.some.inj (hswap.symm.trans hdone)
    refine ⟨hlist, fun p hp hne => ?_⟩
    show (heap.get p).isSome
    rw [hget p hp]
    exact hs.allocated p hp hne

/-- **The clean-up of the old list frees nothing twice exactly if** what is stored twice is taken over. -/
theorem isSome_swapGroups_made_iff (hs : Allocated s.heap s.stored) (term : TermState) {heap : Heap GroupProperties}
    {gs : List GroupProperties} {added : List Handle} (nulls count : ℕ) (hfilled : Filled s.heap gs .success heap added)
    (htaken : ∀ p, (s.heap.get p).isSome → (p ∈ added ↔ TakenOver s.heap s.stored gs p)) :
    (swapGroups s ⟨.success, term, heap, added ++ List.replicate nulls nullHandle, count⟩).isSome ↔
      ∀ p ∈ s.stored, p ≠ nullHandle → 1 < s.stored.count p → TakenOver s.heap s.stored gs p := by
  have hkept : ∀ p ∈ s.stored, p ≠ nullHandle →
      (p ∈ added ++ List.replicate nulls nullHandle ↔ TakenOver s.heap s.stored gs p) := by
    intro p hp hne
    rw [← htaken p (hs p hp hne), List.mem_append, or_iff_left fun h => hne (List.eq_of_mem_replicate h)]
  have hlive : ∀ p ∈ s.stored.filter (· ∉ added ++ List.replicate nulls nullHandle), p ≠ 0 → (heap.get p).isSome := by
    intro p hp hne
    obtain ⟨v, hv⟩ := Option.isSome_iff_exists.1 (hs p (List.mem_of_mem_filter hp) hne)
    rw [hfilled.old p v hv]
    rfl
  unfold swapGroups
  rw [if_neg (not_not_intro rfl), Option.isSome_map, Heap.isSome_freeAll_iff, and_iff_left hlive, List.filter_filter,
    nodup_filter_iff]
  constructor
  · intro h p hp hne hcount
    by_contra hdrop
    have honce := h p hp (by simpa [hne] using (hkept p hp hne).not.2 hdrop)
    omega
  · intro h p hp hcond
    obtain ⟨hne, hdrop⟩ := Bool.and_eq_true_iff.1 hcond
    by_contra hcount
    exact of_decide_eq_true hdrop ((hkept p hp (of_decide_eq_true hne)).2
      (h p hp (of_decide_eq_true hne) (not_le.1 hcount)))

/-- A call with an array, from `out:` on. -/
theorem groupsOut_room {room : ℕ} (hroom : c.room = some room) :
    groupsOut s c b = (swapGroups s b).elim .freedTwice fun s' => copyGroups s' b.res room := by
  unfold groupsOut
  rw [hroom]
  dsimp only
  rcases swapGroups s b with _ | s'
  · rfl
  · rfl

/-- What holds between calls holds after a call. -/
theorem GroupsState.WellFormed.groupsOut (hs : s.WellFormed) (hb : groupsBody s c totalCount = some b)
    (hout : groupsOut s c b = .returned out) : out.state.WellFormed := by
  cases hroom : c.room with
  | none =>
    obtain ⟨r, hr, -, hbody⟩ := groupsBody_outcome hs hb
    have hterm : b.term = r.2 := by cases hbody <;> rfl
    unfold VulkanLoader.groupsOut at hout
    rw [hroom] at hout
    obtain rfl := CallResult.returned.inj hout
    exact ⟨hterm ▸ (setupDevices_array hs hr).2, hs.allocated⟩
  | some room =>
    rw [groupsOut_room hroom] at hout
    rcases hswap : VulkanLoader.swapGroups s b with _ | s'
    · rw [hswap] at hout
      cases hout
    · have hs' : s'.WellFormed := hs.swapGroups hb (by rw [hroom]; simp) hswap
      rw [hswap, Option.elim_some] at hout
      rcases copyGroups_outcome hs'.allocated b.res room with ⟨hnull, -⟩ | ⟨count, properties, hdone, -⟩
      · rw [hnull] at hout
        cases hout
      · rw [hdone] at hout
        obtain rfl := CallResult.returned.inj hout
        exact hs'

/-- A call for the count only. -/
theorem keepsGroups_count_iff {res : VkResult} {count : ℕ} (hres : res = c.trouble s totalCount r)
    (hroom : c.room = none) : KeepsGroups s ⟨res, res, { s with term := r.2 }, count, []⟩ ↔
      c.HarmlessAfter s totalCount r := by
  constructor
  · intro h
    refine ⟨fun _ hsome => ?_, fun _ hsome => ?_, fun hok _ => h.sound (Or.inl (hres.trans hok)),
      fun hinc => h.sound (Or.inr (hres.trans hinc)), fun _ _ room hsome => ?_⟩
    · rw [hroom] at hsome
      cases hsome
    · rw [hroom] at hsome
      cases hsome
    · rw [hroom] at hsome
      cases hsome
  · intro h
    refine ⟨fun hresult => ?_, fun _ _ => rfl, fun _ => ⟨rfl, rfl⟩⟩
    rcases hresult with hok | hinc
    · exact h.counted (hres.symm.trans hok) hroom
    · exact h.incomplete (hres.symm.trans hinc)

/-- A call that met an error, with a caller that has room for groups. -/
theorem keeps_error_iff {room : ℕ} {heap : Heap GroupProperties} {res : VkResult}
    (hres : res = c.trouble s totalCount r) (hroom : c.room = some room) (hne : res ≠ .success)
    (hs : Allocated heap s.stored) (hsound : res = .incomplete →
      (GroupsSound { s with term := r.2, heap := heap } ↔ GroupsSound { s with term := r.2 })) :
    (copyGroups { s with term := r.2, heap := heap } res room).Keeps s ↔ c.HarmlessAfter s totalCount r := by
  rw [keeps_left_iff room hne hs, hres]
  rw [hres] at hne hsound
  constructor
  · rintro ⟨hinc, herr⟩
    refine ⟨fun hok => absurd hok hne, fun hok => absurd hok hne, fun hok => absurd hok hne,
      fun h => (hsound h).1 (hinc h), ?_⟩
    intro _ herror room' hroom'
    obtain rfl := Option.some.inj (hroom.symm.trans hroom')
    exact herr herror
  · intro h
    exact ⟨fun hinc => (hsound hinc).2 (h.incomplete hinc), fun herror => h.room hne herror room hroom⟩

/-- A call that made a list keeps the groups exactly if that list is sound. -/
theorem keeps_made_iff_groupsSound {room : ℕ} {state : GroupsState} (hs : Allocated state.heap state.stored) :
    (copyGroups state .success room).Keeps s ↔ GroupsSound state := by
  rcases copyGroups_outcome hs .success room with ⟨hcopy, hnull⟩ | ⟨count, properties, hcopy, -⟩
  · rw [hcopy]
    exact iff_of_false CallResult.not_keeps_copiedNull (not_groupsSound_of_null hnull)
  · rw [hcopy, CallResult.keeps_returned_iff]
    constructor
    · intro hkeeps
      refine hkeeps.sound ?_
      dsimp only
      split_ifs
      · exact Or.inr rfl
      · exact Or.inl rfl
    · intro hsound
      exact ⟨fun _ => hsound, fun hne => absurd rfl hne, fun hne => absurd rfl hne⟩

/-- Where nothing goes wrong, and the groups are `gs`. -/
theorem harmlessAfter_made_iff {room : ℕ} {gs : List GroupProperties} (hres : .success = c.trouble s totalCount r)
    (hroom : c.room = some room) (hanswered : answeredGroups c totalCount r.2 = some (.success, gs)) :
    c.HarmlessAfter s totalCount r ↔ (∀ g ∈ gs, g.physicalDevices ≠ []) ∧
      ∀ p ∈ s.stored, p ≠ nullHandle → 1 < s.stored.count p → TakenOver s.heap s.stored gs p := by
  have hsome : c.room.isSome := by
    rw [hroom]
    rfl
  constructor
  · intro h
    exact ⟨h.filled hres.symm hsome _ hanswered, h.taken hres.symm hsome _ hanswered⟩
  · rintro ⟨hfilled, htaken⟩
    refine ⟨fun _ _ q hq => ?_, fun _ _ q hq => ?_, fun _ hnone => ?_, fun hinc => ?_, fun hne => absurd hres.symm hne⟩
    · obtain rfl := Option.some.inj (hanswered.symm.trans hq)
      exact hfilled
    · obtain rfl := Option.some.inj (hanswered.symm.trans hq)
      exact htaken
    · rw [hroom] at hnone
      cases hnone
    · rw [← hres] at hinc
      cases hinc

/-- A call that made a list. -/
theorem BodyOutcome.keeps_made_iff {room : ℕ} (hbody : BodyOutcome s c totalCount r b) (hs : Allocated s.heap s.stored)
    (hterm : r.1 = .success → r.2.physDevsTerm ≠ []) (hok : b.res = .success) (hres : b.res = c.trouble s totalCount r)
    (hroom : c.room = some room) (halloc : ∀ s', swapGroups s b = some s' → Allocated s'.heap s'.stored) :
    (groupsOut s c b).Keeps s ↔ c.HarmlessAfter s totalCount r := by
  rw [groupsOut_room hroom]
  cases hbody with
  | stopped res new count hnull hstop => exact absurd hok (hstop.resolve_right (by rw [hroom]; simp))
  | refused => cases hok
  | made heap gs added hsetup _ hanswered hfilled htaken =>
    rw [harmlessAfter_made_iff hres hroom hanswered,
      ← isSome_swapGroups_made_iff hs r.2 (totalCount - added.length) totalCount hfilled htaken]
    rcases hswap : swapGroups s _ with _ | s'
    · exact iff_of_false CallResult.not_keeps_freedTwice fun h => Bool.false_ne_true h.2
    · have halloc' := halloc s' hswap
      obtain ⟨heap', hfree, rfl⟩ := swapGroups_success rfl hswap
      obtain ⟨hlen, hlive⟩ := answeredGroups_live hanswered (hterm hsetup) rfl
      have hget : ∀ p ∈ added, heap'.get p = heap.get p := by
        intro p hp
        apply Heap.freeAll_get_of_not_mem hfree
        intro hmem
        exact of_decide_eq_true (List.mem_filter.1 hmem).2 (List.mem_append_left _ hp)
      rw [and_iff_left Option.isSome_some, ← groupsSound_made_iff hlen hlive hfilled hget]
      exact keeps_made_iff_groupsSound halloc'

/-- **A call keeps the groups exactly if it does no harm.** -/
theorem keeps_iff_harmless (hs : s.WellFormed) (hb : groupsBody s c totalCount = some b) :
    (groupsOut s c b).Keeps s ↔ c.Harmless s totalCount := by
  obtain ⟨r, hr, hres, hbody⟩ := groupsBody_outcome hs hb
  have hterm := setupDevices_array hs hr
  -- there is one enumeration of the devices
  have hharmless : c.Harmless s totalCount ↔ c.HarmlessAfter s totalCount r := by
    refine ⟨fun h => h r hr, fun h r' hr' => ?_⟩
    obtain rfl := Option.some.inj (hr.symm.trans hr')
    exact h
  rw [hharmless]
  cases hroom : c.room with
  | none =>
    have hterm : b.term = r.2 := by cases hbody <;> rfl
    have hcount : KeepsGroups s ⟨b.res, b.res, { s with term := r.2 }, b.totalCount, []⟩ ↔
        c.HarmlessAfter s totalCount r := keepsGroups_count_iff hres hroom
    unfold groupsOut
    rw [← hcount, hroom, hterm]
    exact CallResult.keeps_returned_iff
  | some room =>
    have halloc : ∀ s', swapGroups s b = some s' → Allocated s'.heap s'.stored := fun s' hswap =>
      (hs.swapGroups hb (by rw [hroom]; simp) hswap).allocated
    by_cases hok : b.res = .success
    · exact hbody.keeps_made_iff hs.allocated hterm.1 hok hres hroom halloc
    · obtain ⟨heap, hswap, hget⟩ := hbody.swapGroups_of_error hs.allocated hterm.1 hok
      rw [groupsOut_room hroom, hswap, Option.elim_some]
      exact keeps_error_iff hres hroom hok (halloc _ hswap) fun _ => groupsSound_congr r.2 hget

end Call

/-! ### Any history -/

/-- The states of an instance between calls: devices and groups are enumerated in any order, with any answers of the
drivers and of the allocator, and the trampolines change the number of devices once there is a list of them. -/
inductive GroupsReachable : GroupsState → Prop where
  | init : GroupsReachable .init
  | devices {s : GroupsState} (c : TermEnumeration) (r : VkResult × TermState) :
      GroupsReachable s → setupLoaderTermPhysDevs s.term c = some r → GroupsReachable { s with term := r.2 }
  | counted {s : GroupsState} (n : ℕ) : GroupsReachable s → (n ≠ 0 → s.term.physDevsTerm ≠ []) →
      GroupsReachable { s with term := { s.term with totalGpuCount := n } }
  | groups {s : GroupsState} (c : GroupsCall) (fuel : ℕ) (out : GroupsOutcome) : GroupsReachable s →
      terminatorEnumeratePhysicalDeviceGroups s c fuel = .returned out → GroupsReachable out.state

/-- `total_count` after the loop that counts. -/
def GroupsCall.totalCount (c : GroupsCall) (fuel : ℕ) : ℕ := ((countGroups fuel c.icds 0 0).map Prod.snd).getD 0

/-- A call that comes to an end goes through its two parts. -/
theorem exists_groupsBody {s : GroupsState} {c : GroupsCall} {fuel : ℕ}
    (hrun : terminatorEnumeratePhysicalDeviceGroups s c fuel ≠ .running)
    (hdef : terminatorEnumeratePhysicalDeviceGroups s c fuel ≠ .undefined) :
    ∃ b, groupsBody s c (c.totalCount fuel) = some b ∧
      terminatorEnumeratePhysicalDeviceGroups s c fuel = groupsOut s c b := by
  unfold terminatorEnumeratePhysicalDeviceGroups GroupsCall.totalCount at *
  rcases hcount : countGroups fuel c.icds 0 0 with _ | ⟨asked, total⟩
  · rw [hcount] at hrun
    exact absurd rfl hrun
  · rw [hcount] at hdef
    dsimp only [Option.map_some, Option.getD_some] at hdef ⊢
    rcases hbody : groupsBody s c total with _ | b
    · rw [hbody] at hdef
      exact absurd rfl hdef
    · exact ⟨b, rfl, rfl⟩

theorem wellFormed_of_reachable {s : GroupsState} (h : GroupsReachable s) : s.WellFormed := by
  induction h with
  | init => exact ⟨fun h => absurd rfl h, fun p hp => by cases hp⟩
  | devices c r _ hr ih =>
    obtain ⟨hok, hfail⟩ := setupLoaderTermPhysDevs_array hr
    refine ⟨fun hcount => hok ?_, ih.allocated⟩
    by_contra hne
    exact hcount (hfail hne).2
  | counted n _ hn ih => exact ⟨hn, ih.allocated⟩
  | groups c fuel out _ hout ih =>
    obtain ⟨b, hb, heq⟩ := exists_groupsBody (by rw [hout]; simp) (by rw [hout]; simp)
    exact ih.groupsOut hb (heq ▸ hout)

/-- A driver with one device, which counts `counted` groups and fills in one. -/
def oneGroupCall (counted : ℕ) : GroupsCall where
  room := some 1
  icds := [⟨0, fun _ => (.success, counted), fun _ => (.success, counted),
    fun _ => (.success, 1, fun _ => ⟨1, fun _ => 10, false⟩)⟩]
  devices := ⟨[⟨0, (.success, 1), fun _ => (.success, 1, fun _ => 10)⟩], none,
    ⟨true, fun _ => some 5, fun _ => ⟨0, 0⟩, true⟩⟩
  linuxSort := none
  newGroups := true
  object := fun _ => some 7

-- an error of the driver in the next call, and the null pointer is read
example : ∃ out, terminatorEnumeratePhysicalDeviceGroups .init (oneGroupCall 2) 2 = .returned out ∧
    terminatorEnumeratePhysicalDeviceGroups out.state { oneGroupCall 2 with
      room := some 2
      icds := [⟨0, fun _ => (.success, 2), fun _ => (.errorInitializationFailed, 0),
        fun _ => (.errorInitializationFailed, 0, fun _ => ⟨0, fun _ => nullHandle, false⟩)⟩] } 2 = .copiedNull :=
  ⟨_, rfl, rfl⟩

/-- A driver with the devices 10 and 20, whose two groups have the device `d`. -/
def twoGroupsCall (d : Handle) : GroupsCall where
  room := some 2
  icds := [⟨0, fun _ => (.success, 2), fun _ => (.success, 2), fun _ => (.success, 2, fun _ => ⟨1, fun _ => d, false⟩)⟩]
  devices := ⟨[⟨0, (.success, 2), fun _ => (.success, 2, fun i => 10 * (i + 1))⟩], none,
    ⟨true, fun i => some (5 + i), fun _ => ⟨0, 0⟩, true⟩⟩
  linuxSort := none
  newGroups := true
  object := fun i => some (7 + i)

-- the second call stores one group twice, and the third frees it twice
example : ∃ out, terminatorEnumeratePhysicalDeviceGroups .init (twoGroupsCall 10) 2 = .returned out ∧
    ∃ out', terminatorEnumeratePhysicalDeviceGroups out.state (twoGroupsCall 10) 2 = .returned out' ∧
      out'.state.stored = [7, 7] ∧
      terminatorEnumeratePhysicalDeviceGroups out'.state (twoGroupsCall 20) 2 = .freedTwice :=
  ⟨_, rfl, _, rfl, rfl, rfl⟩

end VulkanLoader
