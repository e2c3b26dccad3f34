import VulkanLoader.PhysDev.Terminator

/-!
# Physical device groups

`terminator_EnumeratePhysicalDeviceGroups`: the drivers are asked how many groups they have, then asked again for the
groups, whose devices are replaced by the terminator's objects, and the list of groups that the instance keeps is made
anew.  Vulkan SC has device groups in its core, so each driver is asked for them.

The loop that counts asks a driver again until it succeeds, so it is modelled with fuel, and a driver answers each
question anew.
-/

namespace VulkanLoader

open Lib

/-- `VK_MAX_DEVICE_GROUP_SIZE`. -/
def vkMaxDeviceGroupSize : ℕ := 32

/-- `VkPhysicalDeviceGroupProperties`, with as many devices as it counts. -/
structure GroupProperties where
  physicalDevices : List Handle
  subsetAllocation : Bool
  deriving DecidableEq

/-- `VkPhysicalDeviceGroupProperties` as a driver writes it. -/
structure GroupReport where
  physicalDeviceCount : ℕ
  physicalDevices : ℕ → Handle
  subsetAllocation : Bool

/-- A count that the array does not have room for is not trusted. -/
def GroupReport.props (r : GroupReport) : GroupProperties :=
  ⟨(List.range (min r.physicalDeviceCount vkMaxDeviceGroupSize)).map r.physicalDevices, r.subsetAllocation⟩

/-- The answers of a driver to its `vkEnumeratePhysicalDeviceGroups`: for each question of the loop that counts, and in
the loop that collects, for a count to begin with and for an array of any size. -/
structure IcdGroups where
  icdTerm : ℕ
  count : ℕ → VkResult × ℕ
  recount : ℕ → VkResult × ℕ
  fill : ℕ → VkResult × ℕ × (ℕ → GroupReport)

/-- `linux_sort_physical_device_groups`: the groups and the devices of each in an order that depends on the devices. -/
structure GroupOrder where
  sort : List GroupProperties → List GroupProperties
  perm : ∀ l, ∃ l', List.Forall₂ (fun g g' => g'.physicalDevices.Perm g.physicalDevices) l l' ∧ (sort l).Perm l'

/-- The fields of `loader_instance` that hold the groups and the devices. -/
structure GroupsState where
  term : TermState
  heap : Heap GroupProperties
  physDevGroupsTerm : List Handle
  physDevGroupCountTerm : ℕ

namespace GroupsState

/-- The entries in use. -/
def stored (s : GroupsState) : List Handle := s.physDevGroupsTerm.take s.physDevGroupCountTerm

/-- The instance as it is made. -/
def init : GroupsState := ⟨.init, .empty, [], 0⟩

end GroupsState

/-- A call, and what it meets: the room in the array of the caller, if there is one, the answers of the drivers, the
enumeration of the devices where there is one, and the requests for the array of groups and for the groups by their
index. -/
structure GroupsCall where
  room : Option ℕ
  icds : List IcdGroups
  devices : TermEnumeration
  linuxSort : Option GroupOrder
  newGroups : Bool
  object : ℕ → Option Handle

/-- The loop that counts the groups: the drivers that are asked, in order, and `total_count`.  `query` says how often
the driver at hand was asked before. -/
def countGroups : ℕ → List IcdGroups → ℕ → ℕ → Option (List ℕ × ℕ)
  | 0, _, _, _ => none
  | _ + 1, [], _, totalCount => some ([], totalCount)
  | fuel + 1, icd :: icds, query, totalCount =>
    match icd.count query with
    | (.success, curIcdGroupCount) =>
      (countGroups fuel icds 0 ((totalCount + curIcdGroupCount) % 2 ^ 32)).map fun r => (icd.icdTerm :: r.1, r.2)
    | _ => (countGroups fuel (icd :: icds) (query + 1) totalCount).map fun r => (icd.icdTerm :: r.1, r.2)

/-- What the loop that collects the groups leaves. -/
structure Collected where
  result : VkResult
  groups : List GroupProperties
  asked : List ℕ

/-- The count that a driver gives the second time, which the array may not have space for. -/
def guardCount (count space : ℕ) : ℕ := if count > space then space else count

/-- The loop that collects the groups.  A driver that reports more than it was given room for has written past the end
of the array. -/
def collectGroups (totalCount : ℕ) : List IcdGroups → ℕ → Option Collected
  | [], _ => some ⟨.success, [], []⟩
  | icd :: icds, curIcdGroupCount =>
    let space := totalCount - curIcdGroupCount
    match icd.recount space with
    | (.success, count) =>
      let countThisTime := guardCount count space
      match icd.fill countThisTime with
      | (.success, filled, groups) =>
        if filled > countThisTime then none
        else
          (collectGroups totalCount icds (curIcdGroupCount + filled)).map fun r =>
            { r with
              groups := (List.range filled).map (fun i => (groups i).props) ++ r.groups
              asked := icd.icdTerm :: r.asked }
      | (res, _, _) => some ⟨res, [], [icd.icdTerm]⟩
    | (res, _) => some ⟨res, [], [icd.icdTerm]⟩

/-- The array of groups before it is sorted: what was collected, and zeros up to the count. -/
def localGroups (totalCount : ℕ) (groups : List GroupProperties) : List GroupProperties :=
  groups ++ List.replicate (totalCount - groups.length) ⟨[], false⟩

/-- The devices of a group are replaced by the terminator's objects; `some none` is a device that has no object. -/
def termDevices (term : TermState) : List Handle → Option (Option (List Handle))
  | [] => some (some [])
  | d :: ds =>
    (oldPhysDev term.heap d term.stored).bind fun
    | none => some none
    | some p => (termDevices term ds).map fun r => r.map (p :: ·)

/-- The devices of all groups are replaced. -/
def termGroups (term : TermState) : List GroupProperties → Option (Option (List GroupProperties))
  | [] => some (some [])
  | g :: gs =>
    (termDevices term g.physicalDevices).bind fun
    | none => some none
    | some ds => (termGroups term gs).map fun r => r.map ({ g with physicalDevices := ds } :: ·)

/-- The first group of the old list with as many devices as `g` and none that `g` does not have. -/
def oldGroup (h : Heap GroupProperties) (g : GroupProperties) : List Handle → Option (Option Handle)
  | [] => some none
  | p :: ps =>
    if p = nullHandle then oldGroup h g ps
    else
      (h.get p).bind fun old =>
        if g.physicalDevices.length == old.physicalDevices.length &&
            old.physicalDevices.all (· ∈ g.physicalDevices) then some (some p)
        else oldGroup h g ps

/-- The loop that fills the new array, without the entries that stay null: the result, the heap and the entries. -/
def fillGroups (old : List Handle) (object : ℕ → Option Handle) :
    List GroupProperties → Heap GroupProperties → List Handle → Option (VkResult × Heap GroupProperties × List Handle)
  | [], h, new => some (.success, h, new)
  | g :: gs, h, new =>
    if g.physicalDevices = [] then fillGroups old object gs h new
    else
      (oldGroup h g old).bind fun
      | some p => fillGroups old object gs h (new ++ [p])
      | none =>
        match object new.length with
        | none => some (.errorOutOfHostMemory, h, new)
        | some wish => fillGroups old object gs (h.alloc wish g) (new ++ [h.place wish])

/-- What the function has at `out:`. -/
structure GroupsBody where
  res : VkResult
  term : TermState
  heap : Heap GroupProperties
  newPhysDevGroups : List Handle
  totalCount : ℕ

/-- The devices are enumerated if that was not done yet, or if there are no groups. -/
def setupDevices (s : GroupsState) (c : GroupsCall) (totalCount : ℕ) : Option (VkResult × TermState) :=
  if totalCount = 0 ∨ s.term.totalGpuCount = 0 then setupLoaderTermPhysDevs s.term c.devices
  else some (.success, s.term)

/-- What the drivers answer, in terms of the terminator's objects: the first error, or a device without an object, or
the groups in their final order. -/
def answeredGroups (c : GroupsCall) (totalCount : ℕ) (term : TermState) :
    Option (VkResult × List GroupProperties) :=
  (collectGroups totalCount c.icds 0).bind fun q =>
    if q.result ≠ .success then some (q.result, [])
    else
      let groups := match c.linuxSort with
        | none => localGroups totalCount q.groups
        | some order => order.sort (localGroups totalCount q.groups)
      if term.physDevsTerm = [] then some (.success, groups)
      else
        (termGroups term groups).map fun
        | none => (.errorInitializationFailed, [])
        | some groups => (.success, groups)

/-- The function up to `out:`, after the groups are counted. -/
def groupsBody (s : GroupsState) (c : GroupsCall) (totalCount : ℕ) : Option GroupsBody :=
  (setupDevices s c totalCount).bind fun r =>
    if r.1 ≠ .success then some ⟨r.1, r.2, s.heap, [], totalCount⟩
    else if c.room.isNone then some ⟨.success, r.2, s.heap, [], totalCount⟩
    else if c.newGroups = false then some ⟨.errorOutOfHostMemory, r.2, s.heap, [], totalCount⟩
    else
      (answeredGroups c totalCount r.2).bind fun q =>
        if q.1 ≠ .success then some ⟨q.1, r.2, s.heap, List.replicate totalCount nullHandle, totalCount⟩
        else
          (fillGroups s.stored c.object q.2 s.heap []).map fun f =>
            if f.1 = .success then
              ⟨f.1, r.2, f.2.1, f.2.2 ++ List.replicate (totalCount - f.2.2.length) nullHandle, totalCount⟩
            else ⟨f.1, r.2, f.2.1, f.2.2, f.2.2.length⟩

/-- What a call leaves: `res` at `out:`, the result, the state, the count for the caller and the groups copied into its
array. -/
structure GroupsOutcome where
  ended : VkResult
  result : VkResult
  state : GroupsState
  count : ℕ
  properties : List GroupProperties

/-- How a call comes out with some amount of fuel.  A call that frees a group that is freed already, or that copies a
group through a null entry of the list, does not return.  What is undefined is a driver that writes past its array, and
an enumeration of the devices that frees one twice. -/
inductive CallResult (α : Type) where
  | running
  | undefined
  | freedTwice
  | copiedNull
  | returned (out : α)

/-- The clean-up at `out:`: the new groups are freed or take the place of the old ones; `none` is a group that is freed
twice. -/
def swapGroups (s : GroupsState) (b : GroupsBody) : Option GroupsState :=
  if b.res ≠ .success then
    (b.heap.freeAll (b.newPhysDevGroups.filter fun p => b.term.physDevsTerm = [] ∨ p ∉ s.stored)).map fun heap =>
      { s with term := b.term, heap := heap }
  else
    (b.heap.freeAll (s.stored.filter (· ∉ b.newPhysDevGroups))).map fun heap =>
      { term := b.term
        heap := heap
        physDevGroupsTerm := b.newPhysDevGroups
        physDevGroupCountTerm := b.totalCount }

/-- The groups of the list are copied into an array with room for `room`, also after an error. -/
def copyGroups (s : GroupsState) (res : VkResult) (room : ℕ) : CallResult GroupsOutcome :=
  let trimmed := s.physDevGroupCountTerm > room
  let copyCount := if trimmed then room else s.physDevGroupCountTerm
  match (s.stored.take copyCount).mapM s.heap.get with
  | none => .copiedNull
  | some properties => .returned ⟨res, if trimmed then .incomplete else res, s, copyCount, properties⟩

/-- The function from `out:` on. -/
def groupsOut (s : GroupsState) (c : GroupsCall) (b : GroupsBody) : CallResult GroupsOutcome :=
  match c.room with
  | none => .returned ⟨b.res, b.res, { s with term := b.term }, b.totalCount, []⟩
  | some room =>
    match swapGroups s b with
    | none => .freedTwice
    | some s' => copyGroups s' b.res room

/-- `terminator_EnumeratePhysicalDeviceGroups`. -/
def terminatorEnumeratePhysicalDeviceGroups (s : GroupsState) (c : GroupsCall) (fuel : ℕ) : CallResult GroupsOutcome :=
  match countGroups fuel c.icds 0 0 with
  | none => .running
  | some (_, totalCount) =>
    match groupsBody s c totalCount with
    | none => .undefined
    | some b => groupsOut s c b

/-- From `out:` on the function comes to an end. -/
theorem groupsOut_ne_running (s : GroupsState) (c : GroupsCall) (b : GroupsBody) : groupsOut s c b ≠ .running := by
  intro h
  unfold groupsOut at h
  split at h
  · cases h
  · split at h
    · cases h
    · unfold copyGroups at h
      dsimp only at h
      split at h
      · cases h
      · cases h

/-! ### The loops over the drivers -/

section Loops

variable {icd : IcdGroups} {icds : List IcdGroups}

theorem countGroups_success {fuel query totalCount n : ℕ} (h : icd.count query = (.success, n)) :
    countGroups (fuel + 1) (icd :: icds) query totalCount =
      (countGroups fuel icds 0 ((totalCount + n) % 2 ^ 32)).map fun r => (icd.icdTerm :: r.1, r.2) := by
  rw [countGroups, h]

theorem countGroups_failure {fuel query totalCount : ℕ} (h : (icd.count query).1 ≠ .success) :
    countGroups (fuel + 1) (icd :: icds) query totalCount =
      (countGroups fuel (icd :: icds) (query + 1) totalCount).map fun r => (icd.icdTerm :: r.1, r.2) := by
  obtain ⟨res, n⟩ : VkResult × ℕ := icd.count query
  rw [countGroups]
  split
  · rename_i m hq
    exact absurd (congrArg Prod.fst hq) h
  · rfl

/-- A driver that fails every time is asked for ever. -/
theorem countGroups_eq_none (hfail : ∀ query, (icd.count query).1 ≠ .success) (fuel query totalCount : ℕ) :
    countGroups fuel (icd :: icds) query totalCount = none := by
  induction fuel generalizing query with
  | zero => rfl
  | succ fuel ih => rw [countGroups_failure (hfail query), ih, Option.map_none]

/-- The drivers that are asked, one after the other, are those of the list if none fails. -/
theorem countGroups_visits (hok : ∀ icd ∈ icds, (icd.count 0).1 = .success) (totalCount : ℕ) :
    ∃ total, countGroups (icds.length + 1) icds 0 totalCount = some (icds.map (·.icdTerm), total) := by
  induction icds generalizing totalCount with
  | nil => exact ⟨totalCount, rfl⟩
  | cons icd icds ih =>
    have hhead : icd.count 0 = (.success, (icd.count 0).2) := by
      rw [← hok icd List.mem_cons_self]
    obtain ⟨total, htotal⟩ := ih (fun icd' h => hok icd' (List.mem_cons_of_mem _ h))
      ((totalCount + (icd.count 0).2) % 2 ^ 32)
    refine ⟨total, ?_⟩
    rw [List.length_cons, countGroups_success hhead, htotal]
    rfl

/-- Each driver is asked at least once. -/
theorem length_le_of_countGroups {fuel query totalCount : ℕ} {r : List ℕ × ℕ}
    (h : countGroups fuel icds query totalCount = some r) : icds.length ≤ r.1.length := by
  induction fuel generalizing icds query totalCount r with
  | zero => cases h
  | succ fuel ih =>
    cases icds with
    | nil => exact Nat.zero_le _
    | cons icd icds =>
      by_cases hsuccess : (icd.count query).1 = .success
      · have hcount : icd.count query = (.success, (icd.count query).2) := by rw [← hsuccess]
        rw [countGroups_success hcount] at h
        obtain ⟨q, hq, rfl⟩ := Option.map_eq_some_iff.1 h
        exact Nat.succ_le_succ (ih hq)
      · rw [countGroups_failure hsuccess] at h
        obtain ⟨q, hq, rfl⟩ := Option.map_eq_some_iff.1 h
        exact Nat.le_succ_of_le (ih hq)

/-- A driver is asked twice if it fails once. -/
theorem length_lt_of_countGroups {fuel totalCount : ℕ} {r : List ℕ × ℕ}
    (h : countGroups fuel icds 0 totalCount = some r) (hfail : ∃ icd ∈ icds, (icd.count 0).1 ≠ .success) :
    icds.length < r.1.length := by
  induction fuel generalizing icds totalCount r with
  | zero => cases h
  | succ fuel ih =>
    cases icds with
    | nil => simp at hfail
    | cons icd icds =>
      by_cases hsuccess : (icd.count 0).1 = .success
      · have hcount : icd.count 0 = (.success, (icd.count 0).2) := by rw [← hsuccess]
        rw [countGroups_success hcount] at h
        obtain ⟨q, hq, rfl⟩ := Option.map_eq_some_iff.1 h
        obtain ⟨icd', hmem, hne⟩ := hfail
        rcases List.mem_cons.1 hmem with rfl | hmem
        · exact absurd hsuccess hne
        · exact Nat.succ_lt_succ (ih hq ⟨icd', hmem, hne⟩)
      · rw [countGroups_failure hsuccess] at h
        obtain ⟨q, hq, rfl⟩ := Option.map_eq_some_iff.1 h
        exact Nat.lt_succ_of_le (length_le_of_countGroups hq)

/-- The loop that collects asks each driver once, in order, up to the one that fails. -/
theorem collectGroups_asked {totalCount cur : ℕ} {r : Collected} (h : collectGroups totalCount icds cur = some r) :
    r.asked <+: icds.map (·.icdTerm) := by
  induction icds generalizing cur r with
  | nil =>
    obtain rfl := Option.some.inj h
    exact List.prefix_rfl
  | cons icd icds ih =>
    have hhead : [icd.icdTerm] <+: (icd :: icds).map (·.icdTerm) := by
      rw [List.map_cons]
      exact List.cons_prefix_cons.2 ⟨rfl, List.nil_prefix⟩
    unfold collectGroups at h
    dsimp only at h
    split at h
    · split at h
      · split_ifs at h
        obtain ⟨q, hq, rfl⟩ := Option.map_eq_some_iff.1 h
        exact List.cons_prefix_cons.2 ⟨rfl, ih hq⟩
      · obtain rfl := Option.some.inj h
        exact hhead
    · obtain rfl := Option.some.inj h
      exact hhead

end Loops

/-! ### Termination -/

/-- Each pass asks a driver at most once, and the call ends. -/
structure AsksOnce (s : GroupsState) (c : GroupsCall) : Prop where
  counting : ∃ fuel r, countGroups fuel c.icds 0 0 = some r ∧ r.1.Sublist (c.icds.map (·.icdTerm))
  collecting : ∀ totalCount r, collectGroups totalCount c.icds 0 = some r → r.asked.Sublist (c.icds.map (·.icdTerm))
  ends : ∃ fuel, terminatorEnumeratePhysicalDeviceGroups s c fuel ≠ .running

/-- A driver that answers every count with the same error. -/
def failingIcd : IcdGroups :=
  ⟨0, fun _ => (.errorInitializationFailed, 0), fun _ => (.errorInitializationFailed, 0),
    fun _ => (.errorInitializationFailed, 0, fun _ => ⟨0, fun _ => nullHandle, false⟩)⟩

/-- The application asks an instance with this driver for the number of groups. -/
def failingIcdCall : GroupsCall where
  room := none
  icds := [failingIcd]
  devices := ⟨[], none, ⟨true, fun _ => some 1, fun _ => ⟨0, 0⟩, true⟩⟩
  linuxSort := none
  newGroups := true
  object := fun _ => some 1

end VulkanLoader
