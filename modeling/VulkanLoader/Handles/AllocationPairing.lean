import VulkanLoader.Handles.MessengerAllocation

/-!
# When a messenger's blocks go back where they came from

Two arguments are kept apart.  Forgetting the allocators, the blocks that are held are those of the live messengers and
of the lists, so each is released once if every messenger is destroyed.  And the allocators of a log are all those of
the instance if every call was given these; a call that was given others leaves, in the log or with a live messenger,
a block for an index that goes to an allocator that made none.
-/

namespace VulkanLoader

open Lib (HandleEvent Settled outstanding)

/-! ### The blocks, whatever their allocators -/

/-- The log of the blocks alone. -/
def blockLog (log : List AllocationEvent) : List (HandleEvent MessengerBlock) := log.map fun e => e.map Prod.snd

@[simp] theorem blockLog_append (log log' : List AllocationEvent) :
    blockLog (log ++ log') = blockLog log ++ blockLog log' := List.map_append

/-- The block of a list. -/
def listBlock {α : Type*} (block : ℕ → MessengerBlock) : Option (List α) → Multiset MessengerBlock
  | none => 0
  | some l => {block l.length}

/-- The blocks of the lists of the drivers from the `i`-th on. -/
def icdListBlocks : ℕ → List MessengerIcd → Multiset MessengerBlock
  | _, [] => 0
  | i, icd :: icds => listBlock (.debugUtilsMessengerList i) icd.debugUtilsMessengerList + icdListBlocks (i + 1) icds

/-- The blocks of one kind of some messengers. -/
def handleBlocks (block : Handle → MessengerBlock) (messengers : List Handle) : Multiset MessengerBlock :=
  messengers.map block

theorem handleBlocks_cons (block : Handle → MessengerBlock) (messenger : Handle) (messengers : List Handle) :
    handleBlocks block (messenger :: messengers) = block messenger ::ₘ handleBlocks block messengers := rfl

theorem handleBlocks_perm {messengers messengers' : List Handle} (block : Handle → MessengerBlock)
    (hperm : messengers.Perm messengers') : handleBlocks block messengers = handleBlocks block messengers' :=
  Multiset.coe_eq_coe.2 (hperm.map block)

namespace MessengerInstance

/-- The blocks of the lists. -/
def listBlocks (s : MessengerInstance) : Multiset MessengerBlock :=
  listBlock .debugUtilsMessengersList s.debugUtilsMessengersList + icdListBlocks 0 s.icdTerms

/-- The blocks an instance holds for its messengers. -/
def blocks (s : MessengerInstance) : Multiset MessengerBlock :=
  s.listBlocks + (handleBlocks .nextIndex s.live + handleBlocks .dbgFunctionNode s.dbgFunctions)

end MessengerInstance

section Lists

variable {α : Type*} (callbacks : Option VkAllocationCallbacks)

/-- A list holds its block before and after it changes. -/
theorem outstanding_listEvents (block : ℕ → MessengerBlock) (before after : Option (List α)) :
    outstanding (listBlock block before) (blockLog (listEvents callbacks block before after)) =
      some (listBlock block after) := by
  rcases before with _ | before <;> rcases after with _ | after
  · rfl
  · rfl
  · show outstanding (block before.length ::ₘ 0) [.givenBack (block before.length)] = some 0
    rw [Lib.outstanding_givenBack, Lib.outstanding_nil]
  · simp only [listEvents]
    split_ifs with hlength
    · exact congrArg (fun n => some {block n}) hlength
    · show outstanding (block before.length ::ₘ 0)
        [.givenBack (block before.length), .made (block after.length)] = some (block after.length ::ₘ 0)
      rw [Lib.outstanding_givenBack, Lib.outstanding_made, Lib.outstanding_nil]

theorem outstanding_icdListEvents {before after : List MessengerIcd} (hlength : after.length = before.length) (i : ℕ) :
    outstanding (icdListBlocks i before) (blockLog (icdListEvents callbacks i before after)) =
      some (icdListBlocks i after) := by
  induction before generalizing i after with
  | nil =>
    obtain rfl := List.length_eq_zero_iff.1 hlength
    rfl
  | cons icd before ih =>
    rcases after with _ | ⟨icd', after⟩
    · simp at hlength
    · rw [icdListEvents, blockLog_append]
      exact Lib.outstanding_add (outstanding_listEvents _ _ _ _) (ih (by simpa using hlength) (i + 1))

/-- Destroying a driver's messenger leaves its list where it is. -/
theorem icdListBlocks_destroyMessenger (index : ℕ) (icds : List MessengerIcd) (i : ℕ) :
    icdListBlocks i (icds.map (destroyMessengerOnIcd index)) = icdListBlocks i icds := by
  induction icds generalizing i with
  | nil => rfl
  | cons icd icds ih =>
    have hlist : (destroyMessengerOnIcd index icd).debugUtilsMessengerList = icd.debugUtilsMessengerList := by
      unfold destroyMessengerOnIcd
      split <;> rfl
    rw [List.map_cons, icdListBlocks, icdListBlocks, hlist, ih]

theorem icdListBlocks_destroyed (icds : List MessengerIcd) (i : ℕ) :
    icdListBlocks i (icds.map fun icd => { icd with debugUtilsMessengerList := none }) = 0 := by
  induction icds generalizing i with
  | nil => rfl
  | cons icd icds ih =>
    rw [List.map_cons, icdListBlocks, ih]
    rfl

theorem listBlock_clearObjectStatus (block : ℕ → MessengerBlock) (list : UsedObjectList) (index : ℕ)
    (pAllocator : Option VkAllocationCallbacks) :
    listBlock block (clearObjectStatus list index pAllocator) = listBlock block list := by
  rcases list with _ | list
  · rfl
  · simp [clearObjectStatus, listBlock]

end Lists

/-! ### What a call does to the messengers -/

section Calls

variable {s : MessengerInstance}

theorem length_createMessengerOnIcds (callbacks : Option VkAllocationCallbacks) (nextIndex : ℕ)
    (a : ℕ → MessengerAnswer) (icds : List MessengerIcd) :
    (createMessengerOnIcds callbacks nextIndex a icds).2.length = icds.length := by
  induction icds generalizing a with
  | nil => rfl
  | cons icd icds ih =>
    unfold createMessengerOnIcds
    split
    · simp [ih]
    · rfl

/-- **A create call** makes one messenger and its node, or changes neither. -/
theorem terminatorCreate_cases (s : MessengerInstance) (pAllocator : Option VkAllocationCallbacks)
    (a : MessengerAnswers) :
    let r := terminatorCreateDebugUtilsMessengerEXT s pAllocator a
    (r.2.allocCallbacks = s.allocCallbacks ∧ r.2.icdTerms.length = s.icdTerms.length) ∧
      ((r.1 = .success ∧ a.nextIndexAllocated = true ∧ r.2.live = s.nextBlock :: s.live ∧
          r.2.dbgFunctions = s.nextBlock :: s.dbgFunctions ∧ r.2.nextBlock = s.nextBlock + 1) ∨
        (r.1 ≠ .success ∧ r.2.live = s.live ∧ r.2.dbgFunctions = s.dbgFunctions ∧ r.2.nextBlock = s.nextBlock)) := by
  intro r
  have herror : VkResult.errorOutOfHostMemory ≠ .success := by decide
  rcases halloc : a.nextIndexAllocated with _ | _
  · have hr : r = (.errorOutOfHostMemory, s) := by simp [r, terminatorCreateDebugUtilsMessengerEXT, halloc]
    rw [hr]
    exact ⟨⟨rfl, rfl⟩, Or.inr ⟨herror, rfl, rfl, rfl⟩⟩
  rcases hget : loaderGetNextAvailableEntry s.allocCallbacks s.debugUtilsMessengersList pAllocator a.usedListRequest
    with ⟨res, list, _ | nextIndex⟩
  · have hr : r = (res, rollBackMessenger { s with debugUtilsMessengersList := list } 0 false pAllocator) := by
      simp [r, terminatorCreateDebugUtilsMessengerEXT, halloc, hget]
    obtain ⟨rfl, -⟩ := loaderGetNextAvailableEntry_failure hget
    rw [hr]
    exact ⟨⟨rfl, List.length_map _⟩, Or.inr ⟨herror, rfl, rfl, rfl⟩⟩
  · have hlength := length_createMessengerOnIcds s.allocCallbacks nextIndex a.icd s.icdTerms
    simp only [r, terminatorCreateDebugUtilsMessengerEXT, halloc, hget, Bool.not_true, Bool.false_eq_true, if_false]
    split_ifs with hres hnode
    · exact ⟨⟨rfl, (List.length_map _).trans hlength⟩, Or.inr ⟨hres, rfl, rfl, rfl⟩⟩
    · exact ⟨⟨rfl, (List.length_map _).trans hlength⟩, Or.inr ⟨herror, rfl, rfl, rfl⟩⟩
    · exact ⟨⟨rfl, hlength⟩, Or.inl ⟨rfl, trivial, rfl, rfl, rfl⟩⟩

/-- **A destroy call** on a live messenger takes it and its node out. -/
theorem terminatorDestroy_live {messenger : Handle} (hnodup : s.live.Nodup) (hlive : messenger ∈ s.live)
    (pAllocator : Option VkAllocationCallbacks) :
    let s' := terminatorDestroyDebugUtilsMessengerEXT s messenger pAllocator
    s'.allocCallbacks = s.allocCallbacks ∧ s.live.Perm (messenger :: s'.live) ∧
      s'.dbgFunctions = s.dbgFunctions.erase messenger ∧ s'.nextBlock = s.nextBlock ∧
      s'.listBlocks = s.listBlocks := by
  intro s'
  obtain ⟨⟨block, index⟩, hmem, rfl, hfind⟩ := Lib.exists_find?_key hlive
  have hs' : s' = { s with
      icdTerms := s.icdTerms.map (destroyMessengerOnIcd index)
      dbgFunctions := s.dbgFunctions.erase block
      debugUtilsMessengersList := clearObjectStatus s.debugUtilsMessengersList index pAllocator
      messengers := s.messengers.filter fun b => b.1 ≠ block } := by
    simp only [s', terminatorDestroyDebugUtilsMessengerEXT, hfind]
  have hperm := (Lib.perm_cons_filter_ne hnodup hmem).map Prod.fst
  rw [hs']
  refine ⟨rfl, hperm, rfl, rfl, ?_⟩
  rw [MessengerInstance.listBlocks, MessengerInstance.listBlocks, listBlock_clearObjectStatus,
    icdListBlocks_destroyMessenger]

end Calls

/-! ### Each block once -/

namespace MessengerLedger

/-- **The invariant**: the log leaves the blocks of the instance outstanding, and the handles of the live messengers
are distinct. -/
structure Holds (s : MessengerLedger) : Prop where
  held : outstanding 0 (blockLog s.log) = some s.inst.blocks
  nodup : s.inst.live.Nodup
  fresh : ∀ messenger ∈ s.inst.live, messenger < s.inst.nextBlock

section Steps

variable {s : MessengerLedger} {pAllocator : Option VkAllocationCallbacks}

/-- The events of a call lead from the blocks before it to the blocks after it. -/
theorem Holds.append {s' : MessengerLedger} {events : List AllocationEvent} (hs : s.Holds)
    (hlog : s'.log = s.log ++ events)
    (hevents : outstanding s.inst.blocks (blockLog events) = some s'.inst.blocks) (hnodup : s'.inst.live.Nodup)
    (hfresh : ∀ messenger ∈ s'.inst.live, messenger < s'.inst.nextBlock) : s'.Holds where
  held := by
    rw [hlog, blockLog_append]
    exact Lib.outstanding_trans hs.held hevents
  nodup := hnodup
  fresh := hfresh

theorem outstanding_createEvents (s : MessengerInstance) (pAllocator : Option VkAllocationCallbacks)
    (a : MessengerAnswers) :
    outstanding s.blocks (blockLog (createEvents s pAllocator a)) =
      some (terminatorCreateDebugUtilsMessengerEXT s pAllocator a).2.blocks := by
  rcases halloc : a.nextIndexAllocated with _ | _
  · simp [createEvents, terminatorCreateDebugUtilsMessengerEXT, halloc, blockLog]
  obtain ⟨⟨-, hlength⟩, hcases⟩ := terminatorCreate_cases s pAllocator a
  simp only [createEvents, halloc, Bool.not_true, Bool.false_eq_true, if_false]
  set r := terminatorCreateDebugUtilsMessengerEXT s pAllocator a
  set index := MessengerBlock.nextIndex s.nextBlock
  -- the lists grow while the block for the index is held
  have hlists := Lib.outstanding_add
    (outstanding_listEvents s.allocCallbacks .debugUtilsMessengersList s.debugUtilsMessengersList
      r.2.debugUtilsMessengersList) (outstanding_icdListEvents s.allocCallbacks hlength 0)
  have hgrown := Lib.outstanding_frame
    (index ::ₘ (handleBlocks .nextIndex s.live + handleBlocks .dbgFunctionNode s.dbgFunctions)) hlists
  rw [Multiset.add_cons, Multiset.add_cons] at hgrown
  rw [blockLog, List.map_cons, HandleEvent.map_made, Lib.outstanding_made, List.map_append]
  refine Lib.outstanding_trans (by rwa [← blockLog, blockLog_append]) ?_
  rcases hcases with ⟨hres, -, hlive, hnodes, -⟩ | ⟨hres, hlive, hnodes, -⟩
  · rw [if_pos hres, MessengerInstance.blocks, hlive, hnodes, handleBlocks_cons, handleBlocks_cons, Multiset.add_cons,
      Multiset.add_cons, Multiset.cons_add, Multiset.add_cons]
    rfl
  · rw [if_neg hres, MessengerInstance.blocks, hlive, hnodes]
    exact Lib.outstanding_givenBack

theorem outstanding_destroyEvents {s : MessengerInstance} {messenger : Handle} (hnodup : s.live.Nodup)
    (hlive : messenger ∈ s.live) (pAllocator : Option VkAllocationCallbacks) :
    outstanding s.blocks (blockLog (destroyEvents s messenger pAllocator)) =
      some (terminatorDestroyDebugUtilsMessengerEXT s messenger pAllocator).blocks := by
  obtain ⟨-, hperm, hnodes, -, hlists⟩ := terminatorDestroy_live hnodup hlive pAllocator
  set s' := terminatorDestroyDebugUtilsMessengerEXT s messenger pAllocator
  rw [MessengerInstance.blocks, MessengerInstance.blocks, hlists, hnodes, handleBlocks_perm _ hperm, handleBlocks_cons,
    Multiset.cons_add, Multiset.add_cons, destroyEvents, if_pos hlive, blockLog_append]
  refine Lib.outstanding_trans ?_ Lib.outstanding_givenBack
  split_ifs with hnode
  · rw [handleBlocks_perm _ (List.perm_cons_erase hnode), handleBlocks_cons, Multiset.add_cons, Multiset.add_cons,
      Multiset.cons_swap]
    exact Lib.outstanding_givenBack
  · rw [List.erase_of_not_mem hnode]
    rfl

/-- **A call** leads from the blocks before it to the blocks after it. -/
theorem Holds.step {c : MessengerCall} (hs : s.Holds) (hc : s.Matching c) : (s.step c).Holds := by
  rcases c with ⟨pAllocator, a⟩ | ⟨messenger, pAllocator⟩
  · obtain ⟨-, ⟨-, -, hlive, -, hnext⟩ | ⟨-, hlive, -, hnext⟩⟩ := terminatorCreate_cases s.inst pAllocator a
    · refine hs.append rfl (outstanding_createEvents _ _ _) ?_ fun messenger hmem => ?_
      · exact hlive ▸ List.nodup_cons.2 ⟨fun hmem => Nat.lt_irrefl _ (hs.fresh _ hmem), hs.nodup⟩
      · rcases List.mem_cons.1 (hlive ▸ hmem) with rfl | hmem
        · exact hnext ▸ Nat.lt_succ_self _
        · exact hnext ▸ Nat.lt_succ_of_lt (hs.fresh messenger hmem)
    · refine hs.append rfl (outstanding_createEvents _ _ _) (hlive ▸ hs.nodup) fun messenger hmem => ?_
      exact hnext ▸ hs.fresh messenger (hlive ▸ hmem)
  · obtain ⟨-, hperm, -, hnext, -⟩ := terminatorDestroy_live hs.nodup hc.1 pAllocator
    refine hs.append rfl (outstanding_destroyEvents hs.nodup hc.1 pAllocator) ?_ fun m hmem => ?_
    · exact (List.nodup_cons.1 (hperm.nodup_iff.1 hs.nodup)).2
    · exact hnext ▸ hs.fresh m (hperm.mem_iff.2 (List.mem_cons_of_mem _ hmem))

/-- The callbacks of the instance are no part of it. -/
theorem Holds.withCallbacks (hs : s.Holds) (callbacks : Option VkAllocationCallbacks) :
    ({ s with inst := { s.inst with allocCallbacks := callbacks } } : MessengerLedger).Holds :=
  ⟨hs.held, hs.nodup, hs.fresh⟩

theorem blocks_destroyDebugCallbacksChain (s : MessengerLedger) (pAllocator : Option VkAllocationCallbacks) :
    (s.destroyDebugCallbacksChain pAllocator).inst.blocks =
      s.inst.listBlocks + handleBlocks .nextIndex s.inst.live :=
  congrArg (s.inst.listBlocks + ·) (Multiset.add_zero _)

theorem Holds.destroyDebugCallbacksChain (hs : s.Holds) (pAllocator : Option VkAllocationCallbacks) :
    (s.destroyDebugCallbacksChain pAllocator).Holds := by
  refine hs.append rfl ?_ hs.nodup hs.fresh
  have hlog : blockLog (s.inst.dbgFunctions.map fun messenger => HandleEvent.givenBack
      (freedBy (pAllocator.or s.inst.allocCallbacks), MessengerBlock.dbgFunctionNode messenger)) =
      (s.inst.dbgFunctions.map MessengerBlock.dbgFunctionNode).map .givenBack := by
    simp [blockLog]
  rw [hlog, MessengerInstance.blocks, ← Multiset.add_assoc, Multiset.add_comm, blocks_destroyDebugCallbacksChain]
  exact Lib.outstanding_givenBack_list _ _

theorem listBlocks_destroyLists (s : MessengerLedger) : s.destroyLists.inst.listBlocks = 0 :=
  (Multiset.zero_add _).trans (icdListBlocks_destroyed s.inst.icdTerms 0)

theorem Holds.destroyLists (hs : s.Holds) : s.destroyLists.Holds := by
  refine hs.append rfl ?_ hs.nodup hs.fresh
  rw [blockLog_append, MessengerInstance.blocks, MessengerInstance.listBlocks, Multiset.add_comm (listBlock _ _),
    MessengerInstance.blocks, MessengerInstance.listBlocks, Multiset.add_comm (listBlock _ _)]
  exact Lib.outstanding_frame _ (Lib.outstanding_add (outstanding_icdListEvents _ (List.length_map _) 0)
    (outstanding_listEvents _ _ _ _))

theorem Holds.run {calls : List MessengerCall} (hs : s.Holds)
    (hcalls : Lib.AllSteps MessengerLedger.step Matching s calls) : (Lib.run MessengerLedger.step s calls).Holds :=
  Lib.run_invariant MessengerLedger.step (fun _ _ hs hc => Holds.step hs hc) hs hcalls

end Steps

end MessengerLedger

namespace MessengerLife

open MessengerLedger

variable {l : MessengerLife}

theorem start_holds (l : MessengerLife) : l.start.Holds where
  held := by
    have hlists : ∀ (supported : List Bool) (i : ℕ),
        icdListBlocks i (freshMessengerInstance l.callbacks supported).icdTerms = 0 := by
      intro supported
      induction supported with
      | nil => exact fun i => rfl
      | cons b supported ih => exact fun i => (Multiset.zero_add _).trans (ih (i + 1))
    show some 0 = some (0 + icdListBlocks 0 (freshMessengerInstance l.callbacks l.supported).icdTerms + (0 + 0))
    rw [hlists]
    rfl
  nodup := List.nodup_nil
  fresh := by simp [start, freshMessengerInstance, MessengerInstance.live]

theorem called_holds (hl : l.Valid) : l.called.Holds := l.start_holds.run hl.calls

theorem removed_holds (hl : l.Valid) : (l.called.removeCallbacks l.callbacks).Holds :=
  ((called_holds hl).withCallbacks _).destroyDebugCallbacksChain _

/-- After the instance is destroyed, the blocks for the indices of the live messengers are held, and no others. -/
theorem final_holds (hl : l.Valid) :
    outstanding 0 (blockLog l.final.log) = some (handleBlocks .nextIndex l.final.inst.live) := by
  have hfinal := (((removed_holds hl).run hl.late).destroyLists.destroyDebugCallbacksChain l.callbacks).held
  rw [blocks_destroyDebugCallbacksChain, listBlocks_destroyLists, Multiset.zero_add] at hfinal
  exact hfinal

/-- **Every block is obtained and released once**, whatever callbacks are given, exactly when every messenger is
destroyed. -/
theorem settled_blockLog_iff (hl : l.Valid) : Settled (blockLog l.final.log) ↔ l.final.inst.messengers = [] := by
  rw [Settled, final_holds hl, Option.some.injEq, handleBlocks, Multiset.coe_eq_zero, List.map_eq_nil_iff,
    MessengerInstance.live, List.map_eq_nil_iff]

end MessengerLife

/-! ### The allocators -/

section Allocators

variable {callbacks pAllocator : Option VkAllocationCallbacks}

theorem freedBy_eq (hp : ∀ c ∈ pAllocator, c.AllOrNone) : freedBy pAllocator = allocatedBy pAllocator := by
  rcases pAllocator with _ | c
  · rfl
  · simp [freedBy, allocatedBy, Option.filter, (hp c rfl).free]

theorem reallocatedBy_eq (hp : ∀ c ∈ pAllocator, c.AllOrNone) : reallocatedBy pAllocator = allocatedBy pAllocator := by
  rcases pAllocator with _ | c
  · rfl
  · simp [reallocatedBy, allocatedBy, Option.filter, (hp c rfl).reallocation]

/-- With the fallback, a block is freed by the functions that would allocate it. -/
theorem freedBy_or_eq (hcallbacks : ∀ c ∈ callbacks, c.AllOrNone) (hp : ∀ c ∈ pAllocator, c.AllOrNone) :
    freedBy (pAllocator.or callbacks) = allocatedBy (pAllocator.or callbacks) := by
  rcases pAllocator with _ | c
  · exact freedBy_eq hcallbacks
  · exact freedBy_eq hp

theorem allocatedBy_or_iff : allocatedBy (pAllocator.or callbacks) = allocatedBy callbacks ↔
    pAllocator = none ∨ allocatedBy pAllocator = allocatedBy callbacks := by
  rcases pAllocator with _ | c
  · simp
  · simp

/-- An event of the instance's allocator, on a block that is not for an index. -/
def OffIndex (callbacks : Option VkAllocationCallbacks) (e : AllocationEvent) : Prop :=
  e.handle.1 = allocatedBy callbacks ∧ ∀ messenger, e.handle.2 ≠ .nextIndex messenger

theorem offIndex_of_listEvents {α : Type*} (hcallbacks : ∀ c ∈ callbacks, c.AllOrNone) {block : ℕ → MessengerBlock}
    (hblock : ∀ capacity messenger, block capacity ≠ .nextIndex messenger) {before after : Option (List α)}
    {e : AllocationEvent} (he : e ∈ listEvents callbacks block before after) : OffIndex callbacks e := by
  rcases before with _ | before <;> rcases after with _ | after <;> simp only [listEvents] at he
  · cases he
  · obtain rfl := List.mem_singleton.1 he
    exact ⟨rfl, hblock _⟩
  · obtain rfl := List.mem_singleton.1 he
    exact ⟨freedBy_eq hcallbacks, hblock _⟩
  · split_ifs at he
    · cases he
    · rcases List.mem_pair.1 he with rfl | rfl
      · exact ⟨reallocatedBy_eq hcallbacks, hblock _⟩
      · exact ⟨reallocatedBy_eq hcallbacks, hblock _⟩

theorem offIndex_of_icdListEvents (hcallbacks : ∀ c ∈ callbacks, c.AllOrNone) {before after : List MessengerIcd}
    {i : ℕ} {e : AllocationEvent} (he : e ∈ icdListEvents callbacks i before after) : OffIndex callbacks e := by
  induction before generalizing i after with
  | nil => cases he
  | cons icd before ih =>
    rcases after with _ | ⟨icd', after⟩
    · cases he
    · rcases List.mem_append.1 he with he | he
      · exact offIndex_of_listEvents hcallbacks (fun _ _ => MessengerBlock.noConfusion) he
      · exact ih he

/-- **The events of a create call**: the block for the index comes from the instance, and the callbacks of the call
serve the node of a messenger that was made, and the roll-back. -/
theorem createEvents_cases {s : MessengerInstance} (hcallbacks : ∀ c ∈ s.allocCallbacks, c.AllOrNone)
    {a : MessengerAnswers} {e : AllocationEvent} (he : e ∈ createEvents s pAllocator a) :
    a.nextIndexAllocated = true ∧
      (e = .made (allocatedBy s.allocCallbacks, .nextIndex s.nextBlock) ∨ OffIndex s.allocCallbacks e ∨
        e = .made (allocatedBy (pAllocator.or s.allocCallbacks), .dbgFunctionNode s.nextBlock) ∨
        e = .givenBack (freedBy (pAllocator.or s.allocCallbacks), .nextIndex s.nextBlock)) := by
  rcases halloc : a.nextIndexAllocated with _ | _
  · simp [createEvents, halloc] at he
  refine ⟨rfl, ?_⟩
  simp only [createEvents, halloc, Bool.not_true, Bool.false_eq_true, if_false] at he
  rcases List.mem_cons.1 he with rfl | he
  · exact Or.inl rfl
  rcases List.mem_append.1 he with he | he
  · refine Or.inr (Or.inl ?_)
    rcases List.mem_append.1 he with he | he
    · exact offIndex_of_listEvents hcallbacks (fun _ _ => MessengerBlock.noConfusion) he
    · exact offIndex_of_icdListEvents hcallbacks he
  · split_ifs at he
    · exact Or.inr (Or.inr (Or.inl (List.mem_singleton.1 he)))
    · exact Or.inr (Or.inr (Or.inr (List.mem_singleton.1 he)))

/-- **The events of a destroy call**: both blocks are released through its callbacks. -/
theorem destroyEvents_cases {s : MessengerInstance} {messenger : Handle} {e : AllocationEvent}
    (he : e ∈ destroyEvents s messenger pAllocator) :
    ∃ block, e = .givenBack (freedBy (pAllocator.or s.allocCallbacks), block) := by
  unfold destroyEvents at he
  split_ifs at he
  · simp only [List.mem_append, List.mem_singleton] at he
    rcases he with rfl | rfl
    · exact ⟨_, rfl⟩
    · exact ⟨_, rfl⟩
  · simp only [List.nil_append, List.mem_singleton] at he
    exact ⟨_, he⟩
  · cases he

end Allocators

namespace MessengerLedger

/-- The callbacks that the creation of a messenger was given allocate as those of the instance. -/
def GivenInstance (callbacks : Option VkAllocationCallbacks) (s : MessengerLedger) (messenger : Handle) : Prop :=
  allocatedBy ((s.given messenger).or callbacks) = allocatedBy callbacks

/-- Every event is one of the instance's allocator. -/
structure FromInstance (callbacks : Option VkAllocationCallbacks) (s : MessengerLedger) : Prop where
  allocCallbacks : s.inst.allocCallbacks = callbacks
  log : ∀ e ∈ s.log, e.handle.1 = allocatedBy callbacks
  given : ∀ messenger ∈ s.inst.live, s.GivenInstance callbacks messenger

/-- The blocks for the indices are obtained from the instance. -/
structure IndexFromInstance (callbacks : Option VkAllocationCallbacks) (s : MessengerLedger) : Prop where
  allocCallbacks : s.inst.allocCallbacks = callbacks
  made : ∀ allocator messenger, HandleEvent.made (allocator, MessengerBlock.nextIndex messenger) ∈ s.log →
    allocator = allocatedBy callbacks

/-- The block for an index goes to another allocator: it was released through it, or the destroy call of its messenger
will. -/
def Astray (callbacks : Option VkAllocationCallbacks) (s : MessengerLedger) : Prop :=
  (∃ allocator messenger, allocator ≠ allocatedBy callbacks ∧
    HandleEvent.givenBack (allocator, MessengerBlock.nextIndex messenger) ∈ s.log) ∨
    ∃ messenger ∈ s.inst.live, ¬ s.GivenInstance callbacks messenger

section Steps

variable {callbacks : Option VkAllocationCallbacks} {s : MessengerLedger} {c : MessengerCall}

theorem allocCallbacks_step (hs : s.Holds) (hc : s.Matching c) :
    (s.step c).inst.allocCallbacks = s.inst.allocCallbacks := by
  rcases c with ⟨pAllocator, a⟩ | ⟨messenger, pAllocator⟩
  · exact (terminatorCreate_cases s.inst pAllocator a).1.1
  · exact (terminatorDestroy_live hs.nodup hc.1 pAllocator).1

/-- What a live messenger was given is what it was given before, or the callbacks of the call that made it. -/
theorem given_step (hs : s.Holds) (hc : s.Matching c) {messenger : Handle} (hlive : messenger ∈ (s.step c).inst.live) :
    (messenger ∈ s.inst.live ∧ (s.step c).given messenger = s.given messenger) ∨
      ∃ pAllocator a, c = .create pAllocator a ∧ a.nextIndexAllocated = true ∧
        (s.step c).given messenger = pAllocator := by
  rcases c with ⟨pAllocator, a⟩ | ⟨destroyed, pAllocator⟩
  · have hold : messenger ∈ s.inst.live → (s.step (.create pAllocator a)).given messenger = s.given messenger :=
      fun hmem => Function.update_of_ne (hs.fresh messenger hmem).ne _ _
    obtain ⟨-, ⟨-, halloc, hlive', -, -⟩ | ⟨-, hlive', -, -⟩⟩ := terminatorCreate_cases s.inst pAllocator a
    · rcases List.mem_cons.1 (hlive' ▸ hlive : messenger ∈ s.inst.nextBlock :: s.inst.live) with rfl | hmem
      · exact Or.inr ⟨pAllocator, a, rfl, halloc, Function.update_self _ _ _⟩
      · exact Or.inl ⟨hmem, hold hmem⟩
    · have hmem : messenger ∈ s.inst.live := hlive' ▸ hlive
      exact Or.inl ⟨hmem, hold hmem⟩
  · have hperm := (terminatorDestroy_live hs.nodup hc.1 pAllocator).2.1
    exact Or.inl ⟨hperm.mem_iff.2 (List.mem_cons_of_mem _ hlive), rfl⟩

/-- **Calls with the instance's allocator** keep to it. -/
theorem FromInstance.step (h : s.FromInstance callbacks) (hcallbacks : ∀ c ∈ callbacks, c.AllOrNone)
    (hp : ∀ p ∈ c.pAllocator, p.AllOrNone) (hs : s.Holds) (hc : s.Matching c)
    (hinst : InstanceAllocator callbacks c) : (s.step c).FromInstance callbacks := by
  refine ⟨(allocCallbacks_step hs hc).trans h.allocCallbacks, fun e he => ?_, fun messenger hlive => ?_⟩
  · rcases List.mem_append.1 he with he | he
    · exact h.log e he
    rcases c with ⟨pAllocator, a⟩ | ⟨messenger, pAllocator⟩
    · obtain ⟨halloc, hcases⟩ := createEvents_cases (h.allocCallbacks ▸ hcallbacks) he
      have hor := allocatedBy_or_iff.2 (hinst halloc)
      rw [h.allocCallbacks] at hcases
      rcases hcases with rfl | hlists | rfl | rfl
      · rfl
      · exact hlists.1
      · exact hor
      · exact (freedBy_or_eq hcallbacks hp).trans hor
    · obtain ⟨block, rfl⟩ := destroyEvents_cases he
      have hgiven : allocatedBy (pAllocator.or callbacks) = allocatedBy callbacks := hc.2 ▸ h.given messenger hc.1
      rw [h.allocCallbacks]
      exact (freedBy_or_eq hcallbacks hp).trans hgiven
  · rcases given_step hs hc hlive with ⟨hmem, hgiven⟩ | ⟨pAllocator, a, rfl, halloc, hgiven⟩
    · rw [GivenInstance, hgiven]
      exact h.given messenger hmem
    · rw [GivenInstance, hgiven]
      exact allocatedBy_or_iff.2 (hinst halloc)

theorem IndexFromInstance.step (h : s.IndexFromInstance callbacks) (hcallbacks : ∀ c ∈ callbacks, c.AllOrNone)
    (hs : s.Holds) (hc : s.Matching c) : (s.step c).IndexFromInstance callbacks := by
  refine ⟨(allocCallbacks_step hs hc).trans h.allocCallbacks, fun allocator messenger he => ?_⟩
  rcases List.mem_append.1 he with he | he
  · exact h.made allocator messenger he
  rcases c with ⟨pAllocator, a⟩ | ⟨destroyed, pAllocator⟩
  · obtain ⟨-, heq | hlists | heq | heq⟩ := createEvents_cases (h.allocCallbacks ▸ hcallbacks) he
    · rw [h.allocCallbacks] at heq
      injection heq with heq
      exact congrArg Prod.fst heq
    · exact absurd rfl (hlists.2 messenger)
    · cases heq
    · cases heq
  · obtain ⟨block, heq⟩ := destroyEvents_cases he
    cases heq

/-- **What went astray stays astray**: a destroy call on the messenger puts it in the log. -/
theorem Astray.step (h : s.Astray callbacks) (hcallbacks : ∀ c ∈ callbacks, c.AllOrNone)
    (hp : ∀ p ∈ c.pAllocator, p.AllOrNone) (hinst : s.inst.allocCallbacks = callbacks) (hs : s.Holds)
    (hc : s.Matching c) : (s.step c).Astray callbacks := by
  rcases h with ⟨allocator, messenger, hne, hlog⟩ | ⟨messenger, hlive, hgiven⟩
  · exact Or.inl ⟨allocator, messenger, hne, List.mem_append_left _ hlog⟩
  rcases c with ⟨pAllocator, a⟩ | ⟨destroyed, pAllocator⟩
  · refine Or.inr ⟨messenger, ?_, ?_⟩
    · obtain ⟨-, ⟨-, -, hlive', -, -⟩ | ⟨-, hlive', -, -⟩⟩ := terminatorCreate_cases s.inst pAllocator a
      · exact hlive' ▸ List.mem_cons_of_mem _ hlive
      · exact hlive' ▸ hlive
    · have hsame : (s.step (.create pAllocator a)).given messenger = s.given messenger :=
        Function.update_of_ne (hs.fresh messenger hlive).ne _ _
      rwa [GivenInstance, hsame]
  · have hperm := (terminatorDestroy_live hs.nodup hc.1 pAllocator).2.1
    rcases List.mem_cons.1 (hperm.mem_iff.1 hlive) with rfl | hlive'
    · -- the messenger is destroyed, with the callbacks of its creation
      refine Or.inl ⟨freedBy (pAllocator.or callbacks), messenger, ?_, List.mem_append_right _ ?_⟩
      · have hfreed : freedBy (pAllocator.or callbacks) = _ := freedBy_or_eq hcallbacks hp
        rw [hfreed, hc.2]
        exact hgiven
      · rw [← hinst]
        simp [destroyEvents, hc.1]
    · exact Or.inr ⟨messenger, hlive', hgiven⟩

/-- **A create call with another allocator** sends its block for the index astray, whether it fails or not. -/
theorem astray_of_create (hcallbacks : ∀ c ∈ callbacks, c.AllOrNone) (hp : ∀ p ∈ c.pAllocator, p.AllOrNone)
    (hinst : s.inst.allocCallbacks = callbacks) (hc : ¬ InstanceAllocator callbacks c) :
    (s.step c).Astray callbacks := by
  rcases c with ⟨pAllocator, a⟩ | ⟨destroyed, pAllocator⟩
  · obtain ⟨halloc, hother⟩ := Classical.not_imp.1 hc
    rw [← allocatedBy_or_iff] at hother
    obtain ⟨-, ⟨-, -, hlive, -, -⟩ | ⟨hres, -, -, -⟩⟩ := terminatorCreate_cases s.inst pAllocator a
    · have hnew : (s.step (.create pAllocator a)).given s.inst.nextBlock = pAllocator := Function.update_self _ _ _
      refine Or.inr ⟨s.inst.nextBlock, hlive ▸ List.mem_cons_self, ?_⟩
      rwa [GivenInstance, hnew]
    · refine Or.inl ⟨freedBy (pAllocator.or callbacks), s.inst.nextBlock, ?_, List.mem_append_right _ ?_⟩
      · have hfreed : freedBy (pAllocator.or callbacks) = _ := freedBy_or_eq hcallbacks hp
        rwa [hfreed]
      · rw [← hinst]
        simp [createEvents, halloc, hres]
  · exact absurd trivial hc

end Steps

section Runs

variable {callbacks : Option VkAllocationCallbacks} {s : MessengerLedger} {calls : List MessengerCall}

theorem FromInstance.run (h : s.FromInstance callbacks) (hcallbacks : ∀ c ∈ callbacks, c.AllOrNone)
    (hp : ∀ c ∈ calls, ∀ p ∈ c.pAllocator, p.AllOrNone) (hs : s.Holds)
    (hcalls : Lib.AllSteps MessengerLedger.step Matching s calls)
    (hinst : ∀ c ∈ calls, InstanceAllocator callbacks c) :
    (Lib.run MessengerLedger.step s calls).FromInstance callbacks := by
  induction calls generalizing s with
  | nil => exact h
  | cons c calls ih =>
    obtain ⟨hpc, hp⟩ := List.forall_mem_cons.1 hp
    obtain ⟨hc, hinst⟩ := List.forall_mem_cons.1 hinst
    exact ih (h.step hcallbacks hpc hs hcalls.1 hc) hp (hs.step hcalls.1) hcalls.2 hinst

theorem IndexFromInstance.run (h : s.IndexFromInstance callbacks) (hcallbacks : ∀ c ∈ callbacks, c.AllOrNone)
    (hs : s.Holds) (hcalls : Lib.AllSteps MessengerLedger.step Matching s calls) :
    (Lib.run MessengerLedger.step s calls).IndexFromInstance callbacks := by
  induction calls generalizing s with
  | nil => exact h
  | cons c calls ih => exact ih (h.step hcallbacks hs hcalls.1) (hs.step hcalls.1) hcalls.2

/-- A run goes astray if it starts so, or if one of its calls has another allocator. -/
theorem Astray.run (h : s.Astray callbacks ∨ ∃ c ∈ calls, ¬ InstanceAllocator callbacks c)
    (hcallbacks : ∀ c ∈ callbacks, c.AllOrNone) (hp : ∀ c ∈ calls, ∀ p ∈ c.pAllocator, p.AllOrNone)
    (hinst : s.inst.allocCallbacks = callbacks) (hs : s.Holds)
    (hcalls : Lib.AllSteps MessengerLedger.step Matching s calls) :
    (Lib.run MessengerLedger.step s calls).Astray callbacks := by
  induction calls generalizing s with
  | nil =>
    rcases h with h | ⟨c, hmem, -⟩
    · exact h
    · cases hmem
  | cons c calls ih =>
    obtain ⟨hpc, hp⟩ := List.forall_mem_cons.1 hp
    refine ih ?_ hp ((allocCallbacks_step hs hcalls.1).trans hinst) (hs.step hcalls.1) hcalls.2
    rcases h with h | ⟨d, hmem, hd⟩
    · exact Or.inl (h.step hcallbacks hpc hinst hs hcalls.1)
    · rcases List.mem_cons.1 hmem with rfl | hmem
      · exact Or.inl (astray_of_create hcallbacks hpc hinst hd)
      · exact Or.inr ⟨d, hmem, hd⟩

end Runs

/-! ### The destruction of the instance -/

/-- A part of `vkDestroyInstance`: it releases other blocks than those for the indices, by the instance's allocator. -/
structure Closes (callbacks : Option VkAllocationCallbacks) (s s' : MessengerLedger) : Prop where
  allocCallbacks : s'.inst.allocCallbacks = callbacks
  live : s'.inst.live = s.inst.live
  given : s'.given = s.given
  log : ∃ events, s'.log = s.log ++ events ∧ ∀ e ∈ events, OffIndex callbacks e

section Closing

variable {callbacks : Option VkAllocationCallbacks} {s s' : MessengerLedger}

theorem Closes.trans {s'' : MessengerLedger} (h : Closes callbacks s s') (h' : Closes callbacks s' s'') :
    Closes callbacks s s'' := by
  obtain ⟨events, hlog, hevents⟩ := h.log
  obtain ⟨events', hlog', hevents'⟩ := h'.log
  refine ⟨h'.allocCallbacks, h'.live.trans h.live, h'.given.trans h.given, events ++ events', ?_, ?_⟩
  · rw [hlog', hlog, List.append_assoc]
  · exact fun e he => (List.mem_append.1 he).elim (hevents e) (hevents' e)

theorem closes_destroyDebugCallbacksChain (hcallbacks : ∀ c ∈ callbacks, c.AllOrNone)
    (hinst : s.inst.allocCallbacks = callbacks) : Closes callbacks s (s.destroyDebugCallbacksChain callbacks) := by
  refine ⟨hinst, rfl, rfl, _, rfl, fun e he => ?_⟩
  obtain ⟨messenger, -, rfl⟩ := List.mem_map.1 he
  refine ⟨?_, fun _ => MessengerBlock.noConfusion⟩
  show freedBy (callbacks.or s.inst.allocCallbacks) = _
  rw [hinst, Option.or_self]
  exact freedBy_eq hcallbacks

theorem closes_removeCallbacks (hcallbacks : ∀ c ∈ callbacks, c.AllOrNone) (hinst : s.inst.allocCallbacks = callbacks) :
    Closes callbacks s (s.removeCallbacks callbacks) := by
  set s₁ : MessengerLedger := { s with
    inst := { s.inst with allocCallbacks := callbacks.or s.inst.allocCallbacks } }
  have hsame : s₁.inst.allocCallbacks = callbacks := by
    show callbacks.or s.inst.allocCallbacks = callbacks
    rw [hinst, Option.or_self]
  have hstart : Closes callbacks s s₁ := ⟨hsame, rfl, rfl, [], (List.append_nil _).symm, by simp⟩
  exact hstart.trans (closes_destroyDebugCallbacksChain hcallbacks hsame)

theorem closes_destroyLists (hcallbacks : ∀ c ∈ callbacks, c.AllOrNone) (hinst : s.inst.allocCallbacks = callbacks) :
    Closes callbacks s s.destroyLists := by
  refine ⟨hinst, rfl, rfl, _, rfl, fun e he => ?_⟩
  rw [hinst] at he
  rcases List.mem_append.1 he with he | he
  · exact offIndex_of_icdListEvents hcallbacks he
  · exact offIndex_of_listEvents hcallbacks (fun _ _ => MessengerBlock.noConfusion) he

theorem FromInstance.closes (h : s.FromInstance callbacks) (hc : Closes callbacks s s') :
    s'.FromInstance callbacks := by
  obtain ⟨events, hlog, hevents⟩ := hc.log
  refine ⟨hc.allocCallbacks, fun e he => ?_, fun messenger hlive => ?_⟩
  · rcases List.mem_append.1 (hlog ▸ he) with he | he
    · exact h.log e he
    · exact (hevents e he).1
  · rw [GivenInstance, hc.given]
    exact h.given messenger (hc.live ▸ hlive)

theorem IndexFromInstance.closes (h : s.IndexFromInstance callbacks) (hc : Closes callbacks s s') :
    s'.IndexFromInstance callbacks := by
  obtain ⟨events, hlog, hevents⟩ := hc.log
  refine ⟨hc.allocCallbacks, fun allocator messenger he => ?_⟩
  rcases List.mem_append.1 (hlog ▸ he) with he | he
  · exact h.made allocator messenger he
  · exact absurd rfl ((hevents _ he).2 messenger)

theorem Astray.closes (h : s.Astray callbacks) (hc : Closes callbacks s s') : s'.Astray callbacks := by
  obtain ⟨events, hlog, -⟩ := hc.log
  rcases h with ⟨allocator, messenger, hne, he⟩ | ⟨messenger, hlive, hgiven⟩
  · exact Or.inl ⟨allocator, messenger, hne, hlog ▸ List.mem_append_left _ he⟩
  · refine Or.inr ⟨messenger, hc.live ▸ hlive, ?_⟩
    rwa [GivenInstance, hc.given]

end Closing

end MessengerLedger

namespace MessengerLife

open MessengerLedger

variable {l : MessengerLife}

theorem start_fromInstance (l : MessengerLife) : l.start.FromInstance l.callbacks :=
  ⟨rfl, fun _ he => absurd he List.not_mem_nil, fun _ hlive => absurd hlive List.not_mem_nil⟩

theorem start_indexFromInstance (l : MessengerLife) : l.start.IndexFromInstance l.callbacks :=
  ⟨rfl, fun _ _ he => absurd he List.not_mem_nil⟩

theorem Valid.earlier (hl : l.Valid) : ∀ c ∈ l.calls, ∀ p ∈ c.pAllocator, p.AllOrNone :=
  fun c hc => hl.pAllocator c (List.mem_append_left _ hc)

theorem Valid.later (hl : l.Valid) : ∀ c ∈ l.late, ∀ p ∈ c.pAllocator, p.AllOrNone :=
  fun c hc => hl.pAllocator c (List.mem_append_right _ hc)

/-- The end of `vkDestroyInstance`. -/
theorem closes_final (hl : l.Valid) {s : MessengerLedger} (hinst : s.inst.allocCallbacks = l.callbacks) :
    Closes l.callbacks s (s.destroyLists.destroyDebugCallbacksChain l.callbacks) :=
  have hlists := closes_destroyLists hl.callbacks hinst
  hlists.trans (closes_destroyDebugCallbacksChain hl.callbacks hlists.allocCallbacks)

theorem called_indexFromInstance (hl : l.Valid) : l.called.IndexFromInstance l.callbacks :=
  l.start_indexFromInstance.run hl.callbacks l.start_holds hl.calls

theorem removed_indexFromInstance (hl : l.Valid) :
    (l.called.removeCallbacks l.callbacks).IndexFromInstance l.callbacks :=
  (called_indexFromInstance hl).closes (closes_removeCallbacks hl.callbacks (called_indexFromInstance hl).allocCallbacks)

theorem late_indexFromInstance (hl : l.Valid) :
    (Lib.run step (l.called.removeCallbacks l.callbacks) l.late).IndexFromInstance l.callbacks :=
  (removed_indexFromInstance hl).run hl.callbacks (removed_holds hl) hl.late

theorem final_indexFromInstance (hl : l.Valid) : l.final.IndexFromInstance l.callbacks :=
  (late_indexFromInstance hl).closes (closes_final hl (late_indexFromInstance hl).allocCallbacks)

/-- Where every call has the instance's allocator, so has every event. -/
theorem final_fromInstance (hl : l.Valid) (hinst : ∀ c ∈ l.calls ++ l.late, InstanceAllocator l.callbacks c) :
    l.final.FromInstance l.callbacks := by
  have hcalled := l.start_fromInstance.run hl.callbacks hl.earlier l.start_holds hl.calls
    fun c hc => hinst c (List.mem_append_left _ hc)
  have hremoved := hcalled.closes (closes_removeCallbacks hl.callbacks hcalled.allocCallbacks)
  have hlate := hremoved.run hl.callbacks hl.later (removed_holds hl) hl.late
    fun c hc => hinst c (List.mem_append_right _ hc)
  exact hlate.closes (closes_final hl hlate.allocCallbacks)

/-- A call with another allocator leaves a block astray in the end. -/
theorem final_astray (hl : l.Valid) {c : MessengerCall} (hmem : c ∈ l.calls ++ l.late)
    (hc : ¬ InstanceAllocator l.callbacks c) : l.final.Astray l.callbacks := by
  have hremoved : (l.called.removeCallbacks l.callbacks).Astray l.callbacks ∨
      ∃ c ∈ l.late, ¬ InstanceAllocator l.callbacks c := by
    rcases List.mem_append.1 hmem with hmem | hmem
    · have hcalled : l.called.Astray l.callbacks :=
        Astray.run (Or.inr ⟨c, hmem, hc⟩) hl.callbacks hl.earlier rfl l.start_holds hl.calls
      exact Or.inl (hcalled.closes (closes_removeCallbacks hl.callbacks (called_indexFromInstance hl).allocCallbacks))
    · exact Or.inr ⟨c, hmem, hc⟩
  have hlate := Astray.run hremoved hl.callbacks hl.later (removed_indexFromInstance hl).allocCallbacks
    (removed_holds hl) hl.late
  exact hlate.closes (closes_final hl (late_indexFromInstance hl).allocCallbacks)

/-- **When the blocks go back where they came from.**  Every block is released once and through the allocator that
produced it exactly when no create call that obtains a block is given callbacks of its own, other than those of the
instance, and every messenger is destroyed. -/
theorem settled_final_iff (hl : l.Valid) :
    Settled l.final.log ↔
      (∀ c ∈ l.calls ++ l.late, InstanceAllocator l.callbacks c) ∧ l.final.inst.messengers = [] := by
  constructor
  · intro hlog
    have hnone : l.final.inst.messengers = [] := (settled_blockLog_iff hl).1 (hlog.map Prod.snd)
    refine ⟨fun c hmem => ?_, hnone⟩
    by_contra hc
    rcases final_astray hl hmem hc with ⟨allocator, messenger, hne, hback⟩ | ⟨messenger, hlive, -⟩
    · rcases Lib.made_of_givenBack hlog hback with hheld | hmade
      · exact absurd hheld (Multiset.notMem_zero _)
      · exact hne ((final_indexFromInstance hl).made allocator messenger hmade)
    · rw [MessengerInstance.live, hnone] at hlive
      cases hlive
  · rintro ⟨hinst, hnone⟩
    exact Lib.settled_of_map Prod.snd (fun block => (allocatedBy l.callbacks, block))
      (fun e he => Prod.ext ((final_fromInstance hl hinst).log e he).symm rfl) ((settled_blockLog_iff hl).2 hnone)

/-- A messenger is made and destroyed with the same callbacks, after a call that fails in the driver. -/
def makeAndDestroy (callbacks pAllocator : Option VkAllocationCallbacks) : MessengerLife where
  callbacks := callbacks
  supported := [true, false]
  calls := [
    .create pAllocator ⟨true, .grants fun _ => 0,
      fun _ => ⟨.grants fun _ => 0, .failed .errorOutOfHostMemory (by decide) none⟩, true⟩,
    .create pAllocator ⟨true, .grants fun _ => 0, fun _ => ⟨.grants fun _ => 0, .created 5 (by decide)⟩, true⟩,
    .destroy 1 pAllocator]

/-- Callbacks as an application gives them. -/
def applicationCallbacks : VkAllocationCallbacks := ⟨1, true, true, true⟩

theorem applicationCallbacks_allOrNone : ∀ c ∈ some applicationCallbacks, c.AllOrNone := by
  rintro c ⟨⟩
  exact ⟨rfl, rfl⟩

theorem makeAndDestroy_valid {callbacks pAllocator : Option VkAllocationCallbacks}
    (hcallbacks : ∀ c ∈ callbacks, c.AllOrNone) (hp : ∀ c ∈ pAllocator, c.AllOrNone)
    (hcalls : Lib.AllSteps step Matching (makeAndDestroy callbacks pAllocator).start
      (makeAndDestroy callbacks pAllocator).calls) : (makeAndDestroy callbacks pAllocator).Valid := by
  refine ⟨hcallbacks, fun call hcall => ?_, hcalls, trivial⟩
  have hsame : call.pAllocator = pAllocator := by
    simp only [makeAndDestroy, List.append_nil, List.mem_cons, List.not_mem_nil, or_false] at hcall
    rcases hcall with rfl | rfl | rfl <;> rfl
  rwa [hsame]

theorem settled_final_iff_makeAndDestroy :
    (makeAndDestroy (some applicationCallbacks) none).Valid ∧
      Settled (makeAndDestroy (some applicationCallbacks) none).final.log := by
  have hvalid : (makeAndDestroy (some applicationCallbacks) none).Valid :=
    makeAndDestroy_valid applicationCallbacks_allOrNone (fun _ h => by cases h) (by decide)
  refine ⟨hvalid, (settled_final_iff hvalid).2 ⟨?_, by decide⟩⟩
  simp [makeAndDestroy, InstanceAllocator]

/-- An instance without callbacks, and a messenger with: the block for the index comes from `malloc` and goes to the
`pfnFree` of the application. -/
theorem not_settled_final :
    ¬ ∀ l : MessengerLife, l.Valid → l.final.inst.messengers = [] → Settled l.final.log := by
  intro h
  have hvalid : (makeAndDestroy none (some applicationCallbacks)).Valid :=
    makeAndDestroy_valid (fun _ h => by cases h) applicationCallbacks_allOrNone (by decide)
  exact absurd (h _ hvalid (by decide)) (by decide)

end MessengerLife

end VulkanLoader
