import VulkanLoader.Handles.MessengerSafety
import VulkanLoader.Lib.Outstanding

/-!
# The allocators of a messenger's blocks (`debug_utils.c`, `allocation.c`)

A messenger is made of a block for its index and a node of the list of callbacks; the lists of the instance and of the
drivers grow beside them.  The ledger logs by which functions a block is obtained and released.  Every block is released
once, whatever callbacks are given.  But the block for the index is obtained from the heap of the instance, and is
released through the callbacks of the call where there are some: the node, which falls back in both calls, shows how it
was meant.
-/

namespace VulkanLoader

open Lib (HandleEvent Settled outstanding)

/-- The functions of some callbacks, or those of the C library. -/
abbrev Allocator := Option VkAllocationCallbacks

/-- What `loader_alloc` and `loader_calloc` call. -/
def allocatedBy (pAllocator : Option VkAllocationCallbacks) : Allocator := pAllocator.filter (·.pfnAllocation)

/-- What `loader_realloc` calls for a block that is not empty. -/
def reallocatedBy (pAllocator : Option VkAllocationCallbacks) : Allocator := pAllocator.filter (·.pfnReallocation)

/-- What `loader_free` calls. -/
def freedBy (pAllocator : Option VkAllocationCallbacks) : Allocator := pAllocator.filter (·.pfnFree)

/-- All of the functions are given, as they must be, or none, as in an instance that was given no callbacks. -/
structure VkAllocationCallbacks.AllOrNone (c : VkAllocationCallbacks) : Prop where
  reallocation : c.pfnReallocation = c.pfnAllocation
  free : c.pfnFree = c.pfnAllocation

/-- The blocks of the loader.  The handle of a messenger is the address of the block for its index. -/
inductive MessengerBlock where
  | nextIndex (messenger : Handle)
  | dbgFunctionNode (messenger : Handle)
  /-- Of the instance. -/
  | debugUtilsMessengersList (capacity : ℕ)
  /-- Of a driver. -/
  | debugUtilsMessengerList (icd capacity : ℕ)
  deriving DecidableEq

/-- A block was obtained or released, by these functions. -/
abbrev AllocationEvent := HandleEvent (Allocator × MessengerBlock)

/-! ### The events of a call -/

/-- A list whose block was `before` and is `after`: `loader_init_generic_list` obtains the first block,
`loader_resize_generic_list` has it replaced, and `loader_destroy_generic_list` releases the last. -/
def listEvents {α : Type*} (callbacks : Option VkAllocationCallbacks) (block : ℕ → MessengerBlock) :
    Option (List α) → Option (List α) → List AllocationEvent
  | none, none => []
  | none, some after => [.made (allocatedBy callbacks, block after.length)]
  | some before, none => [.givenBack (freedBy callbacks, block before.length)]
  | some before, some after =>
    if before.length = after.length then []
    else [.givenBack (reallocatedBy callbacks, block before.length),
      .made (reallocatedBy callbacks, block after.length)]

/-- The lists of the drivers from the `i`-th on. -/
def icdListEvents (callbacks : Option VkAllocationCallbacks) :
    ℕ → List MessengerIcd → List MessengerIcd → List AllocationEvent
  | i, icd :: before, icd' :: after =>
    listEvents callbacks (.debugUtilsMessengerList i) icd.debugUtilsMessengerList icd'.debugUtilsMessengerList ++
      icdListEvents callbacks (i + 1) before after
  | _, _, _ => []

/-- What `terminator_CreateDebugUtilsMessengerEXT` obtains and releases.  The node is the last block it asks for, so
that a call that fails has no node to release. -/
def createEvents (s : MessengerInstance) (pAllocator : Option VkAllocationCallbacks) (a : MessengerAnswers) :
    List AllocationEvent :=
  if !a.nextIndexAllocated then []
  else
    let (res, s') := terminatorCreateDebugUtilsMessengerEXT s pAllocator a
    -- `loader_instance_heap_alloc`
    .made (allocatedBy s.allocCallbacks, .nextIndex s.nextBlock) ::
      (listEvents s.allocCallbacks .debugUtilsMessengersList s.debugUtilsMessengersList s'.debugUtilsMessengersList ++
        icdListEvents s.allocCallbacks 0 s.icdTerms s'.icdTerms ++
        -- `loader_calloc_with_instance_fallback`, `loader_free_with_instance_fallback`
        if res = .success then [.made (allocatedBy (pAllocator.or s.allocCallbacks), .dbgFunctionNode s.nextBlock)]
        else [.givenBack (freedBy (pAllocator.or s.allocCallbacks), .nextIndex s.nextBlock)])

/-- The handles of the live messengers. -/
def MessengerInstance.live (s : MessengerInstance) : List Handle := s.messengers.map Prod.fst

/-- What `terminator_DestroyDebugUtilsMessengerEXT` releases. -/
def destroyEvents (s : MessengerInstance) (messenger : Handle) (pAllocator : Option VkAllocationCallbacks) :
    List AllocationEvent :=
  if messenger ∈ s.live then
    (if messenger ∈ s.dbgFunctions then
        [.givenBack (freedBy (pAllocator.or s.allocCallbacks), .dbgFunctionNode messenger)]
      else []) ++
      [.givenBack (freedBy (pAllocator.or s.allocCallbacks), .nextIndex messenger)]
  else []

/-- The callbacks of a call. -/
def MessengerCall.pAllocator : MessengerCall → Option VkAllocationCallbacks
  | create pAllocator _ => pAllocator
  | destroy _ pAllocator => pAllocator

/-- An instance with what its calls obtained and released.  `given` are the callbacks that the creation of a live
messenger was given. -/
structure MessengerLedger where
  inst : MessengerInstance
  given : Handle → Option VkAllocationCallbacks := fun _ => none
  log : List AllocationEvent := []

namespace MessengerLedger

/-- A call. -/
def step (s : MessengerLedger) (c : MessengerCall) : MessengerLedger where
  inst := messengerStep s.inst c
  given := match c with
    | .create pAllocator _ => Function.update s.given s.inst.nextBlock pAllocator
    | .destroy _ _ => s.given
  log := s.log ++ match c with
    | .create pAllocator a => createEvents s.inst pAllocator a
    | .destroy messenger pAllocator => destroyEvents s.inst messenger pAllocator

/-- `destroy_debug_callbacks_chain`. -/
def destroyDebugCallbacksChain (s : MessengerLedger) (pAllocator : Option VkAllocationCallbacks) : MessengerLedger :=
  { s with
    inst := { s.inst with dbgFunctions := [] }
    log := s.log ++ s.inst.dbgFunctions.map fun messenger =>
      .givenBack (freedBy (pAllocator.or s.inst.allocCallbacks), .dbgFunctionNode messenger) }

/-- The lists in `loader_icd_destroy`, for every driver, and the list of the instance in `vkDestroyInstance`. -/
def destroyLists (s : MessengerLedger) : MessengerLedger :=
  let icdTerms := s.inst.icdTerms.map fun icd => { icd with debugUtilsMessengerList := none }
  { s with
    inst := { s.inst with icdTerms := icdTerms, debugUtilsMessengersList := none }
    log := s.log ++ (icdListEvents s.inst.allocCallbacks 0 s.inst.icdTerms icdTerms ++
      listEvents s.inst.allocCallbacks .debugUtilsMessengersList s.inst.debugUtilsMessengersList
        (none : UsedObjectList)) }

/-- `vkDestroyInstance` up to the calls down the chain. -/
def removeCallbacks (s : MessengerLedger) (pAllocator : Option VkAllocationCallbacks) : MessengerLedger :=
  destroyDebugCallbacksChain
    { s with inst := { s.inst with allocCallbacks := pAllocator.or s.inst.allocCallbacks } } pAllocator

/-- `vkDestroyInstance`; `late` are the calls that layers make as it goes down the chain. -/
def vkDestroyInstance (s : MessengerLedger) (pAllocator : Option VkAllocationCallbacks) (late : List MessengerCall) :
    MessengerLedger :=
  (Lib.run step (s.removeCallbacks pAllocator) late).destroyLists.destroyDebugCallbacksChain pAllocator

/-- A destroy call names a live messenger and gives the callbacks that its creation was given. -/
def Matching (s : MessengerLedger) : MessengerCall → Prop
  | .create _ _ => True
  | .destroy messenger pAllocator => messenger ∈ s.inst.live ∧ pAllocator = s.given messenger

instance : ∀ (s : MessengerLedger) (c : MessengerCall), Decidable (s.Matching c)
  | _, .create _ _ => isTrue trivial
  | s, .destroy messenger pAllocator =>
    inferInstanceAs (Decidable (messenger ∈ s.inst.live ∧ pAllocator = s.given messenger))

end MessengerLedger

/-! ### The life of an instance -/

/-- The callbacks of an instance, which of its drivers have the extension, the calls on it, and those that layers make
while it is destroyed. -/
structure MessengerLife where
  callbacks : Option VkAllocationCallbacks
  supported : List Bool
  calls : List MessengerCall
  late : List MessengerCall := []

namespace MessengerLife

variable (l : MessengerLife)

/-- The instance before any call. -/
def start : MessengerLedger := ⟨freshMessengerInstance l.callbacks l.supported, fun _ => none, []⟩

/-- The instance before it is destroyed. -/
def called : MessengerLedger := Lib.run MessengerLedger.step l.start l.calls

/-- The instance after `vkDestroyInstance`, which is given the callbacks that its creation was given. -/
def final : MessengerLedger := l.called.vkDestroyInstance l.callbacks l.late

/-- What the application and the layers owe. -/
structure Valid : Prop where
  callbacks : ∀ c ∈ l.callbacks, c.AllOrNone
  pAllocator : ∀ call ∈ l.calls ++ l.late, ∀ c ∈ call.pAllocator, c.AllOrNone
  calls : Lib.AllSteps MessengerLedger.step MessengerLedger.Matching l.start l.calls
  late : Lib.AllSteps MessengerLedger.step MessengerLedger.Matching (l.called.removeCallbacks l.callbacks) l.late

end MessengerLife

/-- A create call that goes as far as to obtain a block is given no callbacks, or callbacks by which a block is
allocated as by those of the instance. -/
def InstanceAllocator (callbacks : Option VkAllocationCallbacks) : MessengerCall → Prop
  | .create pAllocator a =>
    a.nextIndexAllocated = true → pAllocator = none ∨ allocatedBy pAllocator = allocatedBy callbacks
  | .destroy _ _ => True

end VulkanLoader
