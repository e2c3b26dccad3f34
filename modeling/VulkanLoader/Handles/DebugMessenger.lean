import VulkanLoader.Handles.HandleTable
import VulkanLoader.Lib.Runs

/-!
# Debug messengers (`debug_utils.c`)

A messenger of the loader is a block that holds an index; at that index the table of each driver has the driver's own
messenger.  `terminator_CreateDebugUtilsMessengerEXT` and `terminator_DestroyDebugUtilsMessengerEXT` are steps on the
instance; what the allocator and the drivers do in a step is part of its input.

Two facts about each driver are kept beside its table: the log of the messengers it made and was given back, and
whether every access of its table was within the capacity.
-/

namespace VulkanLoader

open Lib (HandleEvent)

/-- The part of `struct loader_icd_term` that concerns messengers. -/
structure MessengerIcd where
  createDebugUtilsMessenger : Bool
  destroyDebugUtilsMessenger : Bool
  /-- A driver has the commands of an extension together or not at all. -/
  paired : createDebugUtilsMessenger = destroyDebugUtilsMessenger
  debugUtilsMessengerList : Option (List Handle) := none
  log : List (HandleEvent Handle) := []
  inBounds : Bool := true
  deriving DecidableEq

/-- What a create call meets at one driver: the request for its table, made if it has to grow, and its answer. -/
structure MessengerAnswer where
  listRequest : Request Handle
  driver : DriverHandle

/-- What a create call meets. -/
structure MessengerAnswers where
  nextIndexAllocated : Bool
  usedListRequest : Request UsedObjectStatus
  icd : ℕ → MessengerAnswer
  dbgFunctionNodeAllocated : Bool

/-- The part of `struct loader_instance` that concerns messengers.  `messengers` are the live ones: the block of each
and the index in it. -/
structure MessengerInstance where
  allocCallbacks : Option VkAllocationCallbacks
  debugUtilsMessengersList : UsedObjectList := none
  icdTerms : List MessengerIcd
  dbgFunctions : List Handle := []
  messengers : List (Handle × ℕ) := []
  nextBlock : Handle := 1

/-- One iteration of the loop over the drivers. -/
def createMessengerOnIcd (callbacks : Option VkAllocationCallbacks) (nextIndex : ℕ) (a : MessengerAnswer)
    (icd : MessengerIcd) : VkResult × MessengerIcd :=
  match growHandleTable callbacks nextIndex icd.debugUtilsMessengerList a.listRequest with
  | none => (.errorOutOfHostMemory, icd)
  | some l =>
    if icd.createDebugUtilsMessenger then
      let inBounds := icd.inBounds && decide (nextIndex < l.length)
      match a.driver with
      | .created m _ => (.success, { icd with
          debugUtilsMessengerList := some (writeEntry l nextIndex (some m)), log := icd.log ++ [.made m]
          inBounds := inBounds })
      | .failed res _ left => (res, { icd with
          debugUtilsMessengerList := some (writeEntry l nextIndex left), inBounds := inBounds })
    else (.success, { icd with debugUtilsMessengerList := some l })

/-- The loop over the drivers, up to the first error. -/
def createMessengerOnIcds (callbacks : Option VkAllocationCallbacks) (nextIndex : ℕ) :
    (ℕ → MessengerAnswer) → List MessengerIcd → VkResult × List MessengerIcd
  | _, [] => (.success, [])
  | a, icd :: icds =>
    match createMessengerOnIcd callbacks nextIndex (a 0) icd with
    | (.success, icd) =>
      ((createMessengerOnIcds callbacks nextIndex (fun i => a (i + 1)) icds).1,
        icd :: (createMessengerOnIcds callbacks nextIndex (fun i => a (i + 1)) icds).2)
    | (res, icd) => (res, icd :: icds)

/-- The body of the loops that destroy: at `out:`, and in `terminator_DestroyDebugUtilsMessengerEXT`. -/
def destroyMessengerOnIcd (index : ℕ) (icd : MessengerIcd) : MessengerIcd :=
  match icd.debugUtilsMessengerList with
  | none => icd
  | some l =>
    let m := l.getD index nullHandle
    { icd with
      inBounds := icd.inBounds && decide (index < l.length)
      log := if m ≠ nullHandle ∧ icd.destroyDebugUtilsMessenger then icd.log ++ [.givenBack m] else icd.log }

/-- The roll-back at `out:`, made once the block for the index exists. -/
def rollBackMessenger (s : MessengerInstance) (nextIndex : ℕ) (indexReserved : Bool)
    (pAllocator : Option VkAllocationCallbacks) : MessengerInstance :=
  { s with
    icdTerms := s.icdTerms.map (destroyMessengerOnIcd nextIndex)
    debugUtilsMessengersList :=
      if indexReserved then clearObjectStatus s.debugUtilsMessengersList nextIndex pAllocator
      else s.debugUtilsMessengersList }

/-- `terminator_CreateDebugUtilsMessengerEXT`. -/
def terminatorCreateDebugUtilsMessengerEXT (s : MessengerInstance) (pAllocator : Option VkAllocationCallbacks)
    (a : MessengerAnswers) : VkResult × MessengerInstance :=
  if !a.nextIndexAllocated then (.errorOutOfHostMemory, s)
  else
    match loaderGetNextAvailableEntry s.allocCallbacks s.debugUtilsMessengersList pAllocator a.usedListRequest with
    | (res, list, none) =>
      -- `next_index` is still 0
      (res, rollBackMessenger { s with debugUtilsMessengersList := list } 0 false pAllocator)
    | (_, list, some nextIndex) =>
      let s' := { s with
        debugUtilsMessengersList := list
        icdTerms := (createMessengerOnIcds s.allocCallbacks nextIndex a.icd s.icdTerms).2 }
      let res := (createMessengerOnIcds s.allocCallbacks nextIndex a.icd s.icdTerms).1
      if res ≠ .success then (res, rollBackMessenger s' nextIndex true pAllocator)
      else if !a.dbgFunctionNodeAllocated then
        (.errorOutOfHostMemory, rollBackMessenger s' nextIndex true pAllocator)
      else (.success, { s' with
        dbgFunctions := s.nextBlock :: s.dbgFunctions
        messengers := (s.nextBlock, nextIndex) :: s.messengers, nextBlock := s.nextBlock + 1 })

/-- `terminator_DestroyDebugUtilsMessengerEXT`; nothing is known of a handle that is not live. -/
def terminatorDestroyDebugUtilsMessengerEXT (s : MessengerInstance) (messenger : Handle)
    (pAllocator : Option VkAllocationCallbacks) : MessengerInstance :=
  match s.messengers.find? fun b => b.1 = messenger with
  | none => s
  | some (_, index) => { s with
      icdTerms := s.icdTerms.map (destroyMessengerOnIcd index)
      dbgFunctions := s.dbgFunctions.erase messenger
      debugUtilsMessengersList := clearObjectStatus s.debugUtilsMessengersList index pAllocator
      messengers := s.messengers.filter fun b => b.1 ≠ messenger }

/-- The calls an application makes. -/
inductive MessengerCall where
  | create (pAllocator : Option VkAllocationCallbacks) (answers : MessengerAnswers)
  | destroy (messenger : Handle) (pAllocator : Option VkAllocationCallbacks)

def messengerStep (s : MessengerInstance) : MessengerCall → MessengerInstance
  | .create pAllocator answers => (terminatorCreateDebugUtilsMessengerEXT s pAllocator answers).2
  | .destroy messenger pAllocator => terminatorDestroyDebugUtilsMessengerEXT s messenger pAllocator

/-- Only live messengers are destroyed. -/
def Callable (s : MessengerInstance) : MessengerCall → Prop
  | .create _ _ => True
  | .destroy messenger _ => messenger ∈ s.messengers.map Prod.fst

/-! ### What the calls should keep -/

namespace MessengerIcd

/-- The driver's messengers in its table. -/
def handles (icd : MessengerIcd) : List Handle :=
  if icd.createDebugUtilsMessenger then icd.debugUtilsMessengerList.getD [] else []

/-- The driver has the messengers it made and was not given back at the live indices, and its table was never accessed
out of bounds. -/
structure Sound (live : List ℕ) (icd : MessengerIcd) : Prop where
  balanced : Lib.Balanced live icd.handles icd.log
  inBounds : icd.inBounds

end MessengerIcd

/-- Every messenger a driver made was given back exactly once, or is at the index of a live messenger of the loader;
and no access was out of bounds. -/
def MessengersSound (s : MessengerInstance) : Prop :=
  ∀ icd ∈ s.icdTerms, icd.Sound (s.messengers.map Prod.snd)

/-- The live messengers, the drivers' messengers at their indices and the indices in use are the same. -/
structure SameMessengers (s s' : MessengerInstance) : Prop where
  messengers : s'.messengers = s.messengers
  handles : ∀ n ∈ s.messengers.map Prod.snd, s'.icdTerms.map (fun icd => icd.handles[n]?) =
    s.icdTerms.map fun icd => icd.handles[n]?
  inUse : ∀ n, InUse s'.debugUtilsMessengersList n ↔ InUse s.debugUtilsMessengersList n

/-- A create call that fails changes none of these. -/
def FailureKeepsMessengers (s : MessengerInstance) : MessengerCall → Prop
  | .create pAllocator answers =>
    (terminatorCreateDebugUtilsMessengerEXT s pAllocator answers).1 ≠ .success →
      SameMessengers s (terminatorCreateDebugUtilsMessengerEXT s pAllocator answers).2
  | .destroy _ _ => True

end VulkanLoader
