import VulkanLoader.Base
import VulkanLoader.Lib.Chains
import VulkanLoader.Lib.Runs

/-!
# Debug callbacks over the life of an instance (`trampoline.c`, `debug_utils.c`)

A callback is a node of a linked list, and messages go to the list at `current_dbg_function_head`.  The create infos in
the `pNext` chain of `vkCreateInstance` make callbacks for the creation and the destruction of the instance alone; their
list starts at `instance_only_dbg_function_head`.  It is the end of the active list while these two calls run, is cut
off at the end of the first and put back in the second.

The nodes are objects of a heap, and `none` is undefined behaviour or a walk that does not end.  A build with `VULKANSC`
leaves out the functions for debug reports, so its lives are those without one.
-/

namespace VulkanLoader

open Lib (Heap)

/-- `VkDebugUtilsMessengerCreateInfoEXT` and `VkDebugReportCallbackCreateInfoEXT`, and what a node keeps of them. -/
inductive DebugCreateInfo where
  | messenger (pfnUserCallback messageSeverity messageType pUserData : ℕ)
  | report (pfnCallback flags pUserData : ℕ)
  deriving DecidableEq

/-- `is_messenger`. -/
def DebugCreateInfo.isMessenger : DebugCreateInfo → Bool
  | messenger .. => true
  | report .. => false

/-- `VkLayerDbgFunctionNode`. -/
structure DbgFunctionNode where
  info : DebugCreateInfo
  handle : Handle
  pNext : ℕ
  deriving DecidableEq

/-- A node at its address. -/
abbrev DbgEntry := ℕ × DbgFunctionNode

/-- A structure of a `pNext` chain: its address, and what it holds if it makes a callback. -/
structure CreateInfoStruct where
  address : ℕ
  info : Option DebugCreateInfo

/-- The part of `struct loader_instance` that concerns callbacks, and the heaps of the nodes and of the blocks whose
addresses are the handles.  `live` are the callbacks that calls made and did not destroy, the newest first, and
`allocated` logs the addresses that nodes were given. -/
structure DebugInstance where
  nodes : Heap DbgFunctionNode
  currentDbgFunctionHead : ℕ
  instanceOnlyDbgFunctionHead : ℕ
  indexBlocks : Heap ℕ
  live : List (Handle × DebugCreateInfo)
  allocated : List ℕ

namespace DebugInstance

/-- The instance as it is allocated. -/
def calloc : DebugInstance := ⟨.empty, 0, 0, .empty, [], []⟩

/-- A new node. -/
def makeNode (s : DebugInstance) (info : DebugCreateInfo) (handle : Handle) (pNext wish : ℕ) : DebugInstance :=
  { s with
    nodes := s.nodes.alloc wish ⟨info, handle, pNext⟩
    allocated := s.allocated ++ [s.nodes.place wish] }

/-! ### The callbacks of the instance alone -/

/-- `util_CreateDebugUtilsMessenger` and `util_CreateDebugReportCallback`; `request` is where the allocator would put
the node. -/
def utilCreateDebugCallback (s : DebugInstance) (info : DebugCreateInfo) (handle : Handle) (request : Option ℕ) :
    VkResult × DebugInstance :=
  match request with
  | none => (.errorOutOfHostMemory, s)
  | some wish =>
    let node := s.nodes.place wish
    (.success, { s.makeNode info handle s.instanceOnlyDbgFunctionHead wish with
      instanceOnlyDbgFunctionHead := node
      currentDbgFunctionHead := node })

/-- The walk through the `pNext` chain for the create infos of one kind.  The handle of a callback is the address of
its create info, and `memory` tells what its request for a node meets. -/
def utilCreateDebugCallbacks (kind : DebugCreateInfo → Bool) (memory : ℕ → Option ℕ) :
    List CreateInfoStruct → DebugInstance → VkResult × DebugInstance
  | [], s => (.success, s)
  | c :: pChain, s =>
    match c.info.filter kind with
    | none => utilCreateDebugCallbacks kind memory pChain s
    | some info =>
      match s.utilCreateDebugCallback info c.address (memory c.address) with
      | (.success, s) => utilCreateDebugCallbacks kind memory pChain s
      | (ret, s) => (ret, s)

/-- `util_CreateDebugUtilsMessengers`. -/
def utilCreateDebugUtilsMessengers := utilCreateDebugCallbacks fun info => info.isMessenger

/-- `util_CreateDebugReportCallbacks`. -/
def utilCreateDebugReportCallbacks := utilCreateDebugCallbacks fun info => !info.isMessenger

/-- The loop of `loader_add_instance_only_debug_funcs`. -/
def addInstanceOnly (instanceOnlyHead : ℕ) : ℕ → ℕ → Heap DbgFunctionNode → Option (Heap DbgFunctionNode)
  | 0, _, _ => none
  | fuel + 1, curNode, h =>
    if curNode = 0 then some h
    else if curNode = instanceOnlyHead then some h
    else
      (h.get curNode).bind fun node =>
        if node.pNext = 0 then
          (h.put curNode { node with pNext := instanceOnlyHead }).bind fun h =>
            addInstanceOnly instanceOnlyHead fuel instanceOnlyHead h
        else addInstanceOnly instanceOnlyHead fuel node.pNext h

/-- `loader_add_instance_only_debug_funcs`. -/
def loaderAddInstanceOnlyDebugFuncs (s : DebugInstance) : Option DebugInstance :=
  if s.currentDbgFunctionHead = 0 then
    some { s with currentDbgFunctionHead := s.instanceOnlyDbgFunctionHead }
  else
    (addInstanceOnly s.instanceOnlyDbgFunctionHead (s.nodes.bound + 1) s.currentDbgFunctionHead s.nodes).map fun h =>
      { s with nodes := h }

/-- The loop of `loader_remove_instance_only_debug_funcs`. -/
def removeInstanceOnly (instanceOnlyHead : ℕ) : ℕ → ℕ → Heap DbgFunctionNode → Option (Heap DbgFunctionNode)
  | 0, _, _ => none
  | fuel + 1, curNode, h =>
    if curNode = 0 then some h
    else
      (h.get curNode).bind fun node =>
        if node.pNext = instanceOnlyHead then h.put curNode { node with pNext := 0 }
        else removeInstanceOnly instanceOnlyHead fuel node.pNext h

/-- `loader_remove_instance_only_debug_funcs`. -/
def loaderRemoveInstanceOnlyDebugFuncs (s : DebugInstance) : Option DebugInstance :=
  (removeInstanceOnly s.instanceOnlyDbgFunctionHead s.nodes.bound s.currentDbgFunctionHead s.nodes).map fun h =>
    { s with
      nodes := h
      currentDbgFunctionHead :=
        if s.currentDbgFunctionHead = s.instanceOnlyDbgFunctionHead then 0 else s.currentDbgFunctionHead }

/-- The loop of `destroy_debug_callbacks_chain`. -/
def freeChain : ℕ → ℕ → Heap DbgFunctionNode → Option (Heap DbgFunctionNode)
  | 0, _, _ => none
  | fuel + 1, pTrav, h =>
    if pTrav = 0 then some h
    else (h.get pTrav).bind fun node => (h.free pTrav).bind fun h => freeChain fuel node.pNext h

/-- `destroy_debug_callbacks_chain`. -/
def destroyDebugCallbacksChain (s : DebugInstance) : Option DebugInstance :=
  (freeChain s.nodes.bound s.currentDbgFunctionHead s.nodes).map fun h =>
    { s with nodes := h, currentDbgFunctionHead := 0 }

/-! ### The callbacks that calls make -/

/-- What a call that makes a callback meets: where the allocator would put the block for the index, the index and the
result of the search for it and of the drivers, and where the allocator would put the node. -/
structure CreateAnswers where
  nextIndexBlock : Option ℕ
  nextIndex : ℕ
  res : VkResult
  dbgFunctionNode : Option ℕ

/-- `terminator_CreateDebugUtilsMessengerEXT` and `terminator_CreateDebugReportCallbackEXT`, of which the tables of the
drivers are left out; the address of the block for the index becomes the handle. -/
def terminatorCreateDebugCallback (s : DebugInstance) (info : DebugCreateInfo) (a : CreateAnswers) :
    Option (Except VkResult Handle × DebugInstance) :=
  match a.nextIndexBlock with
  | none => some (.error .errorOutOfHostMemory, s)
  | some wish =>
    let pNextIndex := s.indexBlocks.place wish
    let s := { s with indexBlocks := s.indexBlocks.alloc wish a.nextIndex }
    match a.res, a.dbgFunctionNode with
    | .success, some wish => some (.ok pNextIndex,
        { s.makeNode info pNextIndex s.currentDbgFunctionHead wish with
          currentDbgFunctionHead := s.nodes.place wish
          live := (pNextIndex, info) :: s.live })
    | res, _ =>
      let res := if res ≠ .success then res else .errorOutOfHostMemory
      (s.indexBlocks.free pNextIndex).map fun blocks => (.error res, { s with indexBlocks := blocks })

/-- `terminator_CreateDebugUtilsMessengerEXT`. -/
def terminatorCreateDebugUtilsMessengerEXT (s : DebugInstance)
    (pfnUserCallback messageSeverity messageType pUserData : ℕ) :=
  s.terminatorCreateDebugCallback (.messenger pfnUserCallback messageSeverity messageType pUserData)

/-- `terminator_CreateDebugReportCallbackEXT`. -/
def terminatorCreateDebugReportCallbackEXT (s : DebugInstance) (pfnCallback flags pUserData : ℕ) :=
  s.terminatorCreateDebugCallback (.report pfnCallback flags pUserData)

/-- How `util_DestroyDebugUtilsMessenger` moves the heads off a node. -/
def moveHeadsMessenger (s : DebugInstance) (pTrav pNext : ℕ) : DebugInstance :=
  let s := if s.currentDbgFunctionHead = pTrav then { s with currentDbgFunctionHead := pNext } else s
  if s.instanceOnlyDbgFunctionHead = pTrav then { s with instanceOnlyDbgFunctionHead := pNext } else s

/-- How `util_DestroyDebugReportCallback` moves the heads off a node: it looks at the active list twice. -/
def moveHeadsReport (s : DebugInstance) (pTrav pNext : ℕ) : DebugInstance :=
  let s := if s.currentDbgFunctionHead = pTrav then { s with currentDbgFunctionHead := pNext } else s
  let s := if s.instanceOnlyDbgFunctionHead = pTrav then { s with instanceOnlyDbgFunctionHead := pNext } else s
  if s.currentDbgFunctionHead = pTrav then { s with currentDbgFunctionHead := pNext } else s

/-- **The second look changes nothing.** -/
theorem moveHeadsReport_eq : moveHeadsReport = moveHeadsMessenger := by
  funext s pTrav pNext
  unfold moveHeadsReport moveHeadsMessenger
  by_cases hcur : s.currentDbgFunctionHead = pTrav <;> by_cases honly : s.instanceOnlyDbgFunctionHead = pTrav <;>
    simp [hcur, honly]

/-- A node is taken out of the list and freed. -/
def unlinkNode (moveHeads : DebugInstance → ℕ → ℕ → DebugInstance) (s : DebugInstance) (pPrev pTrav : ℕ)
    (node : DbgFunctionNode) : Option DebugInstance :=
  (s.nodes.get pPrev).bind fun prev =>
    (s.nodes.put pPrev { prev with pNext := node.pNext }).bind fun h =>
      (h.free pTrav).map fun h => { moveHeads s pTrav node.pNext with nodes := h }

/-- The walk for the node of a callback. -/
def destroyNode (moveHeads : DebugInstance → ℕ → ℕ → DebugInstance) (isIt : DbgFunctionNode → Bool)
    (s : DebugInstance) : ℕ → ℕ → ℕ → Option DebugInstance
  | 0, _, _ => none
  | fuel + 1, pPrev, pTrav =>
    if pTrav = 0 then some s
    else
      (s.nodes.get pTrav).bind fun node =>
        if isIt node then s.unlinkNode moveHeads pPrev pTrav node
        else destroyNode moveHeads isIt s fuel pTrav node.pNext

/-- `util_DestroyDebugUtilsMessenger`. -/
def utilDestroyDebugUtilsMessenger (s : DebugInstance) (messenger : Handle) : Option DebugInstance :=
  s.destroyNode moveHeadsMessenger (fun node => node.info.isMessenger && node.handle = messenger) s.nodes.bound
    s.currentDbgFunctionHead s.currentDbgFunctionHead

/-- `util_DestroyDebugReportCallback`. -/
def utilDestroyDebugReportCallback (s : DebugInstance) (callback : Handle) : Option DebugInstance :=
  s.destroyNode moveHeadsReport (fun node => !node.info.isMessenger && node.handle = callback) s.nodes.bound
    s.currentDbgFunctionHead s.currentDbgFunctionHead

/-- `terminator_DestroyDebugUtilsMessengerEXT` and `terminator_DestroyDebugReportCallbackEXT`: the block is read, and
freed at the end. -/
def terminatorDestroyDebugCallback (utilDestroy : DebugInstance → Handle → Option DebugInstance) (s : DebugInstance)
    (handle : Handle) : Option DebugInstance :=
  if handle = nullHandle then some s
  else
    (s.indexBlocks.get handle).bind fun _ =>
      (utilDestroy s handle).bind fun s =>
        (s.indexBlocks.free handle).map fun blocks =>
          { s with indexBlocks := blocks, live := s.live.filter fun c => c.1 ≠ handle }

/-- `terminator_DestroyDebugUtilsMessengerEXT`. -/
def terminatorDestroyDebugUtilsMessengerEXT := terminatorDestroyDebugCallback utilDestroyDebugUtilsMessenger

/-- `terminator_DestroyDebugReportCallbackEXT`. -/
def terminatorDestroyDebugReportCallbackEXT := terminatorDestroyDebugCallback utilDestroyDebugReportCallback

end DebugInstance

/-- The calls that make and destroy callbacks. -/
inductive DebugCall where
  | createDebugUtilsMessenger (pfnUserCallback messageSeverity messageType pUserData : ℕ)
      (a : DebugInstance.CreateAnswers)
  | createDebugReportCallback (pfnCallback flags pUserData : ℕ) (a : DebugInstance.CreateAnswers)
  | destroyDebugUtilsMessenger (messenger : Handle)
  | destroyDebugReportCallback (callback : Handle)

/-- A call. -/
def DebugInstance.exec (s : DebugInstance) : DebugCall → Option DebugInstance
  | .createDebugUtilsMessenger pfnUserCallback messageSeverity messageType pUserData a =>
    (s.terminatorCreateDebugUtilsMessengerEXT pfnUserCallback messageSeverity messageType pUserData a).map Prod.snd
  | .createDebugReportCallback pfnCallback flags pUserData a =>
    (s.terminatorCreateDebugReportCallbackEXT pfnCallback flags pUserData a).map Prod.snd
  | .destroyDebugUtilsMessenger messenger => s.terminatorDestroyDebugUtilsMessengerEXT messenger
  | .destroyDebugReportCallback callback => s.terminatorDestroyDebugReportCallbackEXT callback

/-- A call, if the behaviour is still defined. -/
def debugStep (s : Option DebugInstance) (c : DebugCall) : Option DebugInstance := s.bind (·.exec c)

/-- Only live callbacks of their kind are destroyed, or null. -/
def DestroysLive : Option DebugInstance → DebugCall → Prop
  | some s, .destroyDebugUtilsMessenger messenger =>
    messenger = nullHandle ∨ (s.live.any fun c => c.1 = messenger && c.2.isMessenger) = true
  | some s, .destroyDebugReportCallback callback =>
    callback = nullHandle ∨ (s.live.any fun c => c.1 = callback && !c.2.isMessenger) = true
  | _, _ => True

/-! ### The life of an instance -/

/-- What happens to an instance: the `pNext` chain and the memory for its callbacks; the calls that layers make while
`vkCreateInstance` runs, and what it returns if it gets past the chain; and the calls until `vkDestroyInstance`. -/
structure InstanceLife where
  pNext : List CreateInfoStruct
  memory : ℕ → Option ℕ
  layerCalls : List DebugCall
  res : VkResult
  calls : List DebugCall

namespace InstanceLife

open DebugInstance

variable (l : InstanceLife)

/-- `vkCreateInstance`, from where it has allocated the instance, until the chain has been walked. -/
def setUp : VkResult × DebugInstance :=
  match utilCreateDebugUtilsMessengers l.memory l.pNext .calloc with
  | (.errorOutOfHostMemory, s) => (.errorOutOfHostMemory, s)
  | (_, s) => utilCreateDebugReportCallbacks l.memory l.pNext s

/-- `vkCreateInstance` until `out:`. -/
def upToOut : Option (VkResult × DebugInstance) :=
  match l.setUp with
  | (.errorOutOfHostMemory, s) => some (.errorOutOfHostMemory, s)
  | (_, s) => (Lib.run debugStep (some s) l.layerCalls).map fun s => (l.res, s)

/-- `vkCreateInstance`. -/
def vkCreateInstance : Option (VkResult × DebugInstance) :=
  l.upToOut.bind fun r =>
    (if r.1 ≠ .success then r.2.destroyDebugCallbacksChain else r.2.loaderRemoveInstanceOnlyDebugFuncs).map
      fun s => (r.1, s)

/-- The instance after a successful `vkCreateInstance`. -/
def created : Option DebugInstance :=
  match l.vkCreateInstance with
  | some (.success, s) => some s
  | _ => none

/-- The instance before `vkDestroyInstance`. -/
def lived : Option DebugInstance := Lib.run debugStep l.created l.calls

end InstanceLife

/-- `vkDestroyInstance` until it calls down. -/
def DebugInstance.beforeDestroyDown (s : DebugInstance) : Option DebugInstance :=
  s.destroyDebugCallbacksChain.bind loaderAddInstanceOnlyDebugFuncs

/-- `vkDestroyInstance`. -/
def DebugInstance.vkDestroyInstance (s : DebugInstance) : Option DebugInstance :=
  s.beforeDestroyDown.bind destroyDebugCallbacksChain

end VulkanLoader
