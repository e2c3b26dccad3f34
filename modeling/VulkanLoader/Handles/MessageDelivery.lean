import VulkanLoader.Handles.DebugCallbacksSafety
import VulkanLoader.Handles.DebugMessages

/-!
# Who receives a debug message (`util_SubmitDebugUtilsMessageEXT`, `util_DebugReportMessage`)

A message goes through the active list, and each callback that accepts it is called.
-/

namespace VulkanLoader

open Lib (Heap run AllSteps)
open Lib.Heap (Chain)

namespace DebugInstance

/-- The loop over the active list: what it returns, and the calls that it makes; `returns` is what the user's functions
return, call after call. -/
def submitLoop (message : DebugMessage) (returns : ℕ → Bool) (h : Heap DbgFunctionNode) :
    ℕ → ℕ → Bool × List CallbackCall → Option (Bool × List CallbackCall)
  | 0, _, _ => none
  | fuel + 1, pTrav, (bail, calls) =>
    if pTrav = 0 then some (bail, calls)
    else
      (h.get pTrav).bind fun node =>
        match message.call node.info with
        | some c => submitLoop message returns h fuel node.pNext (bail || returns calls.length, calls ++ [c])
        | none => submitLoop message returns h fuel node.pNext (bail, calls)

/-- `util_SubmitDebugUtilsMessageEXT`, with a message; and `util_DebugReportMessage`. -/
def submit (message : DebugMessage) (returns : ℕ → Bool) (s : DebugInstance) : Option (Bool × List CallbackCall) :=
  submitLoop message returns s.nodes s.nodes.bound s.currentDbgFunctionHead (false, [])

/-- `util_SubmitDebugUtilsMessageEXT`. -/
def utilSubmitDebugUtilsMessageEXT (vulkanSC : Bool) (messageSeverity messageTypes : ℕ) (pCallbackData : Handle)
    (returns : ℕ → Bool) (s : DebugInstance) : Option (Bool × List CallbackCall) :=
  if pCallbackData ≠ nullHandle then s.submit (.annot vulkanSC messageSeverity messageTypes) returns
  else some (false, [])

/-- `util_DebugReportMessage`. -/
def utilDebugReportMessage (msgFlags : ℕ) (returns : ℕ → Bool) (s : DebugInstance) : Option (Bool × List CallbackCall) :=
  s.submit (.report msgFlags) returns

section Loop

variable {message : DebugMessage} {returns : ℕ → Bool} {h : Heap DbgFunctionNode}

/-- **The loop** calls the callbacks that accept the message, in the order of the list. -/
theorem submitLoop_of_chain {ws : List DbgEntry} {p fuel : ℕ} (hs : Chain DbgFunctionNode.pNext h p ws)
    (hfuel : ws.length < fuel) (bail : Bool) (calls : List CallbackCall) :
    submitLoop message returns h fuel p (bail, calls) =
      some (bail || (List.range' calls.length (ws.filterMap fun w => message.call w.2.info).length).any returns,
        calls ++ ws.filterMap fun w => message.call w.2.info) := by
  induction ws generalizing p fuel bail calls with
  | nil =>
    obtain rfl : p = 0 := hs
    obtain ⟨fuel, rfl⟩ := Nat.exists_eq_add_one_of_ne_zero (Nat.ne_zero_of_lt hfuel)
    rw [submitLoop, if_pos rfl, List.filterMap_nil, List.append_nil]
    simp
  | cons w ws ih =>
    obtain ⟨fuel, rfl⟩ := Nat.exists_eq_add_one_of_ne_zero (Nat.ne_zero_of_lt hfuel)
    obtain ⟨rfl, hw, hrest⟩ := hs
    have hfuel' : ws.length < fuel := by simpa using hfuel
    rw [submitLoop, if_neg (Lib.Heap.ne_null_of_get hw), hw, Option.bind_some]
    rcases hcall : message.call w.2.info with _ | c
    · rw [List.filterMap_cons_none (f := fun w : DbgEntry => message.call w.2.info) hcall]
      exact ih hrest hfuel' bail calls
    · rw [List.filterMap_cons_some (f := fun w : DbgEntry => message.call w.2.info) hcall]
      dsimp only
      rw [ih hrest hfuel', List.length_append, List.length_singleton, List.length_cons, List.range'_succ,
        List.any_cons, Bool.or_assoc, List.append_assoc, List.singleton_append]

/-- The callbacks of the active list are called. -/
theorem submit_of_lists {s : DebugInstance} {active instanceOnly : List DbgEntry} (hs : s.Lists active instanceOnly) :
    s.submit message returns = some (message.answer returns (callbacksOf active)) := by
  unfold submit DebugMessage.answer callbacksOf
  rw [submitLoop_of_chain hs.active hs.active.length_lt, Bool.false_or, List.length_nil, List.nil_append,
    List.filterMap_map]
  dsimp only
  rw [List.range_eq_range']
  rfl

/-- Two messages that every callback takes alike are answered alike. -/
theorem submitLoop_congr {message' : DebugMessage} (hcall : message.call = message'.call) (fuel p : ℕ)
    (acc : Bool × List CallbackCall) : submitLoop message returns h fuel p acc = submitLoop message' returns h fuel p acc := by
  induction fuel generalizing p acc with
  | zero => rfl
  | succ fuel ih => simp only [submitLoop, hcall, ih]

/-- **A report with one flag** is delivered as the message that it is translated to. -/
theorem utilDebugReportMessage_of_flag {drFlags severity types : ℕ} {pCallbackData : Handle}
    (hflag : drFlags ∈ [reportInformationBit, reportWarningBit, reportPerformanceWarningBit, reportErrorBit, reportDebugBit])
    (htranslate : debugUtilsReportFlagsToAnnotFlags drFlags false = (severity, types)) (hdata : pCallbackData ≠ nullHandle)
    (s : DebugInstance) :
    s.utilDebugReportMessage drFlags returns =
      s.utilSubmitDebugUtilsMessageEXT false severity types pCallbackData returns := by
  have hback : debugUtilsAnnotFlagsToReportFlags severity types = drFlags := by
    have := annotFlags_of_reportFlags false hflag
    rwa [htranslate] at this
  have hcall : (DebugMessage.report drFlags).call = (DebugMessage.annot false severity types).call := by
    funext callback
    cases callback with
    | messenger =>
      simp only [DebugMessage.call, DebugMessage.annotFlags, htranslate]
      rfl
    | report => simp only [DebugMessage.call, DebugMessage.reportFlags, DebugMessage.hasReports, hback, Bool.not_false]
  rw [utilDebugReportMessage, utilSubmitDebugUtilsMessageEXT, if_pos hdata]
  exact submitLoop_congr hcall _ _ _

end Loop

end DebugInstance

/-- `submit` calls the callbacks that receive the message, each once and in the order of the list. -/
structure DebugInstance.Delivers (s : DebugInstance) (message : DebugMessage) (returns : ℕ → Bool)
    (callbacks : List (Handle × DebugCreateInfo)) : Prop where
  submit : s.submit message returns = some (message.answer returns callbacks)
  answered : message.Answered returns callbacks (message.answer returns callbacks)

theorem DebugInstance.delivers_of_lists (message : DebugMessage) (returns : ℕ → Bool) {s : DebugInstance}
    {active instanceOnly : List DbgEntry} (hs : s.Lists active instanceOnly) :
    s.Delivers message returns (callbacksOf active) where
  submit := submit_of_lists hs
  answered := message.answered_answer returns _

/-- **Who receives a message** over the life of an instance. -/
structure InstanceLife.DeliversMessage (l : InstanceLife) (message : DebugMessage) (returns : ℕ → Bool) : Prop where
  /-- While `vkCreateInstance` runs: the callbacks that calls made, the newest first, then those of the instance alone. -/
  creating : ∀ calls, calls <+: l.layerCalls → ∃ r, { l with layerCalls := calls }.upToOut = some r ∧
    r.2.Delivers message returns (r.2.live ++ l.instanceOnlyCallbacks)
  /-- After it: the callbacks that calls made and did not destroy. -/
  between : ∀ s₀ calls, l.created = some s₀ → calls <+: l.calls → ∃ s, run debugStep (some s₀) calls = some s ∧
    s.Delivers message returns s.live
  /-- While `vkDestroyInstance` calls down: those of the instance alone. -/
  destroying : ∀ s, l.lived = some s → ∃ s', s.beforeDestroyDown = some s' ∧
    s'.Delivers message returns l.instanceOnlyCallbacks

namespace InstanceLife

/-- **Each message is delivered once**, at every moment of every life, to each active callback that accepts it and to no
other, the newest first; it is answered with true if one of them does. -/
theorem deliversMessage (l : InstanceLife) (hl : l.DestroysOnlyLive) (message : DebugMessage) (returns : ℕ → Bool) :
    l.DeliversMessage message returns where
  creating calls hcalls := by
    have hl' : { l with layerCalls := calls }.setUp.1 = .success →
        AllSteps debugStep DestroysLive (some l.setUp.2) calls := fun h => (hl.1 h).before debugStep hcalls
    obtain ⟨r, ofCalls, instanceOnly, hr, hs, honly⟩ := upToOut_inv hl'
    have hdelivers := DebugInstance.delivers_of_lists message returns hs.lists
    rw [DebugInstance.callbacksOf_append, hs.live, honly] at hdelivers
    exact ⟨r, hr, hdelivers⟩
  between s₀ calls hs₀ hcalls := by
    obtain ⟨s, ofCalls, instanceOnly, hrun, hs, -⟩ := run_created_inv hl hs₀ hcalls
    have hdelivers := DebugInstance.delivers_of_lists message returns hs.lists
    rw [List.append_nil, hs.live] at hdelivers
    exact ⟨s, hrun, hdelivers⟩
  destroying s hs := by
    obtain ⟨s₀, hs₀⟩ := exists_created hs
    obtain ⟨t, ofCalls, instanceOnly, hrun, ht, honly⟩ := run_created_inv hl hs₀ (List.prefix_refl _)
    obtain rfl := Option.some.inj (hs.symm.trans ((lived_eq hs₀).trans hrun))
    obtain ⟨s', -, hbefore, hlists, -⟩ := vkDestroyInstance_nodes ht.toNodes
    exact ⟨s', hbefore, honly ▸ DebugInstance.delivers_of_lists message returns hlists⟩

/-- A messenger in the chain, one that a layer makes, and a report callback and a messenger of the application. -/
def messengersAndReport : InstanceLife where
  pNext := [⟨100, some (.messenger 1 severityErrorBit typeGeneralBit 1)⟩]
  memory address := some address
  layerCalls := [.createDebugUtilsMessenger 3 severityErrorBit typeValidationBit 3 ⟨some 10, 0, .success, some 11⟩]
  res := .success
  calls := [.createDebugReportCallback 5 reportErrorBit 5 ⟨some 30, 0, .success, some 31⟩,
    .createDebugUtilsMessenger 4 severityErrorBit typeGeneralBit 4 ⟨some 20, 1, .success, some 21⟩]

/-- An error of the general type goes to the callbacks of the application that take it. -/
theorem deliversMessage_error : messengersAndReport.DestroysOnlyLive ∧
    messengersAndReport.DeliversMessage (.annot false severityErrorBit typeGeneralBit) (fun _ => false) := by
  have h : messengersAndReport.DestroysOnlyLive := by decide
  exact ⟨h, deliversMessage messengersAndReport h _ _⟩

end InstanceLife

end VulkanLoader
