import VulkanLoader.Handles.DebugCallbacks

/-!
# Which debug callbacks are active

While `vkCreateInstance` runs, the active list is the callbacks that calls made, the newest first, and behind them those
of the instance alone; between the two calls it is the first part, and while `vkDestroyInstance` calls down it is the
second.  The addresses of the two parts are distinct throughout, and the nodes in use are theirs.
-/

namespace VulkanLoader

open Lib (Heap run AllSteps run_invariant)
open Lib.Heap (Seg Chain Accounts seg_append seg_nil seg_cons)

/-- The handles of callbacks, with what they were made of. -/
def callbacksOf (ws : List DbgEntry) : List (Handle × DebugCreateInfo) := ws.map fun w => (w.2.handle, w.2.info)

/-- The create infos of one kind in a `pNext` chain, with their addresses. -/
def createInfos (kind : DebugCreateInfo → Bool) (pNext : List CreateInfoStruct) : List (Handle × DebugCreateInfo) :=
  pNext.filterMap fun c => (c.info.filter kind).map fun info => (c.address, info)

/-- The callbacks that the `pNext` chain makes, the newest first: messengers before reports, up to the first for which
there is no memory. -/
def InstanceLife.instanceOnlyCallbacks (l : InstanceLife) : List (Handle × DebugCreateInfo) :=
  ((createInfos (fun info => info.isMessenger) l.pNext ++ createInfos (fun info => !info.isMessenger) l.pNext).takeWhile
    fun c => (l.memory c.1).isSome).reverse

namespace DebugInstance

/-- The active list, and the list of the instance alone. -/
structure Lists (s : DebugInstance) (active instanceOnly : List DbgEntry) : Prop where
  active : Chain DbgFunctionNode.pNext s.nodes s.currentDbgFunctionHead active
  instanceOnly : Chain DbgFunctionNode.pNext s.nodes s.instanceOnlyDbgFunctionHead instanceOnly

/-- Every node that was allocated was freed, as often as it was allocated; freeing it once more would be undefined. -/
structure AllFreed (s : DebugInstance) : Prop where
  none : ∀ p, s.nodes.get p = none
  once : s.allocated.Perm s.nodes.freed

end DebugInstance

/-- Every destroy call of the life is for a live callback of its kind, or for null. -/
def InstanceLife.DestroysOnlyLive (l : InstanceLife) : Prop :=
  (l.setUp.1 = .success → AllSteps debugStep DestroysLive (some l.setUp.2) l.layerCalls) ∧
    AllSteps debugStep DestroysLive l.created l.calls

instance (s : Option DebugInstance) (c : DebugCall) : Decidable (DestroysLive s c) := by
  unfold DestroysLive
  split <;> infer_instance

instance (l : InstanceLife) : Decidable l.DestroysOnlyLive := by
  unfold InstanceLife.DestroysOnlyLive
  infer_instance

/-- **What is to hold over a life.** -/
structure InstanceLife.CallbacksKept (l : InstanceLife) : Prop where
  /-- While `vkCreateInstance` runs, the callbacks of the instance alone are active, behind those of calls. -/
  creating : ∀ calls, calls <+: l.layerCalls → ∃ r ofCalls instanceOnly,
    { l with layerCalls := calls }.upToOut = some r ∧ r.2.Lists (ofCalls ++ instanceOnly) instanceOnly ∧
      callbacksOf ofCalls = r.2.live ∧ callbacksOf instanceOnly = l.instanceOnlyCallbacks
  /-- Where it fails, wherever it fails, all nodes are freed. -/
  failed : ∃ r, l.vkCreateInstance = some r ∧ (r.1 ≠ .success → r.2.AllFreed)
  /-- After it, and after any of the calls, the callbacks of calls that are not destroyed are active, and no callback of
  the instance alone is. -/
  between : ∀ s₀ calls, l.created = some s₀ → calls <+: l.calls → ∃ s ofCalls instanceOnly,
    run debugStep (some s₀) calls = some s ∧ s.Lists ofCalls instanceOnly ∧
      (∀ w ∈ ofCalls, w.1 ∉ instanceOnly.map Prod.fst) ∧ callbacksOf ofCalls = s.live ∧
      callbacksOf instanceOnly = l.instanceOnlyCallbacks
  /-- While `vkDestroyInstance` calls down, the callbacks of the instance alone are active. -/
  destroying : ∀ s, l.lived = some s → ∃ s' instanceOnly, s.beforeDestroyDown = some s' ∧
    s'.Lists instanceOnly instanceOnly ∧ callbacksOf instanceOnly = l.instanceOnlyCallbacks
  /-- At its end all nodes are freed. -/
  destroyed : ∀ s₀, l.created = some s₀ → ∃ s s', l.lived = some s ∧ s.vkDestroyInstance = some s' ∧ s'.AllFreed

namespace DebugInstance

/-! ### The walks -/

section Walks

variable {h : Heap DbgFunctionNode} {p q fuel : ℕ} {us ws : List DbgEntry} {w : DbgEntry} {made : List ℕ}

/-- The walk of `loader_remove_instance_only_debug_funcs` stops at the node that leads to the searched one. -/
theorem removeInstanceOnly_of_seg (hs : Seg DbgFunctionNode.pNext h p (us ++ [w]) q) (hus : q ∉ (us ++ [w]).map Prod.fst)
    (hfuel : us.length < fuel) : removeInstanceOnly q fuel p h = h.put w.1 { w.2 with pNext := 0 } := by
  induction us generalizing p fuel with
  | nil =>
    obtain ⟨rfl, hw, hq⟩ := hs
    obtain ⟨fuel, rfl⟩ := Nat.exists_eq_add_one_of_ne_zero (Nat.ne_zero_of_lt hfuel)
    rw [removeInstanceOnly, if_neg (Lib.Heap.ne_null_of_get hw), hw, Option.bind_some]
    exact if_pos hq
  | cons v us ih =>
    obtain ⟨fuel, rfl⟩ := Nat.exists_eq_add_one_of_ne_zero (Nat.ne_zero_of_lt hfuel)
    obtain ⟨rfl, hv, hrest⟩ := hs
    have hnext : v.2.pNext ≠ q := by
      intro he
      rw [he] at hrest
      apply hus
      cases us with
      | nil => simp [hrest.1]
      | cons u us => simp [hrest.1]
    rw [removeInstanceOnly, if_neg (Lib.Heap.ne_null_of_get hv), hv, Option.bind_some, if_neg hnext]
    exact ih hrest (fun hmem => hus (List.mem_cons_of_mem _ hmem)) (by simpa using hfuel)

/-- The walk of `loader_add_instance_only_debug_funcs` stops behind the last node. -/
theorem addInstanceOnly_of_chain (hs : Chain DbgFunctionNode.pNext h p (us ++ [w])) (hus : q ∉ (us ++ [w]).map Prod.fst)
    (hfuel : us.length + 1 < fuel) : addInstanceOnly q fuel p h = h.put w.1 { w.2 with pNext := q } := by
  induction us generalizing p fuel with
  | nil =>
    obtain ⟨rfl, hw, hq⟩ := hs
    obtain ⟨fuel, rfl⟩ : ∃ n, fuel = n + 1 + 1 := ⟨fuel - 2, by simp at hfuel; omega⟩
    have hstop : ∀ h, addInstanceOnly q (fuel + 1) q h = some h := by
      intro h
      rw [addInstanceOnly, if_pos (rfl : q = q), ite_self]
    rw [addInstanceOnly, if_neg (Lib.Heap.ne_null_of_get hw), if_neg fun he => hus (by simp [he]), hw,
      Option.bind_some]
    refine (if_pos hq).trans ?_
    rw [funext hstop]
    exact Option.bind_fun_some _
  | cons v us ih =>
    obtain ⟨fuel, rfl⟩ := Nat.exists_eq_add_one_of_ne_zero (Nat.ne_zero_of_lt hfuel)
    obtain ⟨rfl, hv, hrest⟩ := hs
    have hnext : v.2.pNext ≠ 0 := by
      intro h0
      rw [h0] at hrest
      exact hrest.start_ne_null (by simp) rfl
    rw [addInstanceOnly, if_neg (Lib.Heap.ne_null_of_get hv), if_neg fun he => hus (by simp [he]), hv,
      Option.bind_some, if_neg hnext]
    exact ih hrest (fun hmem => hus (List.mem_cons_of_mem _ hmem)) (by simpa using hfuel)

/-- Where no node leads to the searched one, the walk changes nothing. -/
theorem removeInstanceOnly_of_ne (hs : Chain DbgFunctionNode.pNext h p ws) (hws : ∀ w ∈ ws, w.2.pNext ≠ q)
    (hfuel : ws.length < fuel) : removeInstanceOnly q fuel p h = some h := by
  induction ws generalizing p fuel with
  | nil =>
    obtain rfl : p = 0 := hs
    obtain ⟨fuel, rfl⟩ := Nat.exists_eq_add_one_of_ne_zero (Nat.ne_zero_of_lt hfuel)
    exact if_pos rfl
  | cons w ws ih =>
    obtain ⟨fuel, rfl⟩ := Nat.exists_eq_add_one_of_ne_zero (Nat.ne_zero_of_lt hfuel)
    obtain ⟨rfl, hw, hrest⟩ := hs
    rw [removeInstanceOnly, if_neg (Lib.Heap.ne_null_of_get hw), hw, Option.bind_some,
      if_neg (hws w List.mem_cons_self)]
    exact ih hrest (fun v hv => hws v (List.mem_cons_of_mem _ hv)) (by simpa using hfuel)

/-- `destroy_debug_callbacks_chain` frees the nodes of the chain. -/
theorem freeChain_of_chain {vs : List DbgEntry} (hs : Chain DbgFunctionNode.pNext h p ws)
    (ha : h.Accounts made (ws ++ vs)) (hfuel : ws.length < fuel) :
    ∃ h', freeChain fuel p h = some h' ∧ h'.Accounts made vs ∧ ∀ a ∉ ws.map Prod.fst, h'.get a = h.get a := by
  induction ws generalizing p fuel h with
  | nil =>
    obtain rfl : p = 0 := hs
    obtain ⟨fuel, rfl⟩ := Nat.exists_eq_add_one_of_ne_zero (Nat.ne_zero_of_lt hfuel)
    exact ⟨h, if_pos rfl, ha, fun _ _ => rfl⟩
  | cons w ws ih =>
    obtain ⟨fuel, rfl⟩ := Nat.exists_eq_add_one_of_ne_zero (Nat.ne_zero_of_lt hfuel)
    have hnd := hs.nodup
    obtain ⟨rfl, hw, hrest⟩ := hs
    obtain ⟨h₁, hfree, hget, ha₁⟩ := ha.free
    have hne : ∀ {a : ℕ}, a ≠ w.1 → h₁.get a = h.get a := by
      intro a hne
      rw [hget]
      exact if_neg hne
    have hrest₁ : Chain DbgFunctionNode.pNext h₁ w.2.pNext ws := Seg.congr hrest fun v hv => hne fun he =>
      (List.nodup_cons.1 hnd).1 (he ▸ List.mem_map_of_mem hv)
    obtain ⟨h', hall, ha', hframe⟩ := ih hrest₁ ha₁ (by simpa using hfuel)
    refine ⟨h', ?_, ha', fun a hmem => ?_⟩
    · rw [freeChain, if_neg (Lib.Heap.ne_null_of_get hw), hw, Option.bind_some, hfree, Option.bind_some]
      exact hall
    · obtain ⟨ha₁, ha₂⟩ := not_or.1 fun hor => hmem (List.mem_cons.2 hor)
      rw [hframe a ha₂, hne ha₁]

/-- The walk of the destroy functions takes out the node that it searches. -/
theorem destroyNode_of_seg {moveHeads : DebugInstance → ℕ → ℕ → DebugInstance} {isIt : DbgFunctionNode → Bool}
    {s : DebugInstance} {prev : ℕ} (hs : Seg DbgFunctionNode.pNext s.nodes p us w.1) (hw : s.nodes.get w.1 = some w.2)
    (his : isIt w.2 = true) (hus : ∀ u ∈ us, isIt u.2 = false) (hfuel : us.length < fuel) :
    s.destroyNode moveHeads isIt fuel prev p = s.unlinkNode moveHeads (Lib.Heap.lastAddr prev us) w.1 w.2 := by
  induction us generalizing p fuel prev with
  | nil =>
    obtain rfl : p = w.1 := hs
    obtain ⟨fuel, rfl⟩ := Nat.exists_eq_add_one_of_ne_zero (Nat.ne_zero_of_lt hfuel)
    rw [destroyNode, if_neg (Lib.Heap.ne_null_of_get hw), hw, Option.bind_some, if_pos his]
    rfl
  | cons u us ih =>
    obtain ⟨fuel, rfl⟩ := Nat.exists_eq_add_one_of_ne_zero (Nat.ne_zero_of_lt hfuel)
    obtain ⟨rfl, hu, hrest⟩ := hs
    rw [destroyNode, if_neg (Lib.Heap.ne_null_of_get hu), hu, Option.bind_some,
      if_neg (by simp [hus u List.mem_cons_self])]
    exact ih hrest (fun v hv => hus v (List.mem_cons_of_mem _ hv)) (by simpa using hfuel)

end Walks

/-! ### The two lists together -/

/-- The active list is the callbacks of calls and behind them those of the instance alone, or nothing, and the nodes in
use are those of both. -/
structure Nodes (s : DebugInstance) (ofCalls tail instanceOnly : List DbgEntry) : Prop where
  lists : s.Lists (ofCalls ++ tail) instanceOnly
  tail : tail = instanceOnly ∨ tail = []
  accounts : s.nodes.Accounts s.allocated (ofCalls ++ instanceOnly)

@[simp] theorem callbacksOf_nil : callbacksOf [] = [] := rfl

@[simp] theorem callbacksOf_cons (w : DbgEntry) (ws : List DbgEntry) :
    callbacksOf (w :: ws) = (w.2.handle, w.2.info) :: callbacksOf ws := rfl

@[simp] theorem callbacksOf_append (ws vs : List DbgEntry) :
    callbacksOf (ws ++ vs) = callbacksOf ws ++ callbacksOf vs := List.map_append

section Splicing

variable {s : DebugInstance} {ofCalls tail instanceOnly us : List DbgEntry} {v w : DbgEntry}

theorem Nodes.length_lt (hn : s.Nodes ofCalls tail instanceOnly) : (ofCalls ++ tail).length < s.nodes.bound :=
  hn.lists.active.length_lt

theorem Nodes.disjoint (hn : s.Nodes ofCalls tail instanceOnly) (hw : w ∈ ofCalls) :
    w.1 ∉ instanceOnly.map Prod.fst := by
  have hnd := hn.accounts.distinct
  rw [List.map_append, List.nodup_append'] at hnd
  exact fun hmem => hnd.2.2 (List.mem_map_of_mem hw) hmem

/-- The tail is of the list of the instance alone. -/
theorem Nodes.not_mem_tail (hn : s.Nodes ofCalls tail instanceOnly) {p : ℕ} (hp : p ∉ instanceOnly.map Prod.fst) :
    p ∉ tail.map Prod.fst := by
  rcases hn.tail with rfl | rfl
  · exact hp
  · exact List.not_mem_nil

/-- The last callback of calls is accounted for with the rest. -/
theorem Nodes.last (hn : s.Nodes (us ++ [v]) tail instanceOnly) :
    s.nodes.Accounts s.allocated (v :: (us ++ instanceOnly)) := by
  have ha := hn.accounts
  rw [List.append_assoc, List.singleton_append] at ha
  exact ha.perm List.perm_middle

/-- **Splicing**: the last callback of calls is made to lead to another tail. -/
theorem Nodes.relink (hn : s.Nodes (us ++ [v]) tail instanceOnly) {q : ℕ} {tail' : List DbgEntry}
    (hq : Chain DbgFunctionNode.pNext s.nodes q tail') (htail : tail' = instanceOnly ∨ tail' = []) :
    ∃ h, s.nodes.put v.1 { v.2 with pNext := q } = some h ∧
      { s with nodes := h }.Nodes (us ++ [(v.1, { v.2 with pNext := q })]) tail' instanceOnly := by
  have hlast := hn.last
  have hv := (List.nodup_cons.1 hlast.distinct).1
  rw [List.map_append, List.mem_append, not_or] at hv
  have hv' : v.1 ∉ tail'.map Prod.fst := by
    rcases htail with rfl | rfl
    · exact hv.2
    · exact List.not_mem_nil
  have hactive := hn.lists.active
  rw [List.append_assoc, List.singleton_append] at hactive
  have hq' : Chain DbgFunctionNode.pNext s.nodes (DbgFunctionNode.pNext { v.2 with pNext := q }) tail' := hq
  obtain ⟨h, hput, hget, ha, hchain⟩ := hactive.relink hlast hq' hv.1 hv'
  refine ⟨h, hput, ⟨?_, hn.lists.instanceOnly.frame hv.2 hget⟩, htail, ?_⟩
  · rw [List.append_assoc, List.singleton_append]
    exact hchain
  · rw [List.append_assoc, List.singleton_append]
    exact ha.perm List.perm_middle.symm

/-- **Cutting**: `loader_remove_instance_only_debug_funcs` leaves the callbacks of calls active. -/
theorem loaderRemoveInstanceOnlyDebugFuncs_nodes (hn : s.Nodes ofCalls instanceOnly instanceOnly) :
    ∃ s' ofCalls', s.loaderRemoveInstanceOnlyDebugFuncs = some s' ∧ s'.Nodes ofCalls' [] instanceOnly ∧
      callbacksOf ofCalls' = callbacksOf ofCalls ∧ s'.live = s.live ∧ s'.indexBlocks = s.indexBlocks := by
  have hactive := hn.lists.active
  have honly := hn.lists.instanceOnly
  have hlength := hn.length_lt
  rcases List.eq_nil_or_concat' ofCalls with rfl | ⟨us, v, rfl⟩
  · -- only the callbacks of the instance are there
    have hsame : s.currentDbgFunctionHead = s.instanceOnlyDbgFunctionHead := Seg.start_unique hactive honly
    have hwalk := removeInstanceOnly_of_ne hactive (fun w hw => hsame ▸ hactive.next_ne hw) hlength
    refine ⟨{ s with currentDbgFunctionHead := 0 }, [], ?_, ⟨⟨rfl, honly⟩, Or.inr rfl, hn.accounts⟩, rfl, rfl, rfl⟩
    unfold loaderRemoveInstanceOnlyDebugFuncs
    rw [hwalk, if_pos hsame]
    rfl
  · obtain ⟨q, hseg, hq⟩ := seg_append.1 hactive
    obtain rfl : q = s.instanceOnlyDbgFunctionHead := Seg.start_unique hq honly
    have hstart := honly.start_not_mem hn.accounts
    have hne : s.currentDbgFunctionHead ≠ s.instanceOnlyDbgFunctionHead := fun he =>
      hstart (he ▸ hseg.start_mem (by simp))
    obtain ⟨h, hput, hn'⟩ := hn.relink (Lib.Heap.chain_nil.2 rfl) (Or.inr rfl)
    refine ⟨{ s with nodes := h }, _, ?_, hn', by simp, rfl, rfl⟩
    unfold loaderRemoveInstanceOnlyDebugFuncs
    rw [removeInstanceOnly_of_seg hseg hstart (by simp at hlength; omega), hput, if_neg hne]
    rfl

/-- **Splicing back**: `loader_add_instance_only_debug_funcs` puts the callbacks of the instance alone behind those of
calls. -/
theorem loaderAddInstanceOnlyDebugFuncs_nodes (hn : s.Nodes ofCalls [] instanceOnly) :
    ∃ s' ofCalls', s.loaderAddInstanceOnlyDebugFuncs = some s' ∧ s'.Nodes ofCalls' instanceOnly instanceOnly ∧
      callbacksOf ofCalls' = callbacksOf ofCalls := by
  have hactive := hn.lists.active
  have honly := hn.lists.instanceOnly
  have hlength := hn.length_lt
  rw [List.append_nil] at hactive
  unfold loaderAddInstanceOnlyDebugFuncs
  rcases List.eq_nil_or_concat' ofCalls with rfl | ⟨us, v, rfl⟩
  · rw [if_pos (Lib.Heap.chain_nil.1 hactive)]
    exact ⟨_, [], rfl, ⟨⟨honly, honly⟩, Or.inl rfl, hn.accounts⟩, rfl⟩
  · obtain ⟨h, hput, hn'⟩ := hn.relink honly (Or.inl rfl)
    rw [if_neg (hactive.start_ne_null (by simp)),
      addInstanceOnly_of_chain hactive (honly.start_not_mem hn.accounts) (by simp at hlength; omega), hput]
    exact ⟨_, _, rfl, hn', by simp⟩

/-- Between the calls, `destroy_debug_callbacks_chain` frees the callbacks of calls. -/
theorem destroyDebugCallbacksChain_nodes (hn : s.Nodes ofCalls [] instanceOnly) :
    ∃ s', s.destroyDebugCallbacksChain = some s' ∧ s'.Nodes [] [] instanceOnly := by
  have hactive := hn.lists.active
  have hlength := hn.length_lt
  rw [List.append_nil] at hactive hlength
  obtain ⟨h, hfree, ha, hframe⟩ := freeChain_of_chain hactive hn.accounts hlength
  have honly : Chain DbgFunctionNode.pNext h s.instanceOnlyDbgFunctionHead instanceOnly := by
    refine Seg.congr hn.lists.instanceOnly fun w hw => hframe w.1 fun hmem => ?_
    obtain ⟨v, hv, he⟩ := List.mem_map.1 hmem
    exact hn.disjoint hv (he ▸ List.mem_map_of_mem hw)
  refine ⟨{ s with nodes := h, currentDbgFunctionHead := 0 }, ?_, ⟨⟨rfl, honly⟩, Or.inr rfl, ha⟩⟩
  rw [destroyDebugCallbacksChain, hfree]
  rfl

/-- While `vkCreateInstance` or `vkDestroyInstance` runs, it frees all. -/
theorem destroyDebugCallbacksChain_allFreed (hn : s.Nodes ofCalls instanceOnly instanceOnly) :
    ∃ s', s.destroyDebugCallbacksChain = some s' ∧ s'.AllFreed := by
  have ha := hn.accounts
  rw [← List.append_nil (ofCalls ++ instanceOnly)] at ha
  obtain ⟨h, hfree, ha', -⟩ := freeChain_of_chain hn.lists.active ha hn.length_lt
  refine ⟨{ s with nodes := h, currentDbgFunctionHead := 0 }, ?_, fun p => ?_, by simpa using ha'.made⟩
  · rw [destroyDebugCallbacksChain, hfree]
    rfl
  · by_contra hp
    exact List.not_mem_nil (ha'.only p (Option.isSome_iff_ne_none.2 hp))

end Splicing

/-! ### The calls -/

/-- The lists, and the callbacks of calls are the live ones, with the blocks of their handles. -/
structure Inv (s : DebugInstance) (ofCalls tail instanceOnly : List DbgEntry) : Prop
    extends Nodes s ofCalls tail instanceOnly where
  live : callbacksOf ofCalls = s.live
  handles : (s.live.map Prod.fst).Nodup
  blocks : ∀ c ∈ s.live, (s.indexBlocks.get c.1).isSome

section Calls

variable {s : DebugInstance} {ofCalls tail instanceOnly pre post us : List DbgEntry} {v w : DbgEntry} {handle : Handle}

/-- What is kept beside the nodes does not matter. -/
theorem Nodes.congr {s' : DebugInstance} (hn : s.Nodes ofCalls tail instanceOnly) (hnodes : s'.nodes = s.nodes)
    (hcur : s'.currentDbgFunctionHead = s.currentDbgFunctionHead)
    (honly : s'.instanceOnlyDbgFunctionHead = s.instanceOnlyDbgFunctionHead) (hall : s'.allocated = s.allocated) :
    s'.Nodes ofCalls tail instanceOnly where
  lists := ⟨by rw [hnodes, hcur]; exact hn.lists.active, by rw [hnodes, honly]; exact hn.lists.instanceOnly⟩
  tail := hn.tail
  accounts := by rw [hnodes, hall]; exact hn.accounts

/-- A new node at the head of the active list. -/
theorem Nodes.makeNode (hn : s.Nodes ofCalls tail instanceOnly) (info : DebugCreateInfo) (handle : Handle) (wish : ℕ) :
    { s.makeNode info handle s.currentDbgFunctionHead wish with currentDbgFunctionHead := s.nodes.place wish }.Nodes
      ((s.nodes.place wish, ⟨info, handle, s.currentDbgFunctionHead⟩) :: ofCalls) tail instanceOnly where
  lists := ⟨⟨rfl, Lib.Heap.alloc_get_self _ _ _, hn.lists.active.alloc _ _⟩, hn.lists.instanceOnly.alloc _ _⟩
  tail := hn.tail
  accounts := hn.accounts.alloc _ _

/-- **Making a callback**: it is active if the call succeeds, and nothing changes if it fails. -/
theorem terminatorCreateDebugCallback_inv (hs : s.Inv ofCalls tail instanceOnly) (info : DebugCreateInfo)
    (a : CreateAnswers) : ∃ r ofCalls', s.terminatorCreateDebugCallback info a = some r ∧
      r.2.Inv ofCalls' tail instanceOnly := by
  unfold terminatorCreateDebugCallback
  split
  · exact ⟨_, ofCalls, rfl, hs⟩
  · rename_i wish _
    have hnew : ∀ c ∈ s.live, c.1 ≠ s.indexBlocks.place wish := by
      intro c hc he
      have hblock := hs.blocks c hc
      rw [he, Lib.Heap.get_place] at hblock
      cases hblock
    have hkept : ∀ c ∈ s.live, ((s.indexBlocks.alloc wish a.nextIndex).get c.1).isSome := by
      intro c hc
      rw [Lib.Heap.alloc_get_of_ne (hnew c hc)]
      exact hs.blocks c hc
    dsimp only
    split
    · rename_i node _ _
      have hmade := hs.toNodes.makeNode info (s.indexBlocks.place wish) node
      refine ⟨_, _, rfl, hmade.congr rfl rfl rfl rfl, ?_, ?_, ?_⟩
      · rw [callbacksOf_cons, hs.live]
      · refine List.nodup_cons.2 ⟨fun hmem => ?_, hs.handles⟩
        obtain ⟨c, hc, he⟩ := List.mem_map.1 hmem
        exact hnew c hc he
      · intro c hc
        rcases List.mem_cons.1 hc with rfl | hc
        · exact Option.isSome_iff_exists.2 ⟨_, Lib.Heap.alloc_get_self _ _ _⟩
        · exact hkept c hc
    · obtain ⟨blocks, hfree, hget, -⟩ := Lib.Heap.free_of_get (Lib.Heap.alloc_get_self s.indexBlocks wish a.nextIndex)
      rw [hfree]
      refine ⟨_, ofCalls, rfl, hs.toNodes.congr rfl rfl rfl rfl, hs.live, hs.handles, fun c hc => ?_⟩
      rw [show blocks.get c.1 = _ from congrFun hget c.1, if_neg (hnew c hc)]
      exact hkept c hc

/-- The node of a callback that no list leads to any more is freed. -/
theorem nodes_of_free {h : Heap DbgFunctionNode} {p : ℕ} (ha : h.Accounts s.allocated (w :: (us ++ instanceOnly)))
    (hactive : Chain DbgFunctionNode.pNext h p (us ++ tail))
    (honly : Chain DbgFunctionNode.pNext h s.instanceOnlyDbgFunctionHead instanceOnly)
    (htail : tail = instanceOnly ∨ tail = []) :
    ∃ h', h.free w.1 = some h' ∧ { s with nodes := h', currentDbgFunctionHead := p }.Nodes us tail instanceOnly := by
  have hw := (List.nodup_cons.1 ha.distinct).1
  rw [List.map_append, List.mem_append, not_or] at hw
  have hw' : w.1 ∉ (us ++ tail).map Prod.fst := by
    rw [List.map_append, List.mem_append, not_or]
    rcases htail with rfl | rfl
    · exact hw
    · exact ⟨hw.1, List.not_mem_nil⟩
  obtain ⟨h', hfree, hget, ha'⟩ := ha.free
  exact ⟨h', hfree, ⟨hactive.frame hw' hget, honly.frame hw.2 hget⟩, htail, ha'⟩

/-- The heads after a callback of calls is taken out. -/
theorem moveHeadsMessenger_eq (hne : s.instanceOnlyDbgFunctionHead ≠ w.1) (q : ℕ) :
    s.moveHeadsMessenger w.1 q =
      { s with currentDbgFunctionHead := if s.currentDbgFunctionHead = w.1 then q else s.currentDbgFunctionHead } := by
  unfold moveHeadsMessenger
  split_ifs <;> simp_all

/-- The list of the instance alone does not start at a callback of calls. -/
theorem Nodes.instanceOnly_ne (hn : s.Nodes (pre ++ w :: post) tail instanceOnly) :
    s.instanceOnlyDbgFunctionHead ≠ w.1 := fun he =>
  hn.lists.instanceOnly.start_not_mem hn.accounts (he ▸ List.mem_map_of_mem (by simp))

/-- Unlinking the head of the active list: the node is rewritten as it is. -/
theorem unlinkNode_head (hn : s.Nodes (w :: post) tail instanceOnly) :
    ∃ s', s.unlinkNode moveHeadsMessenger s.currentDbgFunctionHead w.1 w.2 = some s' ∧
      s'.Nodes post tail instanceOnly ∧ s'.live = s.live ∧ s'.indexBlocks = s.indexBlocks := by
  have ha := hn.accounts
  rw [List.cons_append] at ha
  have hactive : Chain DbgFunctionNode.pNext s.nodes s.currentDbgFunctionHead ([] ++ w :: (post ++ tail)) :=
    hn.lists.active
  obtain ⟨hcur, hw, hrest⟩ := id hactive
  have hrest' : Chain DbgFunctionNode.pNext s.nodes (DbgFunctionNode.pNext w.2) (post ++ tail) := hrest
  have hw' := (List.nodup_cons.1 ha.distinct).1
  rw [List.map_append, List.mem_append, not_or] at hw'
  have hnew : w.1 ∉ (post ++ tail).map Prod.fst := by
    rw [List.map_append, List.mem_append, not_or]
    exact ⟨hw'.1, hn.not_mem_tail hw'.2⟩
  obtain ⟨h, hput, hget, ha', hchain⟩ := hactive.relink ha hrest' List.not_mem_nil hnew
  obtain ⟨h', hfree, hn'⟩ := nodes_of_free ha' hchain.2.2 (hn.lists.instanceOnly.frame hw'.2 hget) hn.tail
  refine ⟨{ s with nodes := h', currentDbgFunctionHead := w.2.pNext }, ?_, hn', rfl, rfl⟩
  have hstart : s.instanceOnlyDbgFunctionHead ≠ w.1 :=
    Nodes.instanceOnly_ne (show s.Nodes ([] ++ w :: post) tail instanceOnly from hn)
  rw [unlinkNode, hw, Option.bind_some, hcur, hput, Option.bind_some, hfree, moveHeadsMessenger_eq hstart, if_pos hcur]
  rfl

/-- Unlinking another callback of calls: the node before it is made to lead to the next one. -/
theorem unlinkNode_inside (hn : s.Nodes ((us ++ [v]) ++ w :: post) tail instanceOnly) :
    ∃ s', s.unlinkNode moveHeadsMessenger v.1 w.1 w.2 = some s' ∧
      s'.Nodes ((us ++ [(v.1, { v.2 with pNext := w.2.pNext })]) ++ post) tail instanceOnly ∧ s'.live = s.live ∧
      s'.indexBlocks = s.indexBlocks := by
  have hactive := hn.lists.active
  have ha := hn.accounts
  rw [List.append_assoc, List.cons_append] at hactive ha
  have hcur : s.currentDbgFunctionHead ≠ w.1 := by
    intro he
    obtain ⟨r, hseg, -⟩ := seg_append.1 hactive
    apply (List.nodup_cons.1 (ha.perm List.perm_middle).distinct).1
    rw [List.map_append, List.mem_append, ← he]
    exact Or.inl (hseg.start_mem (by simp))
  rw [List.append_assoc, List.singleton_append] at hactive ha
  have hlast := ha.perm List.perm_middle
  have hv := (List.nodup_cons.1 hlast.distinct).1
  simp only [List.map_append, List.map_cons, List.mem_append, List.mem_cons, not_or] at hv
  have hnew : v.1 ∉ (post ++ tail).map Prod.fst := by
    rw [List.map_append, List.mem_append, not_or]
    exact ⟨hv.2.2.1, hn.not_mem_tail hv.2.2.2⟩
  obtain ⟨r, -, hvr⟩ := seg_append.1 hactive
  obtain ⟨rfl, hget, hnext, hw, hrest⟩ := hvr
  have hrest' : Chain DbgFunctionNode.pNext s.nodes (DbgFunctionNode.pNext { v.2 with pNext := w.2.pNext })
    (post ++ tail) := hrest
  obtain ⟨h, hput, hframe, ha', hchain⟩ := hactive.relink hlast hrest' hv.1 hnew
  have hperm : ((v.1, { v.2 with pNext := w.2.pNext }) :: (us ++ w :: (post ++ instanceOnly))).Perm
      (w :: (us ++ [(v.1, { v.2 with pNext := w.2.pNext })] ++ post ++ instanceOnly)) := by
    rw [List.append_assoc, List.append_assoc, List.singleton_append]
    exact ((List.perm_middle.cons _).trans (.swap _ _ _)).trans (List.perm_middle.symm.cons _)
  obtain ⟨h', hfree, hn'⟩ := nodes_of_free (ha'.perm hperm) (by simpa using hchain)
    (hn.lists.instanceOnly.frame hv.2.2.2 hframe) hn.tail
  refine ⟨{ s with nodes := h' }, ?_, hn', rfl, rfl⟩
  rw [unlinkNode, hget, Option.bind_some, hput, Option.bind_some, hfree, moveHeadsMessenger_eq hn.instanceOnly_ne,
    if_neg hcur]
  rfl

/-- **Unlinking** a callback of calls. -/
theorem unlinkNode_nodes (hn : s.Nodes (pre ++ w :: post) tail instanceOnly) :
    ∃ s' pre', s.unlinkNode moveHeadsMessenger (Lib.Heap.lastAddr s.currentDbgFunctionHead pre) w.1 w.2 = some s' ∧
      s'.Nodes (pre' ++ post) tail instanceOnly ∧ callbacksOf pre' = callbacksOf pre ∧ s'.live = s.live ∧
      s'.indexBlocks = s.indexBlocks := by
  rcases List.eq_nil_or_concat' pre with rfl | ⟨us, v, rfl⟩
  · obtain ⟨s', hunlink, hn', hkept⟩ := unlinkNode_head hn
    exact ⟨s', [], hunlink, hn', rfl, hkept⟩
  · obtain ⟨s', hunlink, hn', hkept⟩ := unlinkNode_inside hn
    exact ⟨s', _, by rw [Lib.Heap.lastAddr_append]; exact hunlink, hn', by simp, hkept⟩

/-- Taking the callback with a handle out of the list takes it out of the live ones. -/
theorem Inv.filter_live (hs : s.Inv (pre ++ w :: post) tail instanceOnly) :
    (s.live.filter fun c => c.1 ≠ w.2.handle) = callbacksOf pre ++ callbacksOf post ∧
      ∀ u ∈ pre, u.2.handle ≠ w.2.handle := by
  have hhandles := hs.handles
  rw [← hs.live, callbacksOf_append, callbacksOf_cons] at hhandles
  have hothers : ∀ x ∈ callbacksOf pre ++ callbacksOf post, x.1 ≠ w.2.handle := fun x hx he =>
    (List.nodup_cons.1 ((List.perm_middle.map Prod.fst).nodup_iff.1 hhandles)).1 (List.mem_map.2 ⟨x, hx, he⟩)
  refine ⟨?_, fun u hu => hothers _ (List.mem_append_left _ (List.mem_map_of_mem hu))⟩
  rw [← hs.live, callbacksOf_append, callbacksOf_cons, List.filter_append, List.filter_cons_of_neg (by simp),
    ← List.filter_append]
  exact List.filter_eq_self.2 fun x hx => decide_eq_true (hothers x hx)

/-- **Destroying a callback** of calls: the others stay active. -/
theorem terminatorDestroyDebugCallback_inv (hs : s.Inv ofCalls tail instanceOnly) (kind : DebugCreateInfo → Bool)
    {utilDestroy : DebugInstance → Handle → Option DebugInstance}
    (hutil : utilDestroy s handle = s.destroyNode moveHeadsMessenger
      (fun node => kind node.info && decide (node.handle = handle)) s.nodes.bound s.currentDbgFunctionHead
      s.currentDbgFunctionHead)
    (hlive : handle = nullHandle ∨ (s.live.any fun c => decide (c.1 = handle) && kind c.2) = true) :
    ∃ s' ofCalls', terminatorDestroyDebugCallback utilDestroy s handle = some s' ∧
      s'.Inv ofCalls' tail instanceOnly := by
  unfold terminatorDestroyDebugCallback
  by_cases h0 : handle = nullHandle
  · exact ⟨s, ofCalls, if_pos h0, hs⟩
  rw [if_neg h0]
  obtain ⟨c, hc, hcw⟩ := List.any_eq_true.1 (hlive.resolve_left h0)
  rw [Bool.and_eq_true, decide_eq_true_eq] at hcw
  obtain ⟨rfl, hkind⟩ := hcw
  -- the node of the callback, and no other node has its handle
  have hmem := hc
  rw [← hs.live] at hmem
  obtain ⟨w, hw, rfl⟩ := List.mem_map.1 hmem
  obtain ⟨pre, post, rfl⟩ := List.append_of_mem hw
  obtain ⟨hfilter, hothers⟩ := hs.filter_live
  have hactive := hs.lists.active
  have hlength := hs.length_lt
  rw [List.append_assoc, List.cons_append] at hactive
  obtain ⟨r, hpre, rfl, hget, -⟩ := seg_append.1 hactive
  have hnone : ∀ u ∈ pre, (kind u.2.info && decide (u.2.handle = w.2.handle)) = false := fun u hu => by
    simp [hothers u hu]
  obtain ⟨s', pre', hunlink, hn, hpre', hlive', hblocks⟩ := unlinkNode_nodes hs.toNodes
  have hwalk : utilDestroy s w.2.handle = some s' := by
    rw [hutil, destroyNode_of_seg hpre hget (by simpa using hkind) hnone (by simp at hlength; omega)]
    exact hunlink
  -- its block
  obtain ⟨index, hindex⟩ := Option.isSome_iff_exists.1 (hs.blocks _ hc)
  obtain ⟨blocks, hfree, hframe, -⟩ := Lib.Heap.free_of_get hindex
  dsimp only at hwalk hindex hfree ⊢
  rw [hindex, Option.bind_some, hwalk, Option.bind_some, hblocks, hfree, hlive']
  refine ⟨_, pre' ++ post, rfl, hn.congr rfl rfl rfl rfl, ?_, ?_, fun c hc => ?_⟩
  · rw [callbacksOf_append, hpre']
    exact hfilter.symm
  · exact hs.handles.sublist (List.filter_sublist.map Prod.fst)
  · obtain ⟨hc, hne⟩ := List.mem_filter.1 hc
    rw [show blocks.get c.1 = _ from congrFun hframe c.1, if_neg (of_decide_eq_true hne)]
    exact hs.blocks c hc

/-- **A call** keeps the invariant. -/
theorem exec_inv (hs : s.Inv ofCalls tail instanceOnly) {c : DebugCall} (hc : DestroysLive (some s) c) :
    ∃ s' ofCalls', s.exec c = some s' ∧ s'.Inv ofCalls' tail instanceOnly := by
  have hcreate : ∀ info a, ∃ s' ofCalls', (s.terminatorCreateDebugCallback info a).map Prod.snd = some s' ∧
      s'.Inv ofCalls' tail instanceOnly := by
    intro info a
    obtain ⟨r, ofCalls', hr, hinv⟩ := terminatorCreateDebugCallback_inv hs info a
    exact ⟨r.2, ofCalls', by rw [hr, Option.map_some], hinv⟩
  cases c with
  | createDebugUtilsMessenger => exact hcreate _ _
  | createDebugReportCallback => exact hcreate _ _
  | destroyDebugUtilsMessenger messenger =>
    exact terminatorDestroyDebugCallback_inv hs (fun info => info.isMessenger) rfl hc
  | destroyDebugReportCallback callback =>
    refine terminatorDestroyDebugCallback_inv hs (fun info => !info.isMessenger) ?_ hc
    unfold utilDestroyDebugReportCallback
    rw [moveHeadsReport_eq]

/-- **Calls** keep the invariant. -/
theorem run_inv (hs : s.Inv ofCalls tail instanceOnly) {calls : List DebugCall}
    (hcalls : AllSteps debugStep DestroysLive (some s) calls) :
    ∃ s' ofCalls', run debugStep (some s) calls = some s' ∧ s'.Inv ofCalls' tail instanceOnly := by
  have hstep : ∀ (o : Option DebugInstance) (c : DebugCall),
      (∃ s' ofCalls', o = some s' ∧ s'.Inv ofCalls' tail instanceOnly) → DestroysLive o c →
        ∃ s' ofCalls', debugStep o c = some s' ∧ s'.Inv ofCalls' tail instanceOnly := by
    rintro _ c ⟨s', ofCalls', rfl, hs'⟩ hc
    exact exec_inv hs' hc
  exact run_invariant debugStep hstep ⟨s, ofCalls, rfl, hs⟩ hcalls

end Calls

/-! ### The `pNext` chain -/

theorem calloc_inv : calloc.Inv [] [] [] where
  lists := ⟨rfl, rfl⟩
  tail := Or.inl rfl
  accounts := .empty
  live := rfl
  handles := List.nodup_nil
  blocks := by simp [calloc]

/-- A callback of the instance alone is at the head of both lists. -/
theorem utilCreateDebugCallback_inv {s : DebugInstance} {instanceOnly : List DbgEntry}
    (hs : s.Inv [] instanceOnly instanceOnly) (info : DebugCreateInfo) (handle : Handle) (wish : ℕ) :
    ∃ s' w, s.utilCreateDebugCallback info handle (some wish) = (.success, s') ∧
      s'.Inv [] (w :: instanceOnly) (w :: instanceOnly) ∧ callbacksOf [w] = [(handle, info)] := by
  have honly := hs.lists.instanceOnly.alloc wish ⟨info, handle, s.instanceOnlyDbgFunctionHead⟩
  refine ⟨_, (s.nodes.place wish, ⟨info, handle, s.instanceOnlyDbgFunctionHead⟩), rfl, ?_, rfl⟩
  exact ⟨⟨⟨⟨rfl, Lib.Heap.alloc_get_self _ _ _, honly⟩, ⟨rfl, Lib.Heap.alloc_get_self _ _ _, honly⟩⟩, Or.inl rfl,
    hs.accounts.alloc _ _⟩, hs.live, hs.handles, hs.blocks⟩

/-- **A walk through the chain** makes the callbacks of its kind, up to the first for which there is no memory. -/
theorem utilCreateDebugCallbacks_inv (kind : DebugCreateInfo → Bool) (memory : ℕ → Option ℕ)
    (pChain : List CreateInfoStruct) {s : DebugInstance} {instanceOnly : List DbgEntry}
    (hs : s.Inv [] instanceOnly instanceOnly) :
    ∃ res s' new, utilCreateDebugCallbacks kind memory pChain s = (res, s') ∧
      s'.Inv [] (new ++ instanceOnly) (new ++ instanceOnly) ∧
      callbacksOf new = ((createInfos kind pChain).takeWhile fun c => (memory c.1).isSome).reverse ∧
      res = if ((createInfos kind pChain).takeWhile fun c => (memory c.1).isSome).length = (createInfos kind pChain).length
        then .success else .errorOutOfHostMemory := by
  induction pChain generalizing s instanceOnly with
  | nil => exact ⟨_, s, [], rfl, hs, rfl, rfl⟩
  | cons c pChain ih =>
    rw [utilCreateDebugCallbacks]
    cases hc : c.info.filter kind with
    | none =>
      have hinfos : createInfos kind (c :: pChain) = createInfos kind pChain := by
        rw [createInfos, List.filterMap_cons, hc]
        rfl
      rw [hinfos]
      exact ih hs
    | some info =>
      have hinfos : createInfos kind (c :: pChain) = (c.address, info) :: createInfos kind pChain := by
        rw [createInfos, List.filterMap_cons, hc]
        rfl
      rw [hinfos]
      cases hm : memory c.address with
      | none => exact ⟨_, s, [], rfl, hs, by simp [hm], by simp [hm]⟩
      | some wish =>
        obtain ⟨s₁, w, hmade, hs₁, hw⟩ := utilCreateDebugCallback_inv hs info c.address wish
        obtain ⟨res, s', new, hwalk, hs', hnew, hres⟩ := ih hs₁
        refine ⟨res, s', new ++ [w], ?_, by simpa using hs', ?_, ?_⟩
        · dsimp only
          rw [hmade]
          exact hwalk
        · rw [callbacksOf_append, hw, hnew, List.takeWhile_cons_of_pos (by simp [hm]), List.reverse_cons]
        · rw [hres, List.takeWhile_cons_of_pos (by simp [hm]), List.length_cons, List.length_cons]
          simp

end DebugInstance

/-! ### The life of an instance -/

namespace InstanceLife

open DebugInstance

variable {l : InstanceLife}

/-- The callbacks of the instance alone after the two walks. -/
theorem setUp_inv (l : InstanceLife) : ∃ instanceOnly, l.setUp.2.Inv [] instanceOnly instanceOnly ∧
    callbacksOf instanceOnly = l.instanceOnlyCallbacks ∧
    (l.setUp.1 = .success ∨ l.setUp.1 = .errorOutOfHostMemory) := by
  obtain ⟨res, s, new, hwalk, hs, hnew, hres⟩ :=
    utilCreateDebugCallbacks_inv (fun info => info.isMessenger) l.memory l.pNext calloc_inv
  unfold setUp instanceOnlyCallbacks utilCreateDebugUtilsMessengers
  rw [hwalk, List.takeWhile_append]
  rw [List.append_nil] at hs
  split_ifs at hres with hall
  · subst hres
    obtain ⟨res', s', new', hwalk', hs', hnew', hres'⟩ :=
      utilCreateDebugCallbacks_inv (fun info => !info.isMessenger) l.memory l.pNext hs
    unfold utilCreateDebugReportCallbacks
    dsimp only
    rw [hwalk', if_pos hall]
    refine ⟨new' ++ new, hs', ?_, ?_⟩
    · rw [callbacksOf_append, hnew', hnew, List.reverse_append, (List.takeWhile_prefix _).eq_of_length hall]
    · rw [hres']
      split_ifs
      · exact Or.inl rfl
      · exact Or.inr rfl
  · subst hres
    rw [if_neg hall]
    exact ⟨new, hs, hnew, Or.inr rfl⟩

/-- While `vkCreateInstance` runs. -/
theorem upToOut_inv (hl : l.setUp.1 = .success → AllSteps debugStep DestroysLive (some l.setUp.2) l.layerCalls) :
    ∃ r ofCalls instanceOnly, l.upToOut = some r ∧ r.2.Inv ofCalls instanceOnly instanceOnly ∧
      callbacksOf instanceOnly = l.instanceOnlyCallbacks := by
  obtain ⟨instanceOnly, hs, honly, hres⟩ := l.setUp_inv
  unfold upToOut
  generalize hsetUp : l.setUp = r at hs hres hl
  obtain ⟨res, s⟩ := r
  rcases hres with rfl | rfl
  · obtain ⟨s', ofCalls, hrun, hs'⟩ := run_inv hs (hl rfl)
    refine ⟨(l.res, s'), ofCalls, instanceOnly, ?_, hs', honly⟩
    dsimp only at hrun ⊢
    rw [hrun]
    rfl
  · exact ⟨_, [], instanceOnly, rfl, hs, honly⟩

/-- `vkCreateInstance` frees all where it fails, and cuts the list of the instance alone off where it succeeds. -/
theorem vkCreateInstance_inv (hl : l.DestroysOnlyLive) : ∃ r, l.vkCreateInstance = some r ∧
    (r.1 ≠ .success → r.2.AllFreed) ∧
    (r.1 = .success → ∃ ofCalls instanceOnly, r.2.Inv ofCalls [] instanceOnly ∧
      callbacksOf instanceOnly = l.instanceOnlyCallbacks) := by
  obtain ⟨⟨res, s⟩, ofCalls, instanceOnly, hr, hs, honly⟩ := upToOut_inv hl.1
  unfold vkCreateInstance
  rw [hr, Option.bind_some]
  dsimp only
  by_cases hres : res = .success
  · obtain ⟨s', ofCalls', hremove, hn, hcalls, hlive, hblocks⟩ := loaderRemoveInstanceOnlyDebugFuncs_nodes hs.toNodes
    rw [if_neg (not_not_intro hres), hremove]
    refine ⟨_, rfl, fun hne => absurd hres hne, fun _ => ⟨ofCalls', instanceOnly, ⟨hn, ?_, ?_, ?_⟩, honly⟩⟩
    · rw [hcalls, hs.live, ← hlive]
    · exact hlive ▸ hs.handles
    · intro c hc
      rw [hblocks]
      exact hs.blocks c (hlive ▸ hc)
  · obtain ⟨s', hfree, hall⟩ := destroyDebugCallbacksChain_allFreed hs.toNodes
    rw [if_pos hres, hfree]
    exact ⟨_, rfl, fun _ => hall, fun he => absurd he hres⟩

/-- An instance that was created. -/
theorem created_inv (hl : l.DestroysOnlyLive) {s₀ : DebugInstance} (hs₀ : l.created = some s₀) :
    ∃ ofCalls instanceOnly, s₀.Inv ofCalls [] instanceOnly ∧ callbacksOf instanceOnly = l.instanceOnlyCallbacks := by
  obtain ⟨⟨res, s⟩, hr, -, hsuccess⟩ := vkCreateInstance_inv hl
  unfold created at hs₀
  rw [hr] at hs₀
  split at hs₀
  · rename_i he
    obtain ⟨rfl, rfl⟩ := Prod.mk.inj (Option.some.inj he)
    obtain rfl := Option.some.inj hs₀
    exact hsuccess rfl
  · cases hs₀

/-- Between `vkCreateInstance` and `vkDestroyInstance`. -/
theorem run_created_inv (hl : l.DestroysOnlyLive) {s₀ : DebugInstance} (hs₀ : l.created = some s₀)
    {calls : List DebugCall} (hcalls : calls <+: l.calls) : ∃ s ofCalls instanceOnly,
    run debugStep (some s₀) calls = some s ∧ s.Inv ofCalls [] instanceOnly ∧
      callbacksOf instanceOnly = l.instanceOnlyCallbacks := by
  obtain ⟨ofCalls, instanceOnly, hs, honly⟩ := created_inv hl hs₀
  have hall := hl.2
  rw [hs₀] at hall
  obtain ⟨s, ofCalls', hrun, hs'⟩ := run_inv hs (hall.before debugStep hcalls)
  exact ⟨s, ofCalls', instanceOnly, hrun, hs', honly⟩

theorem run_debugStep_none (calls : List DebugCall) : run debugStep none calls = none := by
  induction calls with
  | nil => rfl
  | cons c calls ih => exact ih

theorem exists_created {s : DebugInstance} (hs : l.lived = some s) : ∃ s₀, l.created = some s₀ := by
  unfold lived at hs
  cases hc : l.created with
  | none =>
    rw [hc, run_debugStep_none] at hs
    cases hs
  | some s₀ => exact ⟨s₀, rfl⟩

theorem lived_eq {s₀ : DebugInstance} (hs₀ : l.created = some s₀) : l.lived = run debugStep (some s₀) l.calls := by
  rw [lived, hs₀]

/-- While `vkDestroyInstance` calls down, and after it. -/
theorem vkDestroyInstance_nodes {s : DebugInstance} {ofCalls instanceOnly : List DbgEntry}
    (hs : s.Nodes ofCalls [] instanceOnly) : ∃ s' s'', s.beforeDestroyDown = some s' ∧
      s'.Lists instanceOnly instanceOnly ∧ s.vkDestroyInstance = some s'' ∧ s''.AllFreed := by
  obtain ⟨s₁, hdestroy, hs₁⟩ := destroyDebugCallbacksChain_nodes hs
  obtain ⟨s', ofCalls', hadd, hs', hcalls⟩ := loaderAddInstanceOnlyDebugFuncs_nodes hs₁
  obtain rfl : ofCalls' = [] := List.map_eq_nil_iff.1 hcalls
  obtain ⟨s'', hfree, hall⟩ := destroyDebugCallbacksChain_allFreed hs'
  have hbefore : s.beforeDestroyDown = some s' := by rw [beforeDestroyDown, hdestroy, Option.bind_some, hadd]
  exact ⟨s', s'', hbefore, hs'.lists, by rw [vkDestroyInstance, hbefore, Option.bind_some, hfree], hall⟩

/-- **Over every life of an instance** the callbacks are active when they are to be, and every node is freed once. -/
theorem callbacksKept (l : InstanceLife) (hl : l.DestroysOnlyLive) : l.CallbacksKept where
  creating calls hcalls := by
    have hl' : { l with layerCalls := calls }.setUp.1 = .success →
        AllSteps debugStep DestroysLive (some l.setUp.2) calls := fun h => (hl.1 h).before debugStep hcalls
    obtain ⟨r, ofCalls, instanceOnly, hr, hs, honly⟩ := upToOut_inv hl'
    exact ⟨r, ofCalls, instanceOnly, hr, hs.lists, hs.live, honly⟩
  failed := by
    obtain ⟨r, hr, hfail, -⟩ := vkCreateInstance_inv hl
    exact ⟨r, hr, hfail⟩
  between s₀ calls hs₀ hcalls := by
    obtain ⟨s, ofCalls, instanceOnly, hrun, hs, honly⟩ := run_created_inv hl hs₀ hcalls
    have hlists := hs.lists
    rw [List.append_nil] at hlists
    exact ⟨s, ofCalls, instanceOnly, hrun, hlists, fun w hw => hs.disjoint hw, hs.live, honly⟩
  destroying s hs := by
    obtain ⟨s₀, hs₀⟩ := exists_created hs
    obtain ⟨t, ofCalls, instanceOnly, hrun, ht, honly⟩ := run_created_inv hl hs₀ (List.prefix_refl _)
    obtain rfl := Option.some.inj (hs.symm.trans ((lived_eq hs₀).trans hrun))
    obtain ⟨s', -, hbefore, hlists, -⟩ := vkDestroyInstance_nodes ht.toNodes
    exact ⟨s', instanceOnly, hbefore, hlists, honly⟩
  destroyed s₀ hs₀ := by
    obtain ⟨s, ofCalls, instanceOnly, hrun, hs, -⟩ := run_created_inv hl hs₀ (List.prefix_refl _)
    obtain ⟨-, s', -, -, hdestroy, hall⟩ := vkDestroyInstance_nodes hs.toNodes
    exact ⟨s, s', (lived_eq hs₀).trans hrun, hdestroy, hall⟩

/-- A chain with a messenger and a report, and a messenger that is made, one that is made and destroyed, and a report
that is left to `vkDestroyInstance`. -/
def twoAndThree : InstanceLife where
  pNext := [⟨100, some (.messenger 1 1 1 1)⟩, ⟨200, none⟩, ⟨300, some (.report 2 1 2)⟩]
  memory address := some address
  layerCalls := [.createDebugUtilsMessenger 3 1 1 3 ⟨some 10, 0, .success, some 11⟩]
  res := .success
  calls := [.createDebugUtilsMessenger 4 1 1 4 ⟨some 20, 1, .success, some 21⟩,
    .createDebugReportCallback 5 1 5 ⟨some 30, 0, .success, some 31⟩, .destroyDebugUtilsMessenger 20]

theorem callbacksKept_twoAndThree : twoAndThree.DestroysOnlyLive ∧ twoAndThree.CallbacksKept := by
  have h : twoAndThree.DestroysOnlyLive := by decide
  exact ⟨h, callbacksKept twoAndThree h⟩

end InstanceLife

end VulkanLoader
