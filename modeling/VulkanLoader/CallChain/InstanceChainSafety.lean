import VulkanLoader.CallChain.InstanceChain
import VulkanLoader.Lib.Lists

/-!
# Well-formed instance chains

What a layer brings into the chain is decided by its manifest and its library alone: the interface that it negotiates,
its `vkGetInstanceProcAddr`, and its `vk_layerGetPhysicalDeviceProcAddr`, if it has one.  A chain is well formed if it
links layers that loaded, each above the next one below it through that layer's own functions.

`buildInstanceChain` keeps this as long as it meets no layer record again whose negotiation function it has kept without
getting a `vkGetInstanceProcAddr`.
-/

namespace VulkanLoader

section Own

variable (lib : LayerLibraries) (m : LayerManifest)

/-- The negotiation function of the library. -/
def negotiateFunction : Option Pfn :=
  lib.getProcAddress (lib.handle m.libName)
    (functionName m.strNegotiateInterface "vkNegotiateLoaderLayerInterfaceVersion")

/-- The interface that the layer negotiates, from version 2. -/
def ownInterface : Option NegotiateLayerInterface :=
  ((negotiateFunction lib m).bind lib.loaderGetLayerInterfaceVersion).filter
    fun interface => interface.loaderLayerInterfaceVersion > 1

/-- The `vkGetInstanceProcAddr` of the layer, negotiated or looked up in its library. -/
def ownGipa : Option Pfn :=
  ((ownInterface lib m).bind (·.pfnGetInstanceProcAddr)).or
    (lib.getProcAddress (lib.handle m.libName) (functionName m.strGipa "vkGetInstanceProcAddr"))

/-- The `vk_layerGetPhysicalDeviceProcAddr` of the layer. -/
def ownGpdpa : Option Pfn := (ownInterface lib m).bind (·.pfnGetPhysicalDeviceProcAddr)

end Own

section Spec

variable (lib : LayerLibraries) (manifests : ℕ → LayerManifest)

/-- The `vkGetInstanceProcAddr` that leads into layers, which are listed from the bottom, and to the terminator. -/
def gipaOf (ps : List ℕ) : Option Pfn :=
  match ps.getLast? with
  | none => some loaderGpaInstanceTerminator
  | some p => ownGipa lib (manifests p)

/-- The `vk_layerGetPhysicalDeviceProcAddr` of the topmost layer that has one. -/
def gpdpaOf (ps : List ℕ) : Option Pfn :=
  (ps.reverse.findSome? fun p => ownGpdpa lib (manifests p)).or (some loaderGpdpaInstanceTerminator)

/-- The link through which the layer at place `i` calls the layers below it. -/
def linkOf (activated : List ℕ) (i : ℕ) : LayerInstanceLink where
  pNext := if i = 0 then none else some (i - 1)
  pfnNextGetInstanceProcAddr := gipaOf lib manifests (activated.take i)
  pfnNextGetPhysicalDeviceProcAddr := gpdpaOf lib manifests (activated.take i)

/-- **A well-formed chain** of layers of a list: distinct names in the order of the list, only layers that loaded, and
each layer called through its own functions, which the link above it holds, or `next_gipa` and `next_gpdpa` at the
top. -/
structure InstanceChainWellFormed (list : List ℕ) (s : InstanceChain) : Prop where
  names : (s.activated.map fun p => (manifests p).layerName).Nodup
  order : s.activated.reverse.Sublist list
  opened : ∀ p ∈ s.activated, (s.layers p).libHandle = some (lib.handle (manifests p).libName)
  loaded : ∀ p ∈ s.activated, (ownGipa lib (manifests p)).isSome
  links : s.links = (List.range s.activated.length).map (linkOf lib manifests s.activated)
  layerInfo : s.layerInfo = if s.activated.length = 0 then none else some (s.activated.length - 1)
  nextGipa : s.nextGipa = gipaOf lib manifests s.activated
  nextGpdpa : s.nextGpdpa = gpdpaOf lib manifests s.activated

/-- The library of the layer opens, for the entry that so many entries come after. -/
def Opens (attempt : ℕ) (p : ℕ) : Prop := lib.openLibrary attempt (manifests p).libName = .successLoaded

/-- The layer loads: its library opens and gives a `vkGetInstanceProcAddr`. -/
def Loads (attempt : ℕ) (p : ℕ) : Prop := Opens lib manifests attempt p ∧ (ownGipa lib (manifests p)).isSome

/-- A layer of the name loads, for one of the entries. -/
def NameLoads (name : String) (list : List ℕ) : Prop :=
  ∃ pre p post, list = pre ++ p :: post ∧ (manifests p).layerName = name ∧ Loads lib manifests post.length p

/-- For one of the entries, the layer's library opens and has a negotiation function, but it gives no
`vkGetInstanceProcAddr`. -/
def NegotiatesInVain (p : ℕ) (list : List ℕ) : Prop :=
  (negotiateFunction lib (manifests p)).isSome ∧ ownGipa lib (manifests p) = none ∧
    ∃ pre post, list = pre ++ p :: post ∧ Opens lib manifests post.length p

/-- The layer opens again after it negotiated in vain, and no layer of its name loaded. -/
def MetAgainAt (p : ℕ) (list : List ℕ) : Prop :=
  Opens lib manifests list.length p ∧ NegotiatesInVain lib manifests p list ∧
    ¬ NameLoads lib manifests (manifests p).layerName list

/-- **A layer that negotiated in vain is met again** in the list. -/
def MetAgain (list : List ℕ) : Prop := ∃ pre p post, list = pre ++ p :: post ∧ MetAgainAt lib manifests p post

end Spec

/-! ### Finding the functions of a layer -/

section Find

variable (lib : LayerLibraries) {m : LayerManifest} {r : LayerRecord}

/-- A record that no function was kept in. -/
structure FreshRecord (m : LayerManifest) (r : LayerRecord) : Prop where
  interfaceVersion : r.interfaceVersion = 0
  functions : r.functions = m.record.functions

/-- What the loop finds of a layer that it meets for the first time. -/
structure FindsOwn (lib : LayerLibraries) (m : LayerManifest) (found : LayerRecord × CurFunctions × Bool) : Prop where
  gipa : found.2.2 = true → found.2.1.gipa = ownGipa lib m
  gpdpa : found.2.2 = true → ∀ next, (if found.1.interfaceVersion > 1 && found.2.1.gpdpa.isSome then found.2.1.gpdpa
    else next) = (ownGpdpa lib m).or next
  loads : found.2.2 = (ownGipa lib m).isSome
  vain : found.2.2 = false → (negotiateFunction lib m).isSome → found.1.functions.negotiateLayerInterface.isSome
  fresh : found.2.2 = false → negotiateFunction lib m = none → FreshRecord m found.1

theorem lookUpGipa_eq (hnone : r.functions.getInstanceProcAddr = none) (hgipa : r.functions.strGipa = m.strGipa)
    (libHandle : Handle) (cur : CurFunctions) :
    (lookUpGipa lib libHandle r cur).2 =
      { cur with gipa := lib.getProcAddress libHandle (functionName m.strGipa "vkGetInstanceProcAddr") } := by
  unfold lookUpGipa
  rw [hnone, hgipa]
  dsimp only
  split_ifs <;> rfl

/-- A look-up keeps what it finds at most. -/
theorem lookUpGipa_record (hnone : r.functions.getInstanceProcAddr = none) (libHandle : Handle) (cur : CurFunctions) :
    ∃ gipa, (lookUpGipa lib libHandle r cur).1 =
        { r with functions := { r.functions with getInstanceProcAddr := gipa } } ∧
      ((lookUpGipa lib libHandle r cur).2.gipa = none → gipa = none) := by
  unfold lookUpGipa
  rw [hnone]
  dsimp only
  split_ifs
  · exact ⟨_, rfl, id⟩
  · exact ⟨none, by rw [← hnone], fun _ => rfl⟩

/-- Where the interface gives no `vkGetInstanceProcAddr`, the layer's own is looked up. -/
theorem findsOwn_lookUp (hnone : r.functions.getInstanceProcAddr = none)
    (hstr : r.functions.strGipa = m.strGipa)
    (hinterface : (ownInterface lib m).bind (·.pfnGetInstanceProcAddr) = none) (cur : CurFunctions)
    (hgpdpa : ∀ next, (if r.interfaceVersion > 1 && cur.gpdpa.isSome then cur.gpdpa else next) =
      (ownGpdpa lib m).or next)
    (hvain : (negotiateFunction lib m).isSome → r.functions.negotiateLayerInterface.isSome)
    (hfresh : negotiateFunction lib m = none → FreshRecord m r) :
    FindsOwn lib m ((lookUpGipa lib (lib.handle m.libName) r cur).1, (lookUpGipa lib (lib.handle m.libName) r cur).2,
      (lookUpGipa lib (lib.handle m.libName) r cur).2.gipa.isSome) := by
  have hgp : ownGipa lib m = lib.getProcAddress (lib.handle m.libName)
      (functionName m.strGipa "vkGetInstanceProcAddr") := by
    unfold ownGipa
    rw [hinterface]
    rfl
  obtain ⟨gipa, hrec, hkept⟩ := lookUpGipa_record lib hnone (lib.handle m.libName) cur
  have hcur := lookUpGipa_eq lib hnone hstr (lib.handle m.libName) cur
  rw [hcur] at hkept
  rw [hrec, hcur, ← hgp]
  refine ⟨fun _ => rfl, fun _ => hgpdpa, rfl, fun _ => hvain, fun h hnf => ?_⟩
  have hown : ownGipa lib m = none := by simpa using h
  have hr := hfresh hnf
  obtain rfl : gipa = none := hkept (hgp.symm.trans hown)
  refine ⟨hr.interfaceVersion, ?_⟩
  rw [← hr.functions, ← hnone]

/-- The record once the negotiation function is kept. -/
def LayerRecord.negotiated (r : LayerRecord) (negotiate : Pfn) : LayerRecord :=
  { r with functions := { r.functions with negotiateLayerInterface := some negotiate } }

/-- The record once an interface version is negotiated. -/
def LayerRecord.versioned (r : LayerRecord) (negotiate : Pfn) (version : ℕ) : LayerRecord :=
  { r.negotiated negotiate with interfaceVersion := version }

theorem negotiateInterface_eq (hstr : r.functions.strNegotiateInterface = m.strNegotiateInterface)
    (cur : CurFunctions) :
    negotiateInterface lib (lib.handle m.libName) r cur =
      match negotiateFunction lib m with
      | none => (r, cur, false)
      | some negotiate =>
        match lib.loaderGetLayerInterfaceVersion negotiate with
        | none => (r.negotiated negotiate, cur, false)
        | some interface =>
          if interface.loaderLayerInterfaceVersion > 1 then
            (r.versioned negotiate interface.loaderLayerInterfaceVersion,
              ⟨interface.pfnGetInstanceProcAddr, interface.pfnGetDeviceProcAddr,
                interface.pfnGetPhysicalDeviceProcAddr⟩, interface.pfnGetInstanceProcAddr.isSome)
          else (r.versioned negotiate interface.loaderLayerInterfaceVersion, cur, false) := by
  unfold negotiateInterface
  rw [hstr]
  rfl

theorem findFunctions_of_negotiated {r' : LayerRecord} {cur cur' : CurFunctions} {libHandle : Handle} {found : Bool}
    (hneg : r.functions.negotiateLayerInterface = none)
    (h : negotiateInterface lib libHandle r cur = (r', cur', found)) :
    findFunctions lib libHandle r cur =
      if found then (r', cur', true)
      else ((lookUpGipa lib libHandle r' cur').1, (lookUpGipa lib libHandle r' cur').2,
        (lookUpGipa lib libHandle r' cur').2.gipa.isSome) := by
  unfold findFunctions
  rw [if_pos (by rw [hneg]; rfl), h]

/-- A layer without an interface: its `vkGetInstanceProcAddr` is looked up. -/
theorem findsOwn_of_no_interface {r' : LayerRecord} {cur : CurFunctions}
    (hneg : r.functions.negotiateLayerInterface = none)
    (h : negotiateInterface lib (lib.handle m.libName) r cur = (r', cur, false)) (hown : ownInterface lib m = none)
    (hversion : ¬ r'.interfaceVersion > 1) (hgipa : r'.functions.getInstanceProcAddr = none)
    (hstr : r'.functions.strGipa = m.strGipa)
    (hvain : (negotiateFunction lib m).isSome → r'.functions.negotiateLayerInterface.isSome)
    (hfresh : negotiateFunction lib m = none → FreshRecord m r') :
    FindsOwn lib m (findFunctions lib (lib.handle m.libName) r cur) := by
  rw [findFunctions_of_negotiated lib hneg h, if_neg Bool.false_ne_true]
  refine findsOwn_lookUp lib hgipa hstr ?_ cur (fun next => ?_) hvain hfresh
  · rw [hown]
    rfl
  · unfold ownGpdpa
    rw [hown]
    simp [hversion]

/-- A layer with an interface: its `vkGetInstanceProcAddr` is looked up if the interface does not have it. -/
theorem findsOwn_of_interface {cur : CurFunctions} {negotiate : Pfn} {interface : NegotiateLayerInterface}
    (hneg : r.functions.negotiateLayerInterface = none)
    (h : negotiateInterface lib (lib.handle m.libName) r cur =
      (r.versioned negotiate interface.loaderLayerInterfaceVersion,
        ⟨interface.pfnGetInstanceProcAddr, interface.pfnGetDeviceProcAddr, interface.pfnGetPhysicalDeviceProcAddr⟩,
        interface.pfnGetInstanceProcAddr.isSome))
    (hown : ownInterface lib m = some interface) (hversion : interface.loaderLayerInterfaceVersion > 1)
    (hgipa : r.functions.getInstanceProcAddr = none) (hstr : r.functions.strGipa = m.strGipa)
    (hsome : negotiateFunction lib m ≠ none) : FindsOwn lib m (findFunctions lib (lib.handle m.libName) r cur) := by
  have hgpdpa : ∀ next, (if (r.versioned negotiate interface.loaderLayerInterfaceVersion).interfaceVersion > 1 &&
      interface.pfnGetPhysicalDeviceProcAddr.isSome then interface.pfnGetPhysicalDeviceProcAddr else next) =
      (ownGpdpa lib m).or next := by
    intro next
    unfold ownGpdpa
    rw [hown, Option.bind_some]
    cases interface.pfnGetPhysicalDeviceProcAddr <;> simp [LayerRecord.versioned, hversion]
  rw [findFunctions_of_negotiated lib hneg h]
  cases hg : interface.pfnGetInstanceProcAddr with
  | none =>
    rw [if_neg (by simp)]
    refine findsOwn_lookUp lib (r := r.versioned negotiate interface.loaderLayerInterfaceVersion) hgipa hstr ?_ _ hgpdpa
      (fun _ => rfl) fun hn => absurd hn hsome
    rw [hown, Option.bind_some, hg]
  | some gipa =>
    have hgp : ownGipa lib m = some gipa := by
      unfold ownGipa
      rw [hown, Option.bind_some, hg]
      rfl
    rw [if_pos (by rfl)]
    exact ⟨fun _ => hgp.symm, fun _ => hgpdpa, by rw [hgp]; rfl, nofun, nofun⟩

/-- **A layer that is met for the first time** comes with its own functions, or is left out. -/
theorem findFunctions_findsOwn (hfresh : FreshRecord m r) (cur : CurFunctions) :
    FindsOwn lib m (findFunctions lib (lib.handle m.libName) r cur) := by
  have hneg : r.functions.negotiateLayerInterface = none := by rw [hfresh.functions]; rfl
  have hgipa : r.functions.getInstanceProcAddr = none := by rw [hfresh.functions]; rfl
  have hstrNeg : r.functions.strNegotiateInterface = m.strNegotiateInterface := by rw [hfresh.functions]; rfl
  have hstrGipa : r.functions.strGipa = m.strGipa := by rw [hfresh.functions]; rfl
  have hversion : ¬ r.interfaceVersion > 1 := by rw [hfresh.interfaceVersion]; omega
  have hnegotiate := negotiateInterface_eq lib hstrNeg cur
  cases hnf : negotiateFunction lib m with
  | none =>
    have hown : ownInterface lib m = none := by unfold ownInterface; rw [hnf]; rfl
    rw [hnf] at hnegotiate
    refine findsOwn_of_no_interface lib hneg hnegotiate hown hversion hgipa hstrGipa (fun h => ?_) fun _ => hfresh
    rw [hnf] at h
    cases h
  | some negotiate =>
    have hsome : negotiateFunction lib m ≠ none := by rw [hnf]; exact Option.some_ne_none _
    rw [hnf] at hnegotiate
    dsimp only at hnegotiate
    cases hv : lib.loaderGetLayerInterfaceVersion negotiate with
    | none =>
      have hown : ownInterface lib m = none := by unfold ownInterface; rw [hnf]; simp [hv]
      rw [hv] at hnegotiate
      exact findsOwn_of_no_interface lib hneg hnegotiate hown hversion hgipa hstrGipa (fun _ => rfl)
        fun h => absurd h hsome
    | some interface =>
      rw [hv] at hnegotiate
      dsimp only at hnegotiate
      split_ifs at hnegotiate with hinterface
      · have hown : ownInterface lib m = some interface := by
          unfold ownInterface
          rw [hnf]
          simp [hv, hinterface]
        exact findsOwn_of_interface lib hneg hnegotiate hown hinterface hgipa hstrGipa hsome
      · have hown : ownInterface lib m = none := by
          unfold ownInterface
          rw [hnf]
          simpa [hv] using hinterface
        exact findsOwn_of_no_interface lib hneg hnegotiate hown hinterface hgipa hstrGipa (fun _ => rfl)
          fun h => absurd h hsome

/-- Where a negotiation function was kept, the variables stay as the last layer left them. -/
theorem findFunctions_of_kept {libHandle : Handle} (hneg : r.functions.negotiateLayerInterface.isSome)
    (cur : CurFunctions) : findFunctions lib libHandle r cur = (r, cur, true) := by
  unfold findFunctions
  rw [if_neg (by simpa [Option.isSome_iff_ne_none] using hneg)]

/-- Finding the functions of a layer writes nothing else in its record. -/
theorem findFunctions_record (libHandle : Handle) (r : LayerRecord) (cur : CurFunctions) :
    (findFunctions lib libHandle r cur).1.layerName = r.layerName ∧
      (findFunctions lib libHandle r cur).1.libName = r.libName ∧
        (findFunctions lib libHandle r cur).1.libHandle = r.libHandle := by
  unfold findFunctions negotiateInterface lookUpGipa
  dsimp only
  split_ifs <;> repeat' split
  all_goals exact ⟨rfl, rfl, rfl⟩

end Find

/-! ### The entries of the list -/

section Entries

variable {lib : LayerLibraries} {manifests : ℕ → LayerManifest} {name : String} {p q : ℕ} {ps : List ℕ}

theorem nameLoads_cons : NameLoads lib manifests name (p :: ps) ↔
    ((manifests p).layerName = name ∧ Loads lib manifests ps.length p) ∨ NameLoads lib manifests name ps :=
  Lib.exists_append_cons (P := fun q post => (manifests q).layerName = name ∧ Loads lib manifests post.length q)

theorem metAgain_cons : MetAgain lib manifests (p :: ps) ↔
    MetAgainAt lib manifests p ps ∨ MetAgain lib manifests ps :=
  Lib.exists_append_cons

theorem negotiatesInVain_cons : NegotiatesInVain lib manifests q (p :: ps) ↔
    (q = p ∧ (negotiateFunction lib (manifests q)).isSome ∧ ownGipa lib (manifests q) = none ∧
      Opens lib manifests ps.length q) ∨ NegotiatesInVain lib manifests q ps := by
  have hsplit := Lib.exists_append_cons (a := p) (l := ps)
    (P := fun b post => b = q ∧ Opens lib manifests post.length b)
  have hq : ∀ l, (∃ pre post, l = pre ++ q :: post ∧ Opens lib manifests post.length q) ↔
      ∃ pre b post, l = pre ++ b :: post ∧ b = q ∧ Opens lib manifests post.length b := by
    intro l
    constructor
    · rintro ⟨pre, post, hl, ho⟩
      exact ⟨pre, q, post, hl, rfl, ho⟩
    · rintro ⟨pre, _, post, hl, rfl, ho⟩
      exact ⟨pre, post, hl, ho⟩
  unfold NegotiatesInVain
  rw [hq, hq, hsplit]
  constructor
  · rintro ⟨hn, ho, ⟨rfl, hopens⟩ | h⟩
    · exact Or.inl ⟨rfl, hn, ho, hopens⟩
    · exact Or.inr ⟨hn, ho, h⟩
  · rintro (⟨rfl, hn, ho, hopens⟩ | ⟨hn, ho, h⟩)
    · exact ⟨hn, ho, Or.inl ⟨rfl, hopens⟩⟩
    · exact ⟨hn, ho, Or.inr h⟩

end Entries

/-! ### The loop -/

section Invariant

variable {lib : LayerLibraries} {manifests : ℕ → LayerManifest} {p : ℕ} {ps : List ℕ} {s s' : InstanceChain}

/-- A layer of the name is in the chain. -/
def InstanceChain.Named (manifests : ℕ → LayerManifest) (s : InstanceChain) (name : String) : Prop :=
  ∃ p ∈ s.activated, (manifests p).layerName = name

/-- What holds after the layers of a list, as long as none was met again: beside a well-formed chain, that the names in
it are those that load, and that the records of the other layers are fresh, except for the negotiation functions that
were kept in vain. -/
structure ChainGood (lib : LayerLibraries) (manifests : ℕ → LayerManifest) (list : List ℕ) (s : InstanceChain) :
    Prop where
  wellFormed : InstanceChainWellFormed lib manifests list s
  layerName : ∀ p, (s.layers p).layerName = (manifests p).layerName
  named : ∀ name, s.Named manifests name ↔ NameLoads lib manifests name list
  libName : ∀ p, ¬ s.Named manifests (manifests p).layerName → (s.layers p).libName = (manifests p).libName
  fresh : ∀ p, ¬ s.Named manifests (manifests p).layerName → ¬ NegotiatesInVain lib manifests p list →
    FreshRecord (manifests p) (s.layers p)
  vain : ∀ p, ¬ s.Named manifests (manifests p).layerName → NegotiatesInVain lib manifests p list →
    (s.layers p).functions.negotiateLayerInterface.isSome

theorem hasLayerProperty_iff (hname : ∀ p, (s.layers p).layerName = (manifests p).layerName) (name : String) :
    s.hasLayerProperty name = true ↔ s.Named manifests name := by
  simp only [InstanceChain.hasLayerProperty, InstanceChain.Named, List.any_eq_true, beq_iff_eq, hname]
  exact exists_congr fun p => and_congr_right fun _ => eq_comm

theorem gipaOf_append (ps : List ℕ) (p : ℕ) : gipaOf lib manifests (ps ++ [p]) = ownGipa lib (manifests p) := by
  unfold gipaOf
  rw [List.getLast?_concat]

theorem gpdpaOf_append (ps : List ℕ) (p : ℕ) :
    gpdpaOf lib manifests (ps ++ [p]) = (ownGpdpa lib (manifests p)).or (gpdpaOf lib manifests ps) := by
  unfold gpdpaOf
  rw [List.reverse_append, List.reverse_singleton, List.singleton_append, List.findSome?_cons]
  cases ownGpdpa lib (manifests p) <;> rfl

theorem links_append (activated : List ℕ) (p : ℕ) :
    (List.range (activated ++ [p]).length).map (linkOf lib manifests (activated ++ [p])) =
      (List.range activated.length).map (linkOf lib manifests activated) ++
        [⟨if activated.length = 0 then none else some (activated.length - 1), gipaOf lib manifests activated,
          gpdpaOf lib manifests activated⟩] := by
  rw [List.length_append, List.length_singleton, List.range_succ, List.map_append]
  congr 1
  · apply List.map_congr_left
    intro i hi
    have hlt := List.mem_range.1 hi
    unfold linkOf
    rw [List.take_append_of_le_length (by omega)]
  · rw [List.map_singleton]
    unfold linkOf
    rw [List.take_left']
    rfl

/-- A layer of the name of one in the chain is skipped. -/
theorem ChainGood.skip (hgood : ChainGood lib manifests ps s) (hnamed : s.Named manifests (manifests p).layerName) :
    ChainGood lib manifests (p :: ps) s := by
  have hw := hgood.wellFormed
  have hloads := (hgood.named _).1 hnamed
  refine ⟨⟨hw.names, hw.order.cons p, hw.opened, hw.loaded, hw.links, hw.layerInfo, hw.nextGipa, hw.nextGpdpa⟩,
    hgood.layerName, fun name => ?_, hgood.libName, fun q hq hv => ?_, fun q hq hv => ?_⟩
  · rw [hgood.named, nameLoads_cons]
    constructor
    · exact Or.inr
    · rintro (⟨rfl, -⟩ | h)
      · exact hloads
      · exact h
  · exact hgood.fresh q hq fun h => hv (negotiatesInVain_cons.2 (Or.inr h))
  · rcases negotiatesInVain_cons.1 hv with ⟨rfl, -⟩ | h
    · exact absurd hnamed hq
    · exact hgood.vain q hq h

/-- A layer that does not load changes its own record only. -/
theorem ChainGood.leaveOut (hgood : ChainGood lib manifests ps s)
    (hnamed : ¬ s.Named manifests (manifests p).layerName) (hloads : ¬ Loads lib manifests ps.length p)
    {r : LayerRecord} (hname : r.layerName = (manifests p).layerName) (hlib : r.libName = (manifests p).libName)
    (hfresh : ¬ NegotiatesInVain lib manifests p (p :: ps) → FreshRecord (manifests p) r)
    (hvain : NegotiatesInVain lib manifests p (p :: ps) → r.functions.negotiateLayerInterface.isSome)
    (cur : CurFunctions) : ChainGood lib manifests (p :: ps) { s.setLayer p r with cur := cur } := by
  have hw := hgood.wellFormed
  have hself : Function.update s.layers p r p = r := Function.update_self p r s.layers
  have hother : ∀ q, q ≠ p → Function.update s.layers p r q = s.layers q :=
    fun q hq => Function.update_of_ne hq r s.layers
  have hnot : p ∉ s.activated := fun hp => hnamed ⟨p, hp, rfl⟩
  have hvain' : ∀ q, q ≠ p → (NegotiatesInVain lib manifests q (p :: ps) ↔ NegotiatesInVain lib manifests q ps) := by
    intro q hq
    rw [negotiatesInVain_cons]
    exact or_iff_right fun h => hq h.1
  refine ⟨⟨hw.names, hw.order.cons p, fun q hq => ?_, hw.loaded, hw.links, hw.layerInfo, hw.nextGipa, hw.nextGpdpa⟩,
    fun q => ?_, fun name => ?_, fun q hq => ?_, fun q hq hv => ?_, fun q hq hv => ?_⟩
  · exact (congrArg LayerRecord.libHandle (hother q fun he => hnot (he ▸ hq))).trans (hw.opened q hq)
  · show (Function.update s.layers p r q).layerName = _
    by_cases he : q = p
    · rw [he, hself, hname]
    · rw [hother q he, hgood.layerName]
  · rw [nameLoads_cons]
    exact (hgood.named name).trans (or_iff_right fun h => hloads h.2).symm
  · show (Function.update s.layers p r q).libName = _
    by_cases he : q = p
    · rw [he, hself, hlib]
    · rw [hother q he, hgood.libName q hq]
  · show FreshRecord _ (Function.update s.layers p r q)
    by_cases he : q = p
    · subst he
      rw [hself]
      exact hfresh hv
    · rw [hother q he]
      exact hgood.fresh q hq fun h => hv ((hvain' q he).2 h)
  · show (Function.update s.layers p r q).functions.negotiateLayerInterface.isSome = true
    by_cases he : q = p
    · subst he
      rw [hself]
      exact hvain hv
    · rw [hother q he]
      exact hgood.vain q hq ((hvain' q he).1 hv)

/-- The variables of the loop after a layer was linked, with the record `prop` for it. -/
def InstanceChain.linked (s : InstanceChain) (p : ℕ) (prop r : LayerRecord) (cur : CurFunctions) : InstanceChain where
  layers := Function.update s.layers p prop
  cur := cur
  nextGipa := cur.gipa
  nextGpdpa := if r.interfaceVersion > 1 && cur.gpdpa.isSome then cur.gpdpa else s.nextGpdpa
  links := s.links ++ [⟨s.layerInfo, s.nextGipa, s.nextGpdpa⟩]
  layerInfo := some s.links.length
  activated := s.activated ++ [p]

theorem linkInstanceLayer_eq_ok {r : LayerRecord} {cur : CurFunctions}
    (h : linkInstanceLayer lib p r { s with cur := cur } = .ok s') :
    ∃ prop, prop.layerName = r.layerName ∧ prop.libHandle = r.libHandle ∧ s' = s.linked p prop r cur := by
  unfold linkInstanceLayer at h
  dsimp only at h
  by_cases hoom : (lib.fixupLibraryBinaryPath r.libName cur.gipa).1 = .errorOutOfHostMemory
  · rw [if_pos hoom] at h
    cases h
  rw [if_neg hoom] at h
  obtain rfl := Except.ok.inj h
  refine ⟨_, ?_, ?_, rfl⟩
  · dsimp only
    unfold keepFunctions
    split_ifs <;> rfl
  · dsimp only
    unfold keepFunctions
    split_ifs <;> rfl

theorem named_linked {prop r : LayerRecord} {cur : CurFunctions} (name : String) :
    (s.linked p prop r cur).Named manifests name ↔ (manifests p).layerName = name ∨ s.Named manifests name := by
  unfold InstanceChain.Named InstanceChain.linked
  simp only [List.mem_append, List.mem_singleton, or_and_right, exists_or, exists_eq_left]
  exact or_comm

/-- The chain stays well formed when a layer that loads is linked. -/
theorem ChainGood.linked_wellFormed (hgood : ChainGood lib manifests ps s)
    (hnamed : ¬ s.Named manifests (manifests p).layerName) (hloads : Loads lib manifests ps.length p)
    {r prop : LayerRecord} {cur : CurFunctions} (hfinds : FindsOwn lib (manifests p) (r, cur, true))
    (hhandle : prop.libHandle = some (lib.handle (manifests p).libName)) :
    InstanceChainWellFormed lib manifests (p :: ps) (s.linked p prop r cur) := by
  have hw := hgood.wellFormed
  refine ⟨?_, ?_, fun q hq => ?_, fun q hq => ?_, ?_, ?_, ?_, ?_⟩
  · -- distinct names
    unfold InstanceChain.linked
    rw [List.map_append, List.nodup_append]
    refine ⟨hw.names, List.nodup_singleton _, ?_⟩
    rintro _ hn _ hp rfl
    obtain ⟨q, hq, he⟩ := List.mem_map.1 hn
    rw [List.map_singleton, List.mem_singleton] at hp
    exact hnamed ⟨q, hq, he.trans hp⟩
  · unfold InstanceChain.linked
    rw [List.reverse_append, List.reverse_singleton]
    exact hw.order.cons_cons p
  · show (Function.update s.layers p prop q).libHandle = _
    by_cases he : q = p
    · rw [he, Function.update_self]
      exact hhandle
    · rw [Function.update_of_ne he]
      exact hw.opened q (by simpa [InstanceChain.linked, he] using hq)
  · rcases List.mem_append.1 hq with hq | hq
    · exact hw.loaded q hq
    · rw [List.mem_singleton.1 hq]
      exact hloads.2
  · unfold InstanceChain.linked
    rw [links_append, ← hw.links, ← hw.layerInfo, ← hw.nextGipa, ← hw.nextGpdpa]
  · have hlen : s.links.length = s.activated.length := by rw [hw.links, List.length_map, List.length_range]
    simp [InstanceChain.linked, hlen]
  · unfold InstanceChain.linked
    rw [gipaOf_append]
    exact hfinds.gipa rfl
  · unfold InstanceChain.linked
    rw [gpdpaOf_append, ← hw.nextGpdpa]
    exact hfinds.gpdpa rfl s.nextGpdpa

/-- A layer that loads is linked through its own functions. -/
theorem ChainGood.link (hgood : ChainGood lib manifests ps s)
    (hnamed : ¬ s.Named manifests (manifests p).layerName) (hloads : Loads lib manifests ps.length p)
    {found : LayerRecord × CurFunctions × Bool} (hfinds : FindsOwn lib (manifests p) found)
    (hname : found.1.layerName = (manifests p).layerName)
    (hhandle : found.1.libHandle = some (lib.handle (manifests p).libName)) (hfound : found.2.2 = true)
    (h : linkInstanceLayer lib p found.1 { s with cur := found.2.1 } = .ok s') :
    ChainGood lib manifests (p :: ps) s' := by
  obtain ⟨r, cur, fnd⟩ := found
  dsimp only at hname hhandle hfound h
  subst hfound
  obtain ⟨prop, hpropName, hpropHandle, rfl⟩ := linkInstanceLayer_eq_ok h
  have hunnamed : ∀ q, ¬ (s.linked p prop r cur).Named manifests (manifests q).layerName →
      q ≠ p ∧ ¬ s.Named manifests (manifests q).layerName := by
    intro q hq
    rw [named_linked] at hq
    obtain ⟨hqp, hq⟩ := not_or.1 hq
    exact ⟨fun he => hqp (by rw [he]), hq⟩
  refine ⟨hgood.linked_wellFormed hnamed hloads hfinds (hpropHandle.trans hhandle), fun q => ?_, fun name => ?_,
    fun q hq => ?_, fun q hq hv => ?_, fun q hq hv => ?_⟩
  · show (Function.update s.layers p prop q).layerName = _
    by_cases he : q = p
    · rw [he, Function.update_self]
      exact hpropName.trans hname
    · rw [Function.update_of_ne he, hgood.layerName]
  · rw [nameLoads_cons]
    refine (named_linked name).trans (or_congr ?_ (hgood.named name))
    exact ⟨fun he => ⟨he, hloads⟩, fun he => he.1⟩
  · obtain ⟨hne, hq⟩ := hunnamed q hq
    show (Function.update s.layers p prop q).libName = _
    rw [Function.update_of_ne hne, hgood.libName q hq]
  · obtain ⟨hne, hq⟩ := hunnamed q hq
    show FreshRecord _ (Function.update s.layers p prop q)
    rw [Function.update_of_ne hne]
    exact hgood.fresh q hq fun h => hv (negotiatesInVain_cons.2 (Or.inr h))
  · obtain ⟨hne, hq⟩ := hunnamed q hq
    show (Function.update s.layers p prop q).functions.negotiateLayerInterface.isSome = true
    rw [Function.update_of_ne hne]
    rcases negotiatesInVain_cons.1 hv with ⟨rfl, -⟩ | hv
    · exact absurd rfl hne
    · exact hgood.vain q hq hv

theorem openLayerFile_of_opens {r : LayerRecord} {attempt : ℕ} (hname : r.libName = (manifests p).libName)
    (h : Opens lib manifests attempt p) :
    (lib.openLayerFile attempt r).libHandle = some (lib.handle (manifests p).libName) := by
  unfold LayerLibraries.openLayerFile
  rw [hname]
  exact if_pos h

theorem openLayerFile_of_not_opens {r : LayerRecord} {attempt : ℕ} (hname : r.libName = (manifests p).libName)
    (h : ¬ Opens lib manifests attempt p) : (lib.openLayerFile attempt r).libHandle = none := by
  unfold LayerLibraries.openLayerFile
  rw [hname]
  exact if_neg h

/-- **One round** keeps the invariant, unless it meets a layer again. -/
theorem insertInstanceLayer_good (hgood : ChainGood lib manifests ps s) (hnot : ¬ MetAgainAt lib manifests p ps)
    (h : insertInstanceLayer lib ps.length p s = .ok s') : ChainGood lib manifests (p :: ps) s' := by
  unfold insertInstanceLayer at h
  by_cases hnamed : s.Named manifests (manifests p).layerName
  · rw [if_pos (by rw [hgood.layerName]; exact (hasLayerProperty_iff hgood.layerName _).2 hnamed)] at h
    obtain rfl := Except.ok.inj h
    exact hgood.skip hnamed
  rw [if_neg (by rw [hgood.layerName]; exact mt (hasLayerProperty_iff hgood.layerName _).1 hnamed)] at h
  dsimp only at h
  by_cases hoom : (lib.openLayerFile ps.length (s.layers p)).libStatus = .errorOutOfMemory
  · rw [if_pos hoom] at h
    cases h
  rw [if_neg hoom] at h
  have hopened : (lib.openLayerFile ps.length (s.layers p)).layerName = (manifests p).layerName := hgood.layerName p
  have hlibName : (lib.openLayerFile ps.length (s.layers p)).libName = (manifests p).libName := hgood.libName p hnamed
  by_cases hopens : Opens lib manifests ps.length p
  · -- the library is open: its functions are those of the layer
    have hopen := openLayerFile_of_opens (hgood.libName p hnamed) hopens
    rw [hopen] at h
    dsimp only at h
    have hnv : ¬ NegotiatesInVain lib manifests p ps := fun hv =>
      hnot ⟨hopens, hv, fun hl => hnamed ((hgood.named _).2 hl)⟩
    have hfresh : FreshRecord (manifests p) (lib.openLayerFile ps.length (s.layers p)) :=
      ⟨(hgood.fresh p hnamed hnv).interfaceVersion, (hgood.fresh p hnamed hnv).functions⟩
    have hfinds := findFunctions_findsOwn lib hfresh s.cur
    obtain ⟨hname, hlib, hhandle⟩ := findFunctions_record lib (lib.handle (manifests p).libName)
      (lib.openLayerFile ps.length (s.layers p)) s.cur
    rw [hopen] at hhandle
    generalize findFunctions lib (lib.handle (manifests p).libName) (lib.openLayerFile ps.length (s.layers p)) s.cur =
      found at h hfinds hname hlib hhandle
    rcases hfound : found.2.2 with _ | _
    · rw [hfound, if_neg Bool.false_ne_true] at h
      obtain rfl := Except.ok.inj h
      have hown : ownGipa lib (manifests p) = none := by simpa [hfound] using hfinds.loads.symm
      have hloads : ¬ Loads lib manifests ps.length p := fun hl => by simpa [hown] using hl.2
      apply hgood.leaveOut hnamed hloads (hname.trans hopened) (hlib.trans hlibName)
      · intro hv
        apply hfinds.fresh hfound
        by_contra hneg
        exact hv (negotiatesInVain_cons.2 (Or.inl ⟨rfl, Option.isSome_iff_ne_none.2 hneg, hown, hopens⟩))
      · exact fun hv => hfinds.vain hfound hv.1
    · rw [hfound, if_pos rfl] at h
      have hloads : Loads lib manifests ps.length p := ⟨hopens, by rw [← hfinds.loads, hfound]⟩
      exact hgood.link hnamed hloads hfinds (hname.trans hopened) hhandle hfound h
  · -- the library does not open
    rw [openLayerFile_of_not_opens (hgood.libName p hnamed) hopens] at h
    obtain rfl := Except.ok.inj h
    have hvain : NegotiatesInVain lib manifests p (p :: ps) ↔ NegotiatesInVain lib manifests p ps := by
      rw [negotiatesInVain_cons]
      exact or_iff_right fun hv => hopens hv.2.2.2
    apply hgood.leaveOut hnamed (fun hl => hopens hl.1) hopened hlibName
    · intro hv
      have hfresh := hgood.fresh p hnamed (mt hvain.2 hv)
      exact ⟨hfresh.interfaceVersion, hfresh.functions⟩
    · exact fun hv => hgood.vain p hnamed (hvain.1 hv)

/-- **A layer that is met again** gets into the chain without a function of its own. -/
theorem insertInstanceLayer_metAgain (hgood : ChainGood lib manifests ps s) (hmet : MetAgainAt lib manifests p ps)
    (h : insertInstanceLayer lib ps.length p s = .ok s') : p ∈ s'.activated := by
  obtain ⟨hopens, hvain, hload⟩ := hmet
  have hnamed : ¬ s.Named manifests (manifests p).layerName := mt (hgood.named _).1 hload
  unfold insertInstanceLayer at h
  rw [if_neg (by rw [hgood.layerName]; exact mt (hasLayerProperty_iff hgood.layerName _).1 hnamed)] at h
  dsimp only at h
  have hstatus : (lib.openLayerFile ps.length (s.layers p)).libStatus = .successLoaded := by
    show lib.openLibrary ps.length (s.layers p).libName = _
    rw [hgood.libName p hnamed]
    exact hopens
  rw [if_neg (by rw [hstatus]; decide), openLayerFile_of_opens (hgood.libName p hnamed) hopens] at h
  have hneg : (lib.openLayerFile ps.length (s.layers p)).functions.negotiateLayerInterface.isSome :=
    hgood.vain p hnamed hvain
  dsimp only at h
  rw [findFunctions_of_kept lib hneg, if_pos rfl] at h
  obtain ⟨prop, -, -, rfl⟩ := linkInstanceLayer_eq_ok h
  exact List.mem_append_right _ (List.mem_singleton_self p)

theorem insertInstanceLayer_activated {attempt : ℕ} (h : insertInstanceLayer lib attempt p s = .ok s') :
    s.activated ⊆ s'.activated := by
  unfold insertInstanceLayer at h
  split_ifs at h with hnamed
  · obtain rfl := Except.ok.inj h
    exact List.Subset.refl _
  · dsimp only at h
    split_ifs at h
    split at h
    · obtain rfl := Except.ok.inj h
      exact List.Subset.refl _
    · split_ifs at h
      · obtain ⟨prop, -, -, rfl⟩ := linkInstanceLayer_eq_ok h
        exact List.subset_append_left _ _
      · obtain rfl := Except.ok.inj h
        exact List.Subset.refl _

end Invariant

/-! ### The whole list -/

section Chain

variable {lib : LayerLibraries} {manifests : ℕ → LayerManifest} {list : List ℕ} {s : InstanceChain}

theorem chainGood_start : ChainGood lib manifests [] (.start fun p => (manifests p).record) := by
  refine ⟨⟨List.nodup_nil, List.Sublist.refl _, nofun, nofun, rfl, rfl, rfl, rfl⟩, fun _ => rfl, fun name => ?_,
    fun _ _ => rfl, fun _ _ _ => ⟨rfl, rfl⟩, fun p _ hv => ?_⟩
  · refine iff_of_false nofun ?_
    rintro ⟨pre, p, post, h, -⟩
    exact List.append_ne_nil_of_right_ne_nil pre (List.cons_ne_nil p post) h.symm
  · obtain ⟨-, -, pre, post, h, -⟩ := hv
    exact absurd h.symm (List.append_ne_nil_of_right_ne_nil pre (List.cons_ne_nil p post))

/-- **The whole loop**: a well-formed chain, unless a layer is met again; then a layer is in the chain that has no
`vkGetInstanceProcAddr`. -/
theorem buildInstanceChain_good (h : buildInstanceChain lib (fun p => (manifests p).record) list = .ok s) :
    (¬ MetAgain lib manifests list → ChainGood lib manifests list s) ∧
      (MetAgain lib manifests list → ∃ p ∈ s.activated, ownGipa lib (manifests p) = none) := by
  induction list generalizing s with
  | nil =>
    obtain rfl := Except.ok.inj h
    refine ⟨fun _ => chainGood_start, ?_⟩
    rintro ⟨pre, p, post, hsplit, -⟩
    exact absurd hsplit.symm (List.append_ne_nil_of_right_ne_nil pre (List.cons_ne_nil p post))
  | cons p ps ih =>
    unfold buildInstanceChain at h
    rcases hps : buildInstanceChain lib (fun p => (manifests p).record) ps with res | s₁
    · rw [hps] at h
      cases h
    rw [hps] at h
    have hstep : insertInstanceLayer lib ps.length p s₁ = .ok s := h
    obtain ⟨hgood, hmet⟩ := ih hps
    constructor
    · intro hnot
      rw [metAgain_cons, not_or] at hnot
      exact insertInstanceLayer_good (hgood hnot.2) hnot.1 hstep
    · intro hagain
      by_cases hrest : MetAgain lib manifests ps
      · obtain ⟨q, hq, hnone⟩ := hmet hrest
        exact ⟨q, insertInstanceLayer_activated hstep hq, hnone⟩
      · have hat : MetAgainAt lib manifests p ps := (metAgain_cons.1 hagain).resolve_right hrest
        exact ⟨p, insertInstanceLayer_metAgain (hgood hrest) hat hstep, hat.2.1.2.1⟩

/-- `vkCreateInstance` is the one that `next_gipa` returns. -/
theorem loaderCreateInstanceChain_calls {getProcAddr : Pfn → String → Option Pfn} {layers : ℕ → LayerRecord}
    {enabledLayerNames : List String} {fp : Pfn}
    (h : loaderCreateInstanceChain lib getProcAddr layers list enabledLayerNames = some (.ok (s, fp))) :
    s.nextGipa.bind (fun gipa => getProcAddr gipa "vkCreateInstance") = some fp := by
  unfold loaderCreateInstanceChain at h
  split at h
  · cases h
  split_ifs at h
  · obtain ⟨gipa, hgipa, h⟩ := Option.map_eq_some_iff.1 h
    split at h
    · cases h
    · rename_i hfp
      obtain ⟨rfl, rfl⟩ := Prod.mk.inj (Except.ok.inj h)
      rw [hgipa, Option.bind_some, hfp]
  · cases Option.some.inj h

/-- **The chain is well formed**, and `vkCreateInstance` that of its topmost layer, **exactly if no layer that
negotiated in vain is met again.** -/
theorem instanceChainWellFormed_iff (h : buildInstanceChain lib (fun p => (manifests p).record) list = .ok s) :
    (InstanceChainWellFormed lib manifests list s ∧
      ∀ getProcAddr enabledLayerNames fp,
        loaderCreateInstanceChain lib getProcAddr (fun p => (manifests p).record) list enabledLayerNames =
            some (.ok (s, fp)) →
          (gipaOf lib manifests s.activated).bind (fun gipa => getProcAddr gipa "vkCreateInstance") = some fp) ↔
      ¬ MetAgain lib manifests list := by
  obtain ⟨hgood, hmet⟩ := buildInstanceChain_good h
  constructor
  · rintro ⟨hw, -⟩ hagain
    obtain ⟨p, hp, hnone⟩ := hmet hagain
    have hloaded := hw.loaded p hp
    rw [hnone] at hloaded
    cases hloaded
  · intro hnot
    have hw := (hgood hnot).wellFormed
    refine ⟨hw, fun getProcAddr enabledLayerNames fp hcall => ?_⟩
    rw [← hw.nextGipa]
    exact loaderCreateInstanceChain_calls hcall

end Chain

section Example

/-- The layers `A`, whose negotiation fails and which has no `vkGetInstanceProcAddr`, and `B`. -/
def vainManifests (p : ℕ) : LayerManifest :=
  if p = 0 then ⟨"A", "libA.so", none, none, none⟩ else ⟨"B", "libB.so", none, none, none⟩

/-- The libraries of the layers `A` and `B`. -/
def vainLibraries : LayerLibraries where
  openLibrary _ _ := .successLoaded
  handle name := if name = "libA.so" then 1 else 2
  getProcAddress libHandle name :=
    if libHandle = 1 ∧ name = "vkNegotiateLoaderLayerInterfaceVersion" then some 10
    else if libHandle = 2 ∧ name = "vkGetInstanceProcAddr" then some 20
    else none
  negotiate _ := (.errorInitializationFailed, ⟨0, none, none, none⟩)
  minSupportedVersion := 1
  fixupLibraryBinaryPath name _ := (.success, name)

/-- The layers `A`, which negotiates an interface, `B`, whose function is looked up, and `C`, whose library is missing. -/
def mixedManifests (p : ℕ) : LayerManifest :=
  if p = 0 then ⟨"A", "libA.so", none, none, none⟩
  else if p = 1 then ⟨"B", "libB.so", none, none, none⟩
  else ⟨"C", "libC.so", none, none, none⟩

/-- The libraries of these layers. -/
def mixedLibraries : LayerLibraries :=
  { vainLibraries with
    openLibrary := fun _ name => if name = "libC.so" then .errorFailedToLoad else .successLoaded
    negotiate := fun _ => (.success, ⟨2, some 11, some 12, some 13⟩) }

/-- The list `A`, `C`, `B`, `A`: two layers load, one of them is met again, and one does not load. -/
theorem instanceChainWellFormed_iff_fourEntries : ∃ s,
    buildInstanceChain mixedLibraries (fun p => (mixedManifests p).record) [0, 2, 1, 0] = .ok s ∧
      s.activated = [0, 1] ∧ s.nextGipa = some 20 ∧ s.nextGpdpa = some 13 ∧
      InstanceChainWellFormed mixedLibraries mixedManifests [0, 2, 1, 0] s ∧
      ∀ getProcAddr enabledLayerNames fp,
        loaderCreateInstanceChain mixedLibraries getProcAddr (fun p => (mixedManifests p).record) [0, 2, 1, 0]
            enabledLayerNames = some (.ok (s, fp)) →
          (gipaOf mixedLibraries mixedManifests s.activated).bind (fun gipa => getProcAddr gipa "vkCreateInstance") =
            some fp := by
  -- none of them negotiates in vain
  have hnot : ¬ MetAgain mixedLibraries mixedManifests [0, 2, 1, 0] := by
    rintro ⟨pre, p, post, -, -, ⟨hneg, hnone, -⟩, -⟩
    revert hneg hnone
    unfold mixedManifests
    split_ifs <;> decide
  exact ⟨_, rfl, rfl, rfl, rfl, (instanceChainWellFormed_iff rfl).2 hnot⟩

/-- In the list `A`, `B`, `A` the layer `A` is put above `B` with the functions of `B`. -/
theorem not_instanceChainWellFormed :
    ¬ ∀ lib manifests list s, buildInstanceChain lib (fun p => (manifests p).record) list = .ok s →
      InstanceChainWellFormed lib manifests list s := by
  intro hall
  have hrun : ∃ s, buildInstanceChain vainLibraries (fun p => (vainManifests p).record) [0, 1, 0] = .ok s ∧
      s.activated = [1, 0] ∧ s.nextGipa = some 20 := ⟨_, rfl, rfl, rfl⟩
  obtain ⟨s, hs, hactivated, -⟩ := hrun
  have hloaded := (hall _ _ _ s hs).loaded 0 (by rw [hactivated]; decide)
  have hnone : ownGipa vainLibraries (vainManifests 0) = none := by decide
  rw [hnone] at hloaded
  cases hloaded

end Example

end VulkanLoader
