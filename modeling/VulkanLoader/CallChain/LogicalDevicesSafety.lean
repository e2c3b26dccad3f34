import VulkanLoader.CallChain.LogicalDeviceLists

/-!
# Logical devices over runs

In every run in which a call reaches a succeeding `terminator_CreateDevice` at most once, the lists of the drivers are
chains of distinct devices, a device is found where it was made, and each is freed once.
-/

namespace VulkanLoader

open Lib (Heap)
open Lib.Heap

namespace LogicalDevices

/-! ### Runs -/

/-- The device is in the list of the driver. -/
def Lists (s : LogicalDevices) (t : ℕ) (w : DeviceEntry) : Prop :=
  ∃ ws, Chain LogicalDevice.next s.devices (s.logicalDeviceList t) ws ∧ w ∈ ws

/-- The objects of the listed devices have the dispatch tables of their devices. -/
def OwnTables (s : LogicalDevices) (getDispatch : Handle → ℕ) : Prop :=
  ∀ t ∈ s.icdTerms, ∀ w, s.Lists t w → getDispatch w.2.icdDevice = w.1 ∧
    (w.2.chainDevice ≠ nullHandle → getDispatch w.2.chainDevice = w.1)

/-- The device is being made or destroyed. -/
def Busy (s : LogicalDevices) (dev : ℕ) : Prop :=
  dev ∈ s.creations.map DeviceCreation.dev ∨ dev ∈ s.destructions.map Prod.snd

/-- How layers and the application may call: a chain reaches a terminator of a driver of its instance, which succeeds at
most once, a device is looked up while the objects of all devices are there, and destroyed once, and a driver goes when
no call uses a device of it. -/
def Allowed (s : LogicalDevices) : DeviceStep → Prop
  | .addIcd icdTerm _ _ => icdTerm ∉ s.icdTerms
  | .beginCreate _ _ => True
  | .terminate icdTerm dev _ => icdTerm ∈ s.icdTerms ∧ ⟨dev, s.thisInstance icdTerm, false⟩ ∈ s.creations
  | .endCreate creation _ => creation ∈ s.creations
  | .beginDestroy getDispatch table => s.OwnTables getDispatch ∧ ¬ s.Busy table
  | .endDestroy found => found ∈ s.destructions
  | .destroyIcd icdTerm => icdTerm ∈ s.icdTerms ∧ ∀ w, s.Lists icdTerm w → ¬ s.Busy w.1

/-- Every step of the run is allowed where it is taken. -/
def AllAllowed : List DeviceStep → LogicalDevices → Prop
  | [], _ => True
  | call :: calls, s => s.Allowed call ∧ ∀ s', s.step call = some s' → AllAllowed calls s'

theorem allAllowed_cons {call : DeviceStep} {calls : List DeviceStep} {s s' : LogicalDevices}
    (hstep : s.step call = some s') (hcall : s.Allowed call) (hcalls : AllAllowed calls s') :
    AllAllowed (call :: calls) s := by
  refine ⟨hcall, fun s'' hstep' => ?_⟩
  cases Option.some.inj (hstep.symm.trans hstep')
  exact hcalls

/-- The devices whose chain has not reached a terminator yet. -/
def early (creations : List DeviceCreation) : List ℕ :=
  (creations.filter fun c => !c.terminated).map DeviceCreation.dev

/-- What every allowed step keeps. -/
structure Inv (s : LogicalDevices) (lists : ℕ → List DeviceEntry) (rest : List DeviceEntry) : Prop
    extends Linked s lists rest where
  unlisted : (rest.map Prod.fst).Perm (early s.creations ++ s.unlisted)
  creations : (s.creations.map DeviceCreation.dev).Nodup
  terminated : ∀ c ∈ s.creations, c.terminated = true →
    ∃ t ∈ s.icdTerms, s.thisInstance t = c.inst ∧ c.dev ∈ (lists t).map Prod.fst
  destructions : ∀ p ∈ s.destructions, p.1 ∈ s.icdTerms ∧ p.2 ∈ (lists p.1).map Prod.fst ∧
    p.2 ∉ s.creations.map DeviceCreation.dev
  distinct : (s.destructions.map Prod.snd).Nodup

/-- What a step does to the lists, as lists: a device comes first in one, or leaves the one that it is in. -/
def listStep (l : ℕ → List ℕ) : DeviceStep → ℕ → List ℕ
  | .addIcd icdTerm _ _ => Function.update l icdTerm []
  | .terminate icdTerm dev _ => Function.update l icdTerm (dev :: l icdTerm)
  | .endCreate creation none => fun t => (l t).erase creation.dev
  | .endDestroy found => fun t => (l t).erase found.2
  | .beginCreate _ _ | .endCreate _ (some _) | .beginDestroy _ _ | .destroyIcd _ => l

/-- What a run leaves in the lists. -/
def listsAfter (calls : List DeviceStep) : ℕ → List ℕ := calls.foldl listStep fun _ => []

/-- The lists of the drivers have these devices. -/
def Agree (s : LogicalDevices) (lists : ℕ → List DeviceEntry) (l : ℕ → List ℕ) : Prop :=
  ∀ t ∈ s.icdTerms, (lists t).map Prod.fst = l t

section Runs

variable {s s' : LogicalDevices} {lists lists' : ℕ → List DeviceEntry} {rest rest' : List DeviceEntry} {t t' dev : ℕ}
  {l : ℕ → List ℕ}

theorem Linked.lists_iff (hs : s.Linked lists rest) (ht : t ∈ s.icdTerms) {w : DeviceEntry} :
    s.Lists t w ↔ w ∈ lists t := by
  constructor
  · rintro ⟨ws, hchain, hw⟩
    rwa [(hs.chain t ht).unique hchain]
  · exact fun hw => ⟨lists t, hs.chain t ht, hw⟩

/-- A device is in one list, and nowhere else. -/
theorem Linked.list_unique (hs : s.Linked lists rest) (ht : t ∈ s.icdTerms) (ht' : t' ∈ s.icdTerms)
    (hdev : dev ∈ (lists t).map Prod.fst) (hdev' : dev ∈ (lists t').map Prod.fst) : t = t' := by
  by_contra hne
  have hnd := (hs.split ht).distinct
  rw [List.map_append, List.nodup_append'] at hnd
  refine hnd.2.2 hdev ?_
  obtain ⟨w, hw, rfl⟩ := List.mem_map.1 hdev'
  exact List.mem_map_of_mem (List.mem_append_left _
    (List.mem_flatMap.2 ⟨t', (List.mem_erase_of_ne (Ne.symm hne)).2 ht', hw⟩))

/-- The device of a call is alive. -/
theorem Inv.creation_live (hs : s.Inv lists rest) {c : DeviceCreation} (hc : c ∈ s.creations) :
    c.dev ∈ (s.icdTerms.flatMap lists ++ rest).map Prod.fst := by
  rw [List.map_append, List.mem_append]
  cases hterminated : c.terminated
  · refine .inr (hs.unlisted.mem_iff.2 (List.mem_append_left _ (List.mem_map_of_mem ?_)))
    exact List.mem_filter.2 ⟨hc, by rw [hterminated]; rfl⟩
  · obtain ⟨t, ht, -, hdev⟩ := hs.terminated c hc hterminated
    obtain ⟨w, hw, heq⟩ := List.mem_map.1 hdev
    exact .inl (heq ▸ List.mem_map_of_mem (List.mem_flatMap.2 ⟨t, ht, hw⟩))

/-! ### Steps -/

theorem loaderIcdAdd_inv (hs : s.Inv lists rest) (ht : t ∉ s.icdTerms) (inst n : ℕ) :
    (s.loaderIcdAdd t inst n).Inv (Function.update lists t []) rest := by
  have hperm : (s.icdTerms.take n ++ t :: s.icdTerms.drop n).Perm (t :: s.icdTerms) := by
    refine List.perm_middle.trans ?_
    rw [List.take_append_drop]
  have hsame : ∀ t' ∈ s.icdTerms, t' ≠ t := fun t' ht' heq => ht (heq ▸ ht')
  refine ⟨⟨hperm.nodup_iff.2 (List.nodup_cons.2 ⟨ht, hs.nodup⟩), fun t' ht' => ?_, ?_⟩, hs.unlisted, hs.creations, ?_, ?_,
    hs.distinct⟩
  · rcases List.mem_cons.1 (hperm.mem_iff.1 ht') with rfl | ht'
    · rw [Function.update_self]
      exact Function.update_self ..
    · rw [Function.update_of_ne (hsame t' ht')]
      have hchain := hs.chain t' ht'
      rw [← Function.update_of_ne (hsame t' ht') 0 s.logicalDeviceList] at hchain
      exact hchain
  · refine hs.accounts.perm (List.Perm.append_right rest ?_)
    have hflat : (t :: s.icdTerms).flatMap (Function.update lists t []) = s.icdTerms.flatMap lists := by
      rw [List.flatMap_cons, Function.update_self, List.nil_append]
      exact List.flatMap_congr fun t' ht' => Function.update_of_ne (hsame t' ht') _ _
    rw [← hflat]
    exact (hperm.flatMap_right _).symm
  · intro c hc hterminated
    obtain ⟨t', ht', hinst, hdev⟩ := hs.terminated c hc hterminated
    refine ⟨t', hperm.mem_iff.2 (List.mem_cons_of_mem _ ht'), ?_, ?_⟩
    · exact (Function.update_of_ne (hsame t' ht') _ _).trans hinst
    · rwa [Function.update_of_ne (hsame t' ht')]
  · intro p hp
    obtain ⟨ht', hdev, hnew⟩ := hs.destructions p hp
    refine ⟨hperm.mem_iff.2 (List.mem_cons_of_mem _ ht'), ?_, hnew⟩
    rwa [Function.update_of_ne (hsame p.1 ht')]

theorem loaderIcdAdd_agree (hl : s.Agree lists l) (inst n : ℕ) :
    (s.loaderIcdAdd t inst n).Agree (Function.update lists t []) (Function.update l t []) := by
  intro t' ht'
  by_cases heq : t' = t
  · subst heq
    rw [Function.update_self, Function.update_self, List.map_nil]
  · rw [Function.update_of_ne heq, Function.update_of_ne heq]
    refine hl t' ?_
    rcases List.mem_append.1 ht' with ht' | ht'
    · exact List.mem_of_mem_take ht'
    · exact List.mem_of_mem_drop ((List.mem_cons.1 ht').resolve_left heq)

theorem beginCreate_inv (hs : s.Inv lists rest) (inst wish : ℕ) : ∃ rest', (s.beginCreate inst wish).Inv lists rest' := by
  have hfresh : s.devices.place wish ∉ s.creations.map DeviceCreation.dev := by
    intro hmem
    obtain ⟨c, hc, heq⟩ := List.mem_map.1 hmem
    obtain ⟨w, hw, hdev⟩ := List.mem_map.1 (hs.creation_live hc)
    have hget := hs.accounts.get w hw
    rw [hdev, heq, get_place] at hget
    cases hget
  refine ⟨(s.devices.place wish, ⟨nullHandle, nullHandle, 0⟩) :: rest, ⟨hs.nodup, fun t ht => ?_, ?_⟩, ?_, ?_, ?_, ?_,
    hs.distinct⟩
  · exact (hs.chain t ht).alloc wish _
  · exact (hs.accounts.alloc wish ⟨nullHandle, nullHandle, 0⟩).perm List.perm_middle.symm
  · exact hs.unlisted.cons _
  · exact List.nodup_cons.2 ⟨hfresh, hs.creations⟩
  · intro c hc hterminated
    rcases List.mem_cons.1 hc with rfl | hc
    · cases hterminated
    · exact hs.terminated c hc hterminated
  · intro p hp
    obtain ⟨ht, hdev, hnew⟩ := hs.destructions p hp
    refine ⟨ht, hdev, ?_⟩
    rw [beginCreate, List.map_cons, List.mem_cons, not_or]
    refine ⟨fun heq => ?_, hnew⟩
    obtain ⟨w, hw, hwdev⟩ := List.mem_map.1 hdev
    have hget := (hs.split ht).get w (List.mem_append_left _ hw)
    rw [hwdev, heq, get_place] at hget
    cases hget

theorem early_perm {creations : List DeviceCreation} {c : DeviceCreation} (hc : c ∈ creations) :
    (early creations).Perm (early (c :: creations.erase c)) :=
  ((List.perm_cons_erase hc).filter fun c : DeviceCreation => !c.terminated).map DeviceCreation.dev

/-- Each call has its own device. -/
theorem Inv.creation_gone (hs : s.Inv lists rest) {c : DeviceCreation} (hc : c ∈ s.creations) :
    c.dev ∉ (s.creations.erase c).map DeviceCreation.dev := by
  have hperm := (List.perm_cons_erase hc).map DeviceCreation.dev
  exact (List.nodup_cons.1 (hperm.nodup_iff.1 hs.creations)).1

/-- The device of a call whose chain has reached no terminator is in no list. -/
theorem Inv.early_creation (hs : s.Inv lists rest) {c : DeviceCreation} (hc : c ∈ s.creations)
    (hc' : c.terminated = false) : ∃ w rest', w.1 = c.dev ∧ rest.Perm (w :: rest') ∧
      (rest'.map Prod.fst).Perm (early (s.creations.erase c) ++ s.unlisted) := by
  have hearly : (early s.creations).Perm (c.dev :: early (s.creations.erase c)) := by
    have hperm := early_perm hc
    rw [early, early, List.filter_cons, if_pos (by rw [hc']; rfl), List.map_cons] at hperm
    exact hperm
  have hmem : c.dev ∈ rest.map Prod.fst :=
    hs.unlisted.mem_iff.2 (List.mem_append_left _ (hearly.mem_iff.2 List.mem_cons_self))
  obtain ⟨w, hw, hdev⟩ := List.mem_map.1 hmem
  obtain ⟨us, vs, rfl⟩ := List.append_of_mem hw
  refine ⟨w, us ++ vs, hdev, List.perm_middle, ?_⟩
  have hperm := (List.perm_middle.map Prod.fst).symm.trans (hs.unlisted.trans (hearly.append_right _))
  rw [List.map_cons, hdev, List.cons_append] at hperm
  exact (List.perm_cons _).1 hperm

/-- A terminator has succeeded for the call that makes the device. -/
theorem Inv.mark_creation (hs : s.Inv lists rest) {inst : ℕ} (hc : ⟨dev, inst, false⟩ ∈ s.creations) :
    (s.creations.map fun c => if c.dev = dev then { c with terminated := true } else c).Perm
      (⟨dev, inst, true⟩ :: s.creations.erase ⟨dev, inst, false⟩) := by
  have hne : ∀ c ∈ s.creations.erase ⟨dev, inst, false⟩, c.dev ≠ dev := by
    intro c hc' heq
    have hmem := List.mem_map_of_mem (f := DeviceCreation.dev) hc'
    rw [heq] at hmem
    exact hs.creation_gone hc hmem
  refine ((List.perm_cons_erase hc).map _).trans ?_
  rw [List.map_cons, if_pos rfl]
  refine List.Perm.cons _ (List.Perm.of_eq ?_)
  conv_rhs => rw [← List.map_id (s.creations.erase _)]
  exact List.map_congr_left fun c hc' => if_neg (hne c hc')

theorem terminate_inv (hs : s.Inv lists rest) (ht : t ∈ s.icdTerms)
    (hc : ⟨dev, s.thisInstance t, false⟩ ∈ s.creations) (icdDevice : Handle) :
    ∃ s' d rest', s.terminate t dev icdDevice = some s' ∧ s'.icdTerms = s.icdTerms ∧
      s'.Inv (Function.update lists t ((dev, d) :: lists t)) rest' := by
  obtain ⟨w, rest', rfl, hperm, hrest'⟩ := hs.early_creation hc rfl
  obtain ⟨hget, h, hput, hlinked⟩ := (hs.toLinked.perm hperm).push ht
    (d := { w.2 with icdDevice, next := s.logicalDeviceList t }) rfl
  have hmark := hs.mark_creation hc
  have hdevs : (s.creations.map fun c => if c.dev = w.1 then { c with terminated := true } else c).map
      DeviceCreation.dev = s.creations.map DeviceCreation.dev := by
    rw [List.map_map]
    refine List.map_congr_left fun c _ => ?_
    dsimp only [Function.comp]
    split_ifs <;> rfl
  have hkeep : ∀ t' a, a ∈ (lists t').map Prod.fst → a ∈ (Function.update lists t
      ((w.1, { w.2 with icdDevice, next := s.logicalDeviceList t }) :: lists t) t').map Prod.fst := by
    intro t' a ha
    by_cases heq : t' = t
    · subst heq
      rw [Function.update_self]
      exact List.mem_cons_of_mem _ ha
    · rwa [Function.update_of_ne heq]
  refine ⟨{ s with
    devices := h
    logicalDeviceList := Function.update s.logicalDeviceList t w.1
    creations := s.creations.map fun c => if c.dev = w.1 then { c with terminated := true } else c },
    { w.2 with icdDevice, next := s.logicalDeviceList t }, rest', ?_, rfl,
    ⟨hlinked.congr rfl rfl rfl rfl, ?_, ?_, ?_, ?_, hs.distinct⟩⟩
  · unfold terminate
    simp only [hget, hput, Option.bind_eq_bind, Option.bind_some]
  · refine hrest'.trans (List.Perm.append_right _ ?_)
    exact ((hmark.filter fun c => !c.terminated).map DeviceCreation.dev).symm
  · exact hdevs ▸ hs.creations
  · intro c hc' hterminated
    rcases List.mem_cons.1 (hmark.mem_iff.1 hc') with rfl | hc'
    · refine ⟨t, ht, rfl, ?_⟩
      rw [Function.update_self]
      exact List.mem_cons_self
    · obtain ⟨t', ht', hinst, hdev⟩ := hs.terminated c (List.mem_of_mem_erase hc') hterminated
      exact ⟨t', ht', hinst, hkeep t' c.dev hdev⟩
  · intro p hp
    obtain ⟨ht', hdev, hnot⟩ := hs.destructions p hp
    exact ⟨ht', hkeep p.1 p.2 hdev, hdevs ▸ hnot⟩

theorem terminate_agree (hl : s.Agree lists l) (hicdTerms : s'.icdTerms = s.icdTerms) (d : LogicalDevice) :
    s'.Agree (Function.update lists t ((dev, d) :: lists t)) (Function.update l t (dev :: l t)) := by
  intro t' ht'
  rw [hicdTerms] at ht'
  by_cases heq : t' = t
  · subst heq
    rw [Function.update_self, Function.update_self, List.map_cons, hl t' ht']
  · rw [Function.update_of_ne heq, Function.update_of_ne heq, hl t' ht']

/-- A device has left its list: what is left in the lists. -/
theorem Removed.agree (hremoved : s.Removed s' lists lists' t dev) (hs : s.Linked lists rest) (ht : t ∈ s.icdTerms)
    (hdev : dev ∈ (lists t).map Prod.fst) (hl : s.Agree lists l) : s'.Agree lists' fun t => (l t).erase dev := by
  obtain ⟨devices, logicalDeviceList, rfl⟩ := hremoved.fields
  intro t' ht'
  by_cases heq : t' = t
  · subst heq
    rw [hremoved.erased, hl t' ht']
  · have hnone : dev ∉ (lists t').map Prod.fst := fun hmem => heq (hs.list_unique ht' ht hmem hdev)
    dsimp only
    rw [hremoved.other t' heq, ← hl t' ht', List.erase_of_not_mem hnone]

/-- A device has left its list: what is kept of the calls. -/
theorem Removed.inv (hremoved : s.Removed s' lists lists' t dev) (hs : s.Inv lists rest) (hlinked : s'.Linked lists' rest)
    (ht : t ∈ s.icdTerms) (hdev : dev ∈ (lists t).map Prod.fst) (hcreations : dev ∉ s.creations.map DeviceCreation.dev)
    (hdestructions : dev ∉ s.destructions.map Prod.snd) : s'.Inv lists' rest := by
  have hkeep : ∀ t' ∈ s.icdTerms, ∀ a ≠ dev, a ∈ (lists t').map Prod.fst → a ∈ (lists' t').map Prod.fst := by
    intro t' _ a hne ha
    by_cases heq : t' = t
    · subst heq
      rw [hremoved.erased]
      exact (List.mem_erase_of_ne hne).2 ha
    · rwa [hremoved.other t' heq]
  obtain ⟨devices, logicalDeviceList, rfl⟩ := hremoved.fields
  refine ⟨hlinked, hs.unlisted, hs.creations, ?_, ?_, hs.distinct⟩
  · intro c hc hterminated
    obtain ⟨t', ht', hinst, hmem⟩ := hs.terminated c hc hterminated
    exact ⟨t', ht', hinst, hkeep t' ht' _ (fun heq => hcreations (heq ▸ List.mem_map_of_mem hc)) hmem⟩
  · intro p hp
    obtain ⟨ht', hmem, hnot⟩ := hs.destructions p hp
    exact ⟨ht', hkeep p.1 ht' _ (fun heq => hdestructions (heq ▸ List.mem_map_of_mem hp)) hmem, hnot⟩

/-- What is kept of the calls where one that makes a device is over. -/
theorem Inv.erase_creation (hs : s.Inv lists rest) (c : DeviceCreation) {rest' : List DeviceEntry}
    (hlinked : s'.Linked lists rest') (hicdTerms : s'.icdTerms = s.icdTerms) (hinst : s'.thisInstance = s.thisInstance)
    (hcreations : s'.creations = s.creations.erase c) (hdestructions : s'.destructions = s.destructions)
    (hunlisted : (rest'.map Prod.fst).Perm (early s'.creations ++ s'.unlisted)) : s'.Inv lists rest' := by
  have hsub : (s.creations.erase c).Sublist s.creations := List.erase_sublist
  refine ⟨hlinked, hunlisted, ?_, ?_, ?_, by rw [hdestructions]; exact hs.distinct⟩
  · rw [hcreations]
    exact hs.creations.sublist (hsub.map _)
  · intro c' hc' hterminated
    rw [hcreations] at hc'
    rw [hicdTerms, hinst]
    exact hs.terminated c' (List.mem_of_mem_erase hc') hterminated
  · intro p hp
    rw [hdestructions] at hp
    obtain ⟨ht, hdev, hnot⟩ := hs.destructions p hp
    rw [hicdTerms, hcreations]
    exact ⟨ht, hdev, fun hmem => hnot ((hsub.map _).subset hmem)⟩

/-- A call that makes a device is over, and its device is in a list. -/
theorem Inv.drop_creation (hs : s.Inv lists rest) {c : DeviceCreation} (hc : c ∈ s.creations)
    (hterminated : c.terminated = true) : { s with creations := s.creations.erase c }.Inv lists rest := by
  have hperm := early_perm hc
  rw [early, early, List.filter_cons, if_neg (by rw [hterminated]; decide)] at hperm
  exact hs.erase_creation c (hs.toLinked.congr rfl rfl rfl rfl) rfl rfl rfl rfl (hs.unlisted.trans (hperm.append_right _))

/-- A device of a list is changed: what is kept of the calls. -/
theorem Inv.change_listed (hs : s.Inv lists rest) {devices : Heap LogicalDevice}
    (hlinked : { s with devices }.Linked lists' rest) (hsame : ∀ t, (lists' t).map Prod.fst = (lists t).map Prod.fst) :
    { s with devices }.Inv lists' rest := by
  refine ⟨hlinked, hs.unlisted, hs.creations, ?_, ?_, hs.distinct⟩
  · intro c hc hterminated
    obtain ⟨t, ht, hinst, hdev⟩ := hs.terminated c hc hterminated
    exact ⟨t, ht, hinst, hsame t ▸ hdev⟩
  · intro p hp
    obtain ⟨ht, hdev, hnot⟩ := hs.destructions p hp
    exact ⟨ht, hsame p.1 ▸ hdev, hnot⟩

/-- The end of a call whose chain has reached no terminator. -/
theorem endCreate_unlisted (hs : s.Inv lists rest) {c : DeviceCreation} (hc : c ∈ s.creations)
    (hterminated : c.terminated = false) (chainDevice : Option Handle) :
    ∃ s' rest', s.endCreate c chainDevice = some s' ∧ s'.Inv lists rest' ∧
      ∀ l, s.Agree lists l → s'.Agree lists (listStep l (.endCreate c chainDevice)) := by
  obtain ⟨w, rest', hdev, hperm, hrest'⟩ := hs.early_creation hc hterminated
  have hlinked : { s with creations := s.creations.erase c }.Linked lists (w :: rest') :=
    (hs.toLinked.perm hperm).congr rfl rfl rfl rfl
  rcases chainDevice with _ | chainDevice
  · obtain ⟨devices, hrun, hlinked'⟩ := removeFailedDevice_unlisted hlinked
      (List.filter_subset_self (p := fun t => decide (s.thisInstance t = c.inst)) s.icdTerms)
    rw [hdev] at hrun
    refine ⟨_, rest', hrun, hs.erase_creation c hlinked' rfl rfl rfl rfl hrest', fun l hl t ht => ?_⟩
    have hnone : c.dev ∉ l t := by
      rw [← hdev, ← hl t ht]
      exact hlinked.rest_not_listed ht List.mem_cons_self
    exact (hl t ht).trans (List.erase_of_not_mem hnone).symm
  · obtain ⟨hget, h, hput, hlinked'⟩ := hlinked.put_unlisted { w.2 with chainDevice }
    refine ⟨{ s with
      devices := h
      creations := s.creations.erase c
      unlisted := c.dev :: s.unlisted }, (w.1, { w.2 with chainDevice }) :: rest', ?_,
      hs.erase_creation c (hlinked'.congr rfl rfl rfl rfl) rfl rfl rfl rfl ?_, fun l hl => hl⟩
    · rw [hdev] at hget hput
      dsimp only at hget hput
      unfold endCreate
      simp only [hget, hput, hterminated, Bool.false_eq_true, if_false, Option.bind_eq_bind, Option.bind_some]
    · rw [List.map_cons, hdev]
      exact (hrest'.cons _).trans List.perm_middle.symm

/-- The end of a call for which a terminator has succeeded. -/
theorem endCreate_listed (hs : s.Inv lists rest) {c : DeviceCreation} (hc : c ∈ s.creations)
    (hterminated : c.terminated = true) (chainDevice : Option Handle) :
    ∃ s' lists', s.endCreate c chainDevice = some s' ∧ s'.Inv lists' rest ∧
      ∀ l, s.Agree lists l → s'.Agree lists' (listStep l (.endCreate c chainDevice)) := by
  have hs' := hs.drop_creation hc hterminated
  obtain ⟨t, ht, hinst, hdev⟩ := hs.terminated c hc hterminated
  rcases chainDevice with _ | chainDevice
  · obtain ⟨t', ht', s', lists', hrun, hlinked', hdev', hremoved⟩ := removeFailedDevice_listed hs'.toLinked
      (List.filter_subset_self (p := fun t => decide (s.thisInstance t = c.inst)) s.icdTerms)
      ⟨t, List.mem_filter.2 ⟨ht, decide_eq_true hinst⟩, hdev⟩
    have ht'' : t' ∈ s.icdTerms := (List.mem_filter.1 ht').1
    have hdestructions : c.dev ∉ s.destructions.map Prod.snd := by
      intro hmem
      obtain ⟨p, hp, heq⟩ := List.mem_map.1 hmem
      exact (hs.destructions p hp).2.2 (heq ▸ List.mem_map_of_mem hc)
    exact ⟨s', lists', hrun, hremoved.inv hs' hlinked' ht'' hdev' (hs.creation_gone hc) hdestructions,
      fun l hl => hremoved.agree hs'.toLinked ht'' hdev' hl⟩
  · obtain ⟨d, h, lists', hget, hput, hlinked, hsame⟩ :=
      hs'.toLinked.put_listed ht hdev (f := fun d => { d with chainDevice }) fun _ => rfl
    refine ⟨{ s with devices := h, creations := s.creations.erase c }, lists', ?_, hs'.change_listed hlinked hsame,
      fun l hl t' ht' => (hsame t').trans (hl t' ht')⟩
    dsimp only at hget hput
    unfold endCreate
    simp only [hget, hput, hterminated, if_true, Option.bind_eq_bind, Option.bind_some]

theorem endCreate_inv (hs : s.Inv lists rest) {c : DeviceCreation} (hc : c ∈ s.creations)
    (chainDevice : Option Handle) : ∃ s' lists' rest', s.endCreate c chainDevice = some s' ∧ s'.Inv lists' rest' ∧
      ∀ l, s.Agree lists l → s'.Agree lists' (listStep l (.endCreate c chainDevice)) := by
  cases hterminated : c.terminated
  · obtain ⟨s', rest', hends⟩ := endCreate_unlisted hs hc hterminated chainDevice
    exact ⟨s', lists, rest', hends⟩
  · obtain ⟨s', lists', hends⟩ := endCreate_listed hs hc hterminated chainDevice
    exact ⟨s', lists', rest, hends⟩

/-- **A lookup** by the dispatch table of a device. -/
theorem loaderGetIcdAndDevice_listed (hs : s.Linked lists rest) {getDispatch : Handle → ℕ}
    (hown : s.OwnTables getDispatch) (ht : t ∈ s.icdTerms) (hdev : dev ∈ (lists t).map Prod.fst) :
    s.loaderGetIcdAndDevice getDispatch dev = some (some (t, dev)) := by
  obtain ⟨w, hw, rfl⟩ := List.mem_map.1 hdev
  have htable : ∀ t' ∈ s.icdTerms, ∀ v ∈ lists t', hasTable getDispatch w.1 v.2 = true ↔ v.1 = w.1 := by
    intro t' ht' v hv
    obtain ⟨hicd, hchain⟩ := hown t' ht' v ((hs.lists_iff ht').2 hv)
    unfold hasTable
    simp only [Bool.or_eq_true, Bool.and_eq_true, decide_eq_true_eq, hicd]
    constructor
    · rintro (heq | ⟨hne, heq⟩)
      · exact heq
      · exact (hchain hne).symm.trans heq
    · exact .inl
  rw [loaderGetIcdAndDevice, if_neg (ne_null_of_get ((hs.chain t ht).get hw)),
    findIcdAndDevice_eq hs _ (List.Subset.refl _)]
  -- no driver before has it
  obtain ⟨before, after, hsplit⟩ := List.append_of_mem ht
  have hbefore : ∀ t' ∈ before, ((lists t').find? fun v => hasTable getDispatch w.1 v.2) = none := by
    intro t' ht'
    have hmem : t' ∈ s.icdTerms := by
      rw [hsplit]
      exact List.mem_append_left _ ht'
    refine List.find?_eq_none.2 fun v hv htrue => ?_
    have heq := (htable t' hmem v hv).1 htrue
    have hsame := hs.list_unique hmem ht (List.mem_map_of_mem hv) (heq ▸ List.mem_map_of_mem hw)
    have hnd := hs.nodup
    rw [hsplit, List.nodup_append'] at hnd
    exact hnd.2.2 ht' (hsame ▸ List.mem_cons_self)
  have hfind : ((lists t).find? fun v => hasTable getDispatch w.1 v.2).map Prod.fst = some w.1 := by
    rcases hfind : (lists t).find? fun v => hasTable getDispatch w.1 v.2 with _ | v
    · exact absurd ((htable t ht w hw).2 rfl) (List.find?_eq_none.1 hfind w hw)
    · rw [hfind]
      have htrue := List.find?_some (p := fun v : DeviceEntry => hasTable getDispatch w.1 v.2) hfind
      exact congrArg some ((htable t ht v (List.mem_of_find?_eq_some hfind)).1 htrue)
  obtain ⟨v, hv, heq⟩ := Option.map_eq_some_iff.1 hfind
  rw [hsplit, List.findSome?_append, List.findSome?_eq_none_iff.2 fun t' ht' => by rw [hbefore t' ht']; rfl,
    List.findSome?_cons, hv]
  exact congrArg (fun a => some (some (t, a))) heq

theorem loaderGetIcdAndDevice_unlisted (hs : s.Linked lists rest) {getDispatch : Handle → ℕ}
    (hown : s.OwnTables getDispatch) (hdev : ∀ t ∈ s.icdTerms, dev ∉ (lists t).map Prod.fst) :
    s.loaderGetIcdAndDevice getDispatch dev = some none := by
  unfold loaderGetIcdAndDevice
  split_ifs
  · rfl
  rw [findIcdAndDevice_eq hs _ (List.Subset.refl _), List.findSome?_eq_none_iff.2]
  intro t ht
  rw [List.find?_eq_none.2]
  · rfl
  intro w hw htrue
  obtain ⟨hicd, hchain⟩ := hown t ht w ((hs.lists_iff ht).2 hw)
  unfold hasTable at htrue
  simp only [Bool.or_eq_true, Bool.and_eq_true, decide_eq_true_eq, hicd] at htrue
  have heq : w.1 = dev := by
    rcases htrue with heq | ⟨hne, heq⟩
    · exact heq
    · exact (hchain hne).symm.trans heq
  exact hdev t ht (heq ▸ List.mem_map_of_mem hw)

theorem beginDestroy_inv (hs : s.Inv lists rest) {getDispatch : Handle → ℕ} (hown : s.OwnTables getDispatch)
    (hbusy : ¬ s.Busy dev) : ∃ s', s.beginDestroy getDispatch dev = some s' ∧ s'.icdTerms = s.icdTerms ∧
      s'.Inv lists rest := by
  rw [Busy, not_or] at hbusy
  by_cases hlisted : ∃ t ∈ s.icdTerms, dev ∈ (lists t).map Prod.fst
  · obtain ⟨t, ht, hdev⟩ := hlisted
    rw [beginDestroy, loaderGetIcdAndDevice_listed hs.toLinked hown ht hdev]
    refine ⟨_, rfl, rfl, hs.toLinked.congr rfl rfl rfl rfl, hs.unlisted, hs.creations, hs.terminated, ?_,
      List.nodup_cons.2 ⟨hbusy.2, hs.distinct⟩⟩
    intro p hp
    rcases List.mem_cons.1 hp with rfl | hp
    · exact ⟨ht, hdev, hbusy.1⟩
    · exact hs.destructions p hp
  · rw [beginDestroy, loaderGetIcdAndDevice_unlisted hs.toLinked hown fun t ht hdev => hlisted ⟨t, ht, hdev⟩]
    exact ⟨_, rfl, rfl, hs⟩

theorem endDestroy_inv (hs : s.Inv lists rest) {found : ℕ × ℕ} (hfound : found ∈ s.destructions) :
    ∃ s' lists', s.endDestroy found = some s' ∧ s'.Inv lists' rest ∧
      ∀ l, s.Agree lists l → s'.Agree lists' (listStep l (.endDestroy found)) := by
  obtain ⟨ht, hdev, hnot⟩ := hs.destructions found hfound
  have hsub : (s.destructions.erase found).Sublist s.destructions := List.erase_sublist
  have hs' : { s with destructions := s.destructions.erase found }.Inv lists rest :=
    ⟨hs.toLinked.congr rfl rfl rfl rfl, hs.unlisted, hs.creations, hs.terminated,
      fun p hp => hs.destructions p (hsub.subset hp), hs.distinct.sublist (hsub.map _)⟩
  have hgone : found.2 ∉ (s.destructions.erase found).map Prod.snd := by
    have hperm := (List.perm_cons_erase hfound).map Prod.snd
    exact (List.nodup_cons.1 (hperm.nodup_iff.1 hs.distinct)).1
  obtain ⟨s', lists', hrun, hlinked, hremoved⟩ := loaderRemoveLogicalDevice_ends hs'.toLinked ht hdev
  exact ⟨s', lists', hrun, hremoved.inv hs' hlinked ht hdev hnot hgone,
    fun l hl => hremoved.agree hs'.toLinked ht hdev hl⟩

theorem loaderIcdDestroy_inv (hs : s.Inv lists rest) (ht : t ∈ s.icdTerms) (hidle : ∀ w, s.Lists t w → ¬ s.Busy w.1) :
    ∃ s', s.loaderIcdDestroy t = some s' ∧ s'.icdTerms = s.icdTerms.erase t ∧ s'.Inv lists rest := by
  obtain ⟨devices, hrun, hlinked⟩ := loaderIcdDestroy_ends hs.toLinked ht
  have hfree : ∀ dev ∈ (lists t).map Prod.fst, ¬ s.Busy dev := by
    intro dev hdev
    obtain ⟨w, hw, rfl⟩ := List.mem_map.1 hdev
    exact hidle w ((hs.lists_iff ht).2 hw)
  refine ⟨_, hrun, rfl, hlinked, hs.unlisted, hs.creations, ?_, ?_, hs.distinct⟩
  · intro c hc hterminated
    obtain ⟨t', ht', hinst, hdev⟩ := hs.terminated c hc hterminated
    have hne : t' ≠ t := by
      rintro rfl
      exact hfree c.dev hdev (.inl (List.mem_map_of_mem hc))
    exact ⟨t', (List.mem_erase_of_ne hne).2 ht', hinst, hdev⟩
  · intro p hp
    obtain ⟨ht', hdev, hnot⟩ := hs.destructions p hp
    have hne : p.1 ≠ t := by
      intro heq
      exact hfree p.2 (heq ▸ hdev) (.inr (List.mem_map_of_mem hp))
    exact ⟨(List.mem_erase_of_ne hne).2 ht', hdev, hnot⟩

/-- **A step** that is allowed keeps the invariant, and does to the lists what it would do to lists. -/
theorem step_inv (hs : s.Inv lists rest) {call : DeviceStep} (hcall : s.Allowed call) :
    ∃ s' lists' rest', s.step call = some s' ∧ s'.Inv lists' rest' ∧
      ∀ l, s.Agree lists l → s'.Agree lists' (listStep l call) := by
  cases call with
  | addIcd icdTerm inst n =>
    exact ⟨_, _, rest, rfl, loaderIcdAdd_inv hs hcall inst n, fun l hl => loaderIcdAdd_agree hl inst n⟩
  | beginCreate inst wish =>
    obtain ⟨rest', hinv⟩ := beginCreate_inv hs inst wish
    exact ⟨_, lists, rest', rfl, hinv, fun l hl => hl⟩
  | terminate icdTerm dev icdDevice =>
    obtain ⟨s', d, rest', hrun, hicdTerms, hinv⟩ := terminate_inv hs hcall.1 hcall.2 icdDevice
    exact ⟨s', _, rest', hrun, hinv, fun l hl => terminate_agree hl hicdTerms d⟩
  | endCreate creation chainDevice => exact endCreate_inv hs hcall chainDevice
  | beginDestroy getDispatch table =>
    obtain ⟨s', hrun, hicdTerms, hinv⟩ := beginDestroy_inv hs hcall.1 hcall.2
    exact ⟨s', lists, rest, hrun, hinv, fun l hl t ht => hl t (hicdTerms ▸ ht)⟩
  | endDestroy found =>
    obtain ⟨s', lists', hrun, hinv, hagree⟩ := endDestroy_inv hs hcall
    exact ⟨s', lists', rest, hrun, hinv, hagree⟩
  | destroyIcd icdTerm =>
    obtain ⟨s', hrun, hicdTerms, hinv⟩ := loaderIcdDestroy_inv hs hcall.1 hcall.2
    exact ⟨s', lists, rest, hrun, hinv, fun l hl t ht => hl t (List.mem_of_mem_erase (hicdTerms ▸ ht))⟩

theorem start_inv : start.Inv (fun _ => []) [] :=
  ⟨⟨List.nodup_nil, fun _ h => absurd h List.not_mem_nil, .empty⟩, List.Perm.refl _, List.nodup_nil,
    fun _ h => absurd h List.not_mem_nil, fun _ h => absurd h List.not_mem_nil, List.nodup_nil⟩

theorem start_agree : start.Agree (fun _ => []) fun _ => [] := fun _ ht => absurd ht List.not_mem_nil

theorem runSteps_inv {calls : List DeviceStep} (hs : s.Inv lists rest) (hl : s.Agree lists l)
    (hcalls : AllAllowed calls s) : ∃ s' lists' rest', runSteps calls s = some s' ∧ s'.Inv lists' rest' ∧
      s'.Agree lists' (calls.foldl listStep l) := by
  induction calls generalizing s lists rest l with
  | nil => exact ⟨s, lists, rest, rfl, hs, hl⟩
  | cons call calls ih =>
    obtain ⟨s₁, lists₁, rest₁, hstep, hinv, hagree⟩ := step_inv hs hcalls.1
    obtain ⟨s', lists', rest', hrun, hinv', hl'⟩ := ih hinv (hagree l hl) (hcalls.2 s₁ hstep)
    refine ⟨s', lists', rest', ?_, hinv', hl'⟩
    rw [runSteps, hstep, Option.bind_some, hrun]

/-! ### What runs keep -/

/-- The lists of the drivers are chains, and no device is in two of them. -/
structure ListsApart (s : LogicalDevices) : Prop where
  ends : ∀ t ∈ s.icdTerms, ∃ ws, Chain LogicalDevice.next s.devices (s.logicalDeviceList t) ws
  apart : ∀ t ∈ s.icdTerms, ∀ t' ∈ s.icdTerms, ∀ w, s.Lists t w → s.Lists t' w → t = t'

/-- The devices are kept as they are to be: each is found where it was made, and what was allocated was freed once, or is
a listed device, one whose chain has not reached a terminator yet, or one whose chain never did. -/
structure KeepsDevices (s : LogicalDevices) : Prop extends ListsApart s where
  found : ∀ getDispatch, s.OwnTables getDispatch → ∀ t ∈ s.icdTerms, ∀ w, s.Lists t w →
    s.loaderGetIcdAndDevice getDispatch w.1 = some (some (t, w.1))
  notFound : ∀ getDispatch, s.OwnTables getDispatch → ∀ table, (∀ t ∈ s.icdTerms, ∀ w, s.Lists t w → w.1 ≠ table) →
    s.loaderGetIcdAndDevice getDispatch table = some none
  freed : ∃ live, s.allocated.Perm (s.devices.freed ++ live) ∧ live.Nodup ∧
    ∀ dev, dev ∈ live ↔ (∃ t ∈ s.icdTerms, ∃ d, s.Lists t (dev, d)) ∨ dev ∈ early s.creations ∨ dev ∈ s.unlisted

theorem Linked.listsApart (hs : s.Linked lists rest) : s.ListsApart where
  ends t ht := ⟨lists t, hs.chain t ht⟩
  apart _ ht _ ht' _ hw hw' := hs.list_unique ht ht' (List.mem_map_of_mem ((hs.lists_iff ht).1 hw))
    (List.mem_map_of_mem ((hs.lists_iff ht').1 hw'))

theorem Inv.keepsDevices (hs : s.Inv lists rest) : s.KeepsDevices where
  toListsApart := hs.toLinked.listsApart
  found getDispatch hown t ht w hw :=
    loaderGetIcdAndDevice_listed hs.toLinked hown ht (List.mem_map_of_mem ((hs.lists_iff ht).1 hw))
  notFound getDispatch hown table hnone := by
    refine loaderGetIcdAndDevice_unlisted hs.toLinked hown fun t ht hmem => ?_
    obtain ⟨w, hw, heq⟩ := List.mem_map.1 hmem
    exact hnone t ht w ((hs.lists_iff ht).2 hw) heq
  freed := by
    refine ⟨_, hs.accounts.made, hs.accounts.distinct, fun dev => ?_⟩
    rw [List.map_append, List.mem_append, hs.unlisted.mem_iff, List.mem_append]
    refine or_congr_left ?_
    constructor
    · intro hmem
      obtain ⟨w, hw, rfl⟩ := List.mem_map.1 hmem
      obtain ⟨t, ht, hw⟩ := List.mem_flatMap.1 hw
      exact ⟨t, ht, w.2, (hs.lists_iff ht).2 hw⟩
    · rintro ⟨t, ht, d, hw⟩
      exact List.mem_map.2 ⟨(dev, d), List.mem_flatMap.2 ⟨t, ht, (hs.lists_iff ht).1 hw⟩, rfl⟩

/-- **Every allowed run** keeps the devices. -/
theorem runSteps_keeps {calls : List DeviceStep} (hcalls : AllAllowed calls start) :
    ∃ s, runSteps calls start = some s ∧ s.KeepsDevices := by
  obtain ⟨s, lists, rest, hrun, hinv, -⟩ := runSteps_inv start_inv start_agree hcalls
  exact ⟨s, hrun, hinv.keepsDevices⟩

/-- Of two calls on one driver the first fails after the second has begun; the other device is destroyed in the end. -/
theorem runSteps_keeps_twoCalls : ∃ s, runSteps [.addIcd 3 1 0, .beginCreate 1 5, .beginCreate 1 6, .terminate 3 5 100,
    .terminate 3 6 101, .endCreate ⟨5, 1, true⟩ none, .endCreate ⟨6, 1, true⟩ (some 200), .beginDestroy (fun _ => 6) 6,
    .endDestroy (3, 6)] start = some s ∧ s.KeepsDevices := by
  refine runSteps_keeps ?_
  refine allAllowed_cons rfl List.not_mem_nil ?_
  refine allAllowed_cons rfl trivial ?_
  refine allAllowed_cons rfl trivial ?_
  refine allAllowed_cons rfl ⟨List.mem_cons_self, List.mem_cons_of_mem _ List.mem_cons_self⟩ ?_
  refine allAllowed_cons rfl ⟨List.mem_cons_self, List.mem_cons_self⟩ ?_
  refine allAllowed_cons rfl (List.mem_cons_of_mem _ List.mem_cons_self) ?_
  refine allAllowed_cons rfl List.mem_cons_self ?_
  refine allAllowed_cons rfl ⟨?_, by unfold Busy; decide⟩ ?_
  · rintro t ht w ⟨ws, hchain, hw⟩
    cases List.mem_singleton.1 ht
    have hlist := hchain.unique (show Chain LogicalDevice.next _ _ [(6, ⟨200, 101, 0⟩)] from ⟨rfl, rfl, seg_nil.2 rfl⟩)
    rw [hlist] at hw
    cases List.mem_singleton.1 hw
    exact ⟨rfl, fun _ => rfl⟩
  · exact allAllowed_cons rfl List.mem_cons_self trivial

/-- **Every allowed run** leaves in the lists what it would leave in lists. -/
theorem runSteps_lists {calls : List DeviceStep} (hcalls : AllAllowed calls start) :
    ∃ s, runSteps calls start = some s ∧ ∀ t ∈ s.icdTerms, ∃ ws,
      Chain LogicalDevice.next s.devices (s.logicalDeviceList t) ws ∧ ws.map Prod.fst = listsAfter calls t := by
  obtain ⟨s, lists, rest, hrun, hinv, hagree⟩ := runSteps_inv start_inv start_agree hcalls
  exact ⟨s, hrun, fun t ht => ⟨lists t, hinv.chain t ht, hagree t ht⟩⟩

/-- The device of the call that fails leaves the list from behind the other. -/
theorem runSteps_lists_behind : listsAfter [.addIcd 3 1 0, .beginCreate 1 5, .beginCreate 1 6, .terminate 3 5 100,
    .terminate 3 6 101, .endCreate ⟨5, 1, true⟩ none] 3 = [6] ∧
      ∃ s, runSteps [.addIcd 3 1 0, .beginCreate 1 5, .beginCreate 1 6, .terminate 3 5 100, .terminate 3 6 101,
        .endCreate ⟨5, 1, true⟩ none] start = some s ∧ ∀ t ∈ s.icdTerms, ∃ ws,
          Chain LogicalDevice.next s.devices (s.logicalDeviceList t) ws ∧ ws.map Prod.fst = listsAfter [.addIcd 3 1 0,
            .beginCreate 1 5, .beginCreate 1 6, .terminate 3 5 100, .terminate 3 6 101, .endCreate ⟨5, 1, true⟩ none] t := by
  refine ⟨rfl, runSteps_lists ?_⟩
  refine allAllowed_cons rfl List.not_mem_nil ?_
  refine allAllowed_cons rfl trivial ?_
  refine allAllowed_cons rfl trivial ?_
  refine allAllowed_cons rfl ⟨List.mem_cons_self, List.mem_cons_of_mem _ List.mem_cons_self⟩ ?_
  refine allAllowed_cons rfl ⟨List.mem_cons_self, List.mem_cons_self⟩ ?_
  exact allAllowed_cons rfl (List.mem_cons_of_mem _ List.mem_cons_self) trivial

/-! ### A second terminator -/

/-- A chain does not pass a structure twice. -/
theorem chain_of_seg {h : Heap LogicalDevice} {p : ℕ} {ws vs : List DeviceEntry} (hchain : Chain LogicalDevice.next h p ws)
    (hseg : Seg LogicalDevice.next h p vs p) : vs = [] := by
  have hboth : Chain LogicalDevice.next h p (vs ++ ws) := seg_append.2 ⟨p, hseg, hchain⟩
  exact List.append_left_eq_self.1 (hboth.unique hchain)

/-- After a second success the list of the driver ends no more, or the device is in two lists. -/
theorem terminate_twice (hs : s.Inv lists rest) (ht : t ∈ s.icdTerms) {c : DeviceCreation} (hc : c ∈ s.creations)
    (hterminated : c.terminated = true) (icdDevice : Handle) :
    ∃ s', s.terminate t c.dev icdDevice = some s' ∧ ¬ s'.ListsApart := by
  obtain ⟨t₀, ht₀, -, hdev⟩ := hs.terminated c hc hterminated
  obtain ⟨w, hw, heq⟩ := List.mem_map.1 hdev
  obtain ⟨us, vs, hlist⟩ := List.append_of_mem hw
  have hchain := hs.chain t₀ ht₀
  rw [hlist] at hchain
  have hnd := hchain.nodup
  rw [List.map_append, List.map_cons, List.nodup_middle, List.nodup_cons, List.mem_append, not_or] at hnd
  obtain ⟨r, hus, rfl, hwget, -⟩ := seg_append.1 hchain
  obtain ⟨h, hput, hget, -⟩ := put_of_isSome (by rw [hwget]; rfl : (s.devices.get w.1).isSome)
    { w.2 with icdDevice, next := s.logicalDeviceList t }
  have hus' : Seg LogicalDevice.next h (s.logicalDeviceList t₀) us w.1 := Seg.frame hus hnd.1.1 hget
  have hnew : h.get w.1 = some { w.2 with icdDevice, next := s.logicalDeviceList t } := by
    rw [hget]
    exact if_pos rfl
  refine ⟨{ s with
    devices := h
    logicalDeviceList := Function.update s.logicalDeviceList t w.1
    creations := s.creations.map fun c => if c.dev = w.1 then { c with terminated := true } else c }, ?_,
    fun hapart => ?_⟩
  · unfold terminate
    simp only [← heq, hwget, hput, Option.bind_eq_bind, Option.bind_some]
  obtain ⟨ws, hws⟩ := hapart.ends t ht
  dsimp only at hws
  rw [Function.update_self] at hws
  by_cases hsame : t₀ = t
  · -- the device leads back to itself
    subst hsame
    have hloop := @chain_of_seg h w.1 ws ((w.1, { w.2 with icdDevice, next := s.logicalDeviceList t₀ }) :: us) hws
      ⟨rfl, hnew, hus'⟩
    cases hloop
  · -- the device is in both lists
    cases ws with
    | nil => exact ne_null_of_get hwget hws
    | cons v ws =>
      have hlist₀ : Chain LogicalDevice.next h (Function.update s.logicalDeviceList t w.1 t₀) (us ++ v :: ws) := by
        rw [Function.update_of_ne hsame]
        exact seg_append.2 ⟨w.1, hus', hws⟩
      refine hsame (hapart.apart t₀ ht₀ t ht v ⟨_, hlist₀, ?_⟩ ⟨v :: ws, ?_, List.mem_cons_self⟩)
      · exact List.mem_append_right _ List.mem_cons_self
      · dsimp only
        rw [Function.update_self]
        exact hws

/-- **A second success of a terminator** in one call destroys the lists, and only a second one does. -/
theorem terminate_listsApart_iff {calls : List DeviceStep} (hcalls : AllAllowed calls start)
    (hrun : runSteps calls start = some s) (ht : t ∈ s.icdTerms) {c : DeviceCreation} (hc : c ∈ s.creations)
    (hinst : c.inst = s.thisInstance t) (icdDevice : Handle) :
    ∃ s', s.terminate t c.dev icdDevice = some s' ∧ (s'.ListsApart ↔ c.terminated = false) := by
  obtain ⟨s₀, lists, rest, hrun₀, hs, -⟩ := runSteps_inv start_inv start_agree hcalls
  rw [hrun] at hrun₀
  cases hrun₀
  cases hterminated : c.terminated
  · have hc' : (⟨c.dev, s.thisInstance t, false⟩ : DeviceCreation) ∈ s.creations := by
      rw [← hinst, ← hterminated]
      exact hc
    obtain ⟨s', d, rest', hstep, -, hinv⟩ := terminate_inv hs ht hc' icdDevice
    exact ⟨s', hstep, fun _ => rfl, fun _ => hinv.toLinked.listsApart⟩
  · obtain ⟨s', hstep, hnot⟩ := terminate_twice hs ht hc hterminated icdDevice
    exact ⟨s', hstep, fun hapart => absurd hapart hnot, fun h => absurd h (by decide)⟩

/-- The driver makes a second object for one call. -/
theorem terminate_listsApart_iff_twice : ∃ s s', runSteps [.addIcd 3 1 0, .beginCreate 1 5, .terminate 3 5 100] start =
    some s ∧ s.terminate 3 5 101 = some s' ∧ ¬ s'.ListsApart := by
  have hcalls : AllAllowed [.addIcd 3 1 0, .beginCreate 1 5, .terminate 3 5 100] start := by
    refine allAllowed_cons rfl List.not_mem_nil ?_
    refine allAllowed_cons rfl trivial ?_
    exact allAllowed_cons rfl ⟨List.mem_cons_self, List.mem_cons_self⟩ trivial
  obtain ⟨s', hstep, hapart⟩ := terminate_listsApart_iff (t := 3) hcalls rfl List.mem_cons_self
    (List.mem_cons_self : (⟨5, 1, true⟩ : DeviceCreation) ∈ _) rfl 101
  exact ⟨_, s', rfl, hstep, fun h => absurd (hapart.1 h) (by decide)⟩

end Runs

end LogicalDevices

end VulkanLoader
