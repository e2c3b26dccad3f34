import VulkanLoader.CallChain.LogicalDevices

/-!
# The lists of logical devices

Where the lists of the drivers are chains and share no device, a device is found in its list, leaves it when it is
destroyed or its call fails, and goes with the others when its driver does.
-/

namespace VulkanLoader

open Lib (Heap)
open Lib.Heap

namespace LogicalDevices

/-- A device at its address. -/
abbrev DeviceEntry := ℕ × LogicalDevice

/-- The lists of the drivers are chains, and there are no other devices than those in them and `rest`. -/
structure Linked (s : LogicalDevices) (lists : ℕ → List DeviceEntry) (rest : List DeviceEntry) : Prop where
  nodup : s.icdTerms.Nodup
  chain : ∀ t ∈ s.icdTerms, Chain LogicalDevice.next s.devices (s.logicalDeviceList t) (lists t)
  accounts : s.devices.Accounts s.allocated (s.icdTerms.flatMap lists ++ rest)

section Linked

variable {s s' : LogicalDevices} {lists : ℕ → List DeviceEntry} {rest rest' us vs : List DeviceEntry} {w : DeviceEntry}
  {t : ℕ}

/-- The devices of the other drivers. -/
def others (s : LogicalDevices) (lists : ℕ → List DeviceEntry) (t : ℕ) : List DeviceEntry :=
  (s.icdTerms.erase t).flatMap lists

theorem flatMap_perm (ht : t ∈ s.icdTerms) : (s.icdTerms.flatMap lists).Perm (lists t ++ s.others lists t) :=
  (List.perm_cons_erase ht).flatMap_right lists

theorem others_update (hnd : s.icdTerms.Nodup) (l : List DeviceEntry) :
    s.others (Function.update lists t l) t = s.others lists t := by
  refine List.flatMap_congr fun t' ht' => ?_
  have hne : t' ≠ t := by
    rintro rfl
    exact hnd.not_mem_erase ht'
  exact Function.update_of_ne hne l lists

theorem Linked.split (hs : s.Linked lists rest) (ht : t ∈ s.icdTerms) :
    s.devices.Accounts s.allocated (lists t ++ (s.others lists t ++ rest)) :=
  hs.accounts.perm (((flatMap_perm ht).append_right rest).trans (List.append_assoc _ _ _ ▸ List.Perm.refl _))

/-- **One list is changed.** -/
theorem Linked.change (hs : s.Linked lists rest) (ht : t ∈ s.icdTerms) (l : List DeviceEntry)
    (hicdTerms : s'.icdTerms = s.icdTerms) (hlists : ∀ t' ≠ t, s'.logicalDeviceList t' = s.logicalDeviceList t')
    (hchain : Chain LogicalDevice.next s'.devices (s'.logicalDeviceList t) l)
    (haccounts : s'.devices.Accounts s'.allocated (l ++ (s.others lists t ++ rest'))) :
    s'.Linked (Function.update lists t l) rest' where
  nodup := hicdTerms ▸ hs.nodup
  chain t' ht' := by
    rw [hicdTerms] at ht'
    by_cases heq : t' = t
    · subst heq
      rwa [Function.update_self]
    · rw [Function.update_of_ne heq, hlists t' heq]
      refine Seg.congr (hs.chain t' ht') fun w hw => ?_
      have hmem : w ∈ s.others lists t := List.mem_flatMap.2 ⟨t', (List.mem_erase_of_ne heq).2 ht', hw⟩
      have hbefore := (hs.split ht).get w (List.mem_append_right _ (List.mem_append_left _ hmem))
      have hafter := haccounts.get w (List.mem_append_right _ (List.mem_append_left _ hmem))
      rw [hafter, hbefore]
  accounts := by
    refine haccounts.perm ?_
    have hperm := @flatMap_perm s' (Function.update lists t l) t (hicdTerms ▸ ht)
    rw [Function.update_self, others, hicdTerms, ← others, others_update hs.nodup] at hperm
    rw [hicdTerms, ← List.append_assoc]
    exact (hperm.append_right rest').symm

/-- The devices in no list are as many, in any order. -/
theorem Linked.perm (hs : s.Linked lists rest) (hp : rest.Perm rest') : s.Linked lists rest' :=
  ⟨hs.nodup, hs.chain, hs.accounts.perm (hp.append_left _)⟩

/-- What is kept beside the lists does not matter. -/
theorem Linked.congr (hs : s.Linked lists rest) (hicdTerms : s'.icdTerms = s.icdTerms) (hdevices : s'.devices = s.devices)
    (hlists : s'.logicalDeviceList = s.logicalDeviceList) (hallocated : s'.allocated = s.allocated) :
    s'.Linked lists rest := by
  refine ⟨hicdTerms ▸ hs.nodup, fun t ht => ?_, ?_⟩
  · rw [hdevices, hlists]
    exact hs.chain t (hicdTerms ▸ ht)
  · rw [hdevices, hallocated, hicdTerms]
    exact hs.accounts

theorem Linked.rest_not_listed (hs : s.Linked lists rest) (ht : t ∈ s.icdTerms) {dev : ℕ} (hdev : dev ∈ rest.map Prod.fst) :
    dev ∉ (lists t).map Prod.fst := by
  intro hmem
  have hnd := (hs.split ht).distinct
  rw [List.map_append, List.nodup_append', List.map_append] at hnd
  exact hnd.2.2 hmem (List.mem_append_right _ hdev)

/-! ### A device is changed, or comes into a list -/

/-- A device that is in no list comes first in one. -/
theorem Linked.push (hs : s.Linked lists (w :: rest)) (ht : t ∈ s.icdTerms) {d : LogicalDevice}
    (hnext : d.next = s.logicalDeviceList t) : s.devices.get w.1 = some w.2 ∧
      ∃ devices, s.devices.put w.1 d = some devices ∧
        { s with devices, logicalDeviceList := Function.update s.logicalDeviceList t w.1 }.Linked
          (Function.update lists t ((w.1, d) :: lists t)) rest := by
  have hfirst : s.devices.Accounts s.allocated (w :: (lists t ++ (s.others lists t ++ rest))) := by
    refine (hs.split ht).perm ?_
    rw [← List.append_assoc, ← List.append_assoc]
    exact List.perm_middle
  obtain ⟨h, hput, hget, haccounts⟩ := hfirst.put d
  have hnew : w.1 ∉ (lists t).map Prod.fst := hs.rest_not_listed ht List.mem_cons_self
  refine ⟨hfirst.get w List.mem_cons_self, h, hput,
    hs.change ht _ rfl (fun t' ht' => Function.update_of_ne ht' _ _) ?_ haccounts⟩
  dsimp only
  rw [Function.update_self]
  refine ⟨rfl, ?_, ?_⟩
  · rw [hget]
    exact if_pos rfl
  · rw [hnext]
    exact Seg.frame (hs.chain t ht) hnew hget

/-- A device that is in no list is changed. -/
theorem Linked.put_unlisted (hs : s.Linked lists (w :: rest)) (d : LogicalDevice) : s.devices.get w.1 = some w.2 ∧
    ∃ devices, s.devices.put w.1 d = some devices ∧ { s with devices }.Linked lists ((w.1, d) :: rest) := by
  have hfirst : s.devices.Accounts s.allocated (w :: (s.icdTerms.flatMap lists ++ rest)) :=
    hs.accounts.perm List.perm_middle
  obtain ⟨h, hput, hget, haccounts⟩ := hfirst.put d
  have hnew : ∀ t ∈ s.icdTerms, w.1 ∉ (lists t).map Prod.fst :=
    fun t ht => hs.rest_not_listed ht List.mem_cons_self
  exact ⟨hfirst.get w List.mem_cons_self, h, hput, hs.nodup,
    fun t ht => Seg.frame (hs.chain t ht) (hnew t ht) hget, haccounts.perm List.perm_middle.symm⟩

/-- A device of a list is changed, and leads on as before. -/
theorem Linked.put_listed (hs : s.Linked lists rest) (ht : t ∈ s.icdTerms) {dev : ℕ}
    (hdev : dev ∈ (lists t).map Prod.fst) {f : LogicalDevice → LogicalDevice} (hf : ∀ d, (f d).next = d.next) :
    ∃ d devices lists', s.devices.get dev = some d ∧ s.devices.put dev (f d) = some devices ∧
      { s with devices }.Linked lists' rest ∧ ∀ t', (lists' t').map Prod.fst = (lists t').map Prod.fst := by
  obtain ⟨w, hw, rfl⟩ := List.mem_map.1 hdev
  obtain ⟨us, vs, hlist⟩ := List.append_of_mem hw
  have hchain := hs.chain t ht
  have hall := hs.split ht
  rw [hlist] at hchain hall
  have hnd := hchain.nodup
  rw [List.map_append, List.map_cons, List.nodup_middle, List.nodup_cons, List.mem_append, not_or] at hnd
  obtain ⟨r, -, -, -, hvs⟩ := seg_append.1 hchain
  have hfirst : s.devices.Accounts s.allocated (w :: (us ++ vs ++ (s.others lists t ++ rest))) := by
    refine hall.perm ?_
    rw [List.append_assoc, List.append_assoc]
    exact List.perm_middle
  rw [← hf w.2] at hvs
  obtain ⟨h, hput, hget, haccounts, hchain'⟩ := Chain.relink hchain hfirst hvs hnd.1.1 hnd.1.2
  refine ⟨w.2, h, _, hfirst.get w List.mem_cons_self, hput,
    hs.change ht (us ++ (w.1, f w.2) :: vs) rfl (fun _ _ => rfl) hchain' ?_, fun t' => ?_⟩
  · refine haccounts.perm ?_
    simp only [List.append_assoc, List.cons_append]
    exact List.perm_middle.symm
  · by_cases heq : t' = t
    · subst heq
      rw [Function.update_self, hlist]
      simp only [List.map_append, List.map_cons]
    · rw [Function.update_of_ne heq]

/-! ### Walks -/

theorem walkTo_found {devices : Heap LogicalDevice} (prevDev : ℕ) {dev fuel : ℕ}
    (hchain : Chain LogicalDevice.next devices dev (us ++ w :: vs)) (hw : w.1 ∉ us.map Prod.fst)
    (hfuel : us.length < fuel) : walkTo devices w.1 fuel prevDev dev = some (lastAddr prevDev us, true) := by
  induction us generalizing prevDev dev fuel with
  | nil =>
    obtain ⟨n, rfl⟩ := Nat.exists_eq_succ_of_ne_zero (Nat.ne_of_gt hfuel)
    obtain ⟨rfl, hget, -⟩ := hchain
    rw [walkTo, if_neg (ne_null_of_get hget), if_pos rfl]
    rfl
  | cons u us ih =>
    obtain ⟨n, rfl⟩ := Nat.exists_eq_succ_of_ne_zero (Nat.ne_of_gt (Nat.zero_lt_of_lt hfuel))
    obtain ⟨rfl, hget, hchain⟩ := hchain
    rw [List.map_cons, List.mem_cons, not_or] at hw
    rw [walkTo, if_neg (ne_null_of_get hget), if_neg (Ne.symm hw.1), hget, Option.bind_some]
    exact ih _ hchain hw.2 (Nat.lt_of_succ_lt_succ hfuel)

theorem walkTo_missing {devices : Heap LogicalDevice} {foundDev prevDev dev fuel : ℕ}
    (hchain : Chain LogicalDevice.next devices dev us) (hmissing : foundDev ∉ us.map Prod.fst)
    (hfuel : us.length < fuel) : walkTo devices foundDev fuel prevDev dev = some (lastAddr prevDev us, false) := by
  induction us generalizing prevDev dev fuel with
  | nil =>
    obtain ⟨n, rfl⟩ := Nat.exists_eq_succ_of_ne_zero (Nat.ne_of_gt hfuel)
    rw [walkTo, if_pos (show dev = 0 from hchain)]
    rfl
  | cons u us ih =>
    obtain ⟨n, rfl⟩ := Nat.exists_eq_succ_of_ne_zero (Nat.ne_of_gt (Nat.zero_lt_of_lt hfuel))
    obtain ⟨rfl, hget, hchain⟩ := hchain
    rw [List.map_cons, List.mem_cons, not_or] at hmissing
    rw [walkTo, if_neg (ne_null_of_get hget), if_neg (Ne.symm hmissing.1), hget, Option.bind_some]
    exact ih hchain hmissing.2 (Nat.lt_of_succ_lt_succ hfuel)

/-- A list is walked through within the fuel. -/
theorem Linked.length_lt (hs : s.Linked lists rest) (ht : t ∈ s.icdTerms) : (lists t).length < s.devices.bound + 1 :=
  Nat.lt_succ_of_lt (hs.chain t ht).length_lt

/-! ### A device leaves its list -/

/-- A device was taken out of the list of `t`, and freed. -/
structure Removed (s s' : LogicalDevices) (lists lists' : ℕ → List DeviceEntry) (t dev : ℕ) : Prop where
  fields : ∃ devices logicalDeviceList, s' = { s with devices, logicalDeviceList }
  erased : (lists' t).map Prod.fst = ((lists t).map Prod.fst).erase dev
  other : ∀ t' ≠ t, lists' t' = lists t'

/-- The first device of a list is unlinked. -/
theorem unlink_first (hs : s.Linked lists rest) (ht : t ∈ s.icdTerms) (hlist : lists t = w :: vs) :
    ∃ s' lists', s.unlink t 0 w.1 = some s' ∧ s'.Linked lists' rest ∧ s.Removed s' lists lists' t w.1 := by
  have hchain := hs.chain t ht
  have hall := hs.split ht
  have hnd := hchain.nodup
  rw [hlist] at hchain hall hnd
  have hw : s.devices.get w.1 = some w.2 := hall.get w List.mem_cons_self
  obtain ⟨h, hfree, hget, haccounts⟩ := hall.free
  refine ⟨{ s with devices := h, logicalDeviceList := Function.update s.logicalDeviceList t w.2.next },
    Function.update lists t vs, ?_, hs.change ht vs rfl (fun t' ht' => Function.update_of_ne ht' _ _) ?_ haccounts,
    ⟨_, _, rfl⟩, ?_, fun t' ht' => Function.update_of_ne ht' _ _⟩
  · unfold unlink
    simp only [hw, hfree, ne_eq, not_true, if_false, Option.bind_eq_bind, Option.bind_some]
  · dsimp only
    rw [Function.update_self]
    exact Seg.frame hchain.2.2 (List.nodup_cons.1 hnd).1 hget
  · rw [Function.update_self, hlist, List.map_cons, List.erase_cons_head]

/-- A device behind another one is unlinked; the other one leads past it afterwards. -/
theorem unlink_behind (hs : s.Linked lists rest) (ht : t ∈ s.icdTerms) {u : DeviceEntry}
    (hlist : lists t = us ++ u :: w :: vs) :
    ∃ s' lists', s.unlink t u.1 w.1 = some s' ∧ s'.Linked lists' rest ∧ s.Removed s' lists lists' t w.1 := by
  have hchain := hs.chain t ht
  have hall := hs.split ht
  have hnd := hchain.nodup
  rw [hlist] at hchain hall hnd
  rw [List.map_append, List.map_cons, List.map_cons] at hnd
  have hu := (List.nodup_cons.1 (List.nodup_middle.1 hnd)).1
  have hw := (List.nodup_cons.1 (List.nodup_middle.1 (List.nodup_cons.1 (List.nodup_middle.1 hnd)).2)).1
  rw [List.mem_append, List.mem_cons, not_or, not_or] at hu
  rw [List.mem_append, not_or] at hw
  obtain ⟨r, -, -, -, -, -, hvs⟩ := seg_append.1 hchain
  have hfirst : s.devices.Accounts s.allocated (u :: (us ++ w :: (vs ++ (s.others lists t ++ rest)))) := by
    refine hall.perm ?_
    simp only [List.append_assoc, List.cons_append]
    exact List.perm_middle
  obtain ⟨h₁, hput, hget₁, haccounts₁, hchain₁⟩ :=
    @Chain.relink LogicalDevice LogicalDevice.next s.devices (s.logicalDeviceList t) u s.allocated us (w :: vs) vs _
      { u.2 with next := w.2.next } hchain hfirst hvs hu.1 hu.2.2
  have hsecond : h₁.Accounts s.allocated
      (w :: ((us ++ (u.1, { u.2 with next := w.2.next }) :: vs) ++ (s.others lists t ++ rest))) := by
    refine haccounts₁.perm ?_
    rw [List.perm_iff_count]
    intro v
    simp only [List.count_append, List.count_cons]
    omega
  obtain ⟨h₂, hfree, hget₂, haccounts₂⟩ := hsecond.free
  have hprev : s.devices.get u.1 = some u.2 := hfirst.get u List.mem_cons_self
  have hfound : s.devices.get w.1 = some w.2 :=
    hfirst.get w (List.mem_cons_of_mem _ (List.mem_append_right _ List.mem_cons_self))
  refine ⟨{ s with devices := h₂ }, Function.update lists t (us ++ (u.1, { u.2 with next := w.2.next }) :: vs), ?_,
    hs.change ht _ rfl (fun _ _ => rfl) ?_ haccounts₂, ⟨_, s.logicalDeviceList, rfl⟩, ?_,
    fun t' ht' => Function.update_of_ne ht' _ _⟩
  · unfold unlink
    simp only [hfound, hprev, hput, hfree, ne_eq, ne_null_of_get hprev, not_false_eq_true, if_true,
      Option.bind_eq_bind, Option.bind_some]
  · refine Seg.frame hchain₁ ?_ hget₂
    rw [List.map_append, List.map_cons, List.mem_append, List.mem_cons, not_or, not_or]
    exact ⟨hw.1, fun heq => hu.2.1 heq.symm, hw.2⟩
  · rw [Function.update_self, hlist]
    simp only [List.map_append, List.map_cons]
    rw [List.erase_append_right _ hw.1, List.erase_cons_tail (by simpa using hu.2.1), List.erase_cons_head]

theorem unlink_ends (hs : s.Linked lists rest) (ht : t ∈ s.icdTerms) (hlist : lists t = us ++ w :: vs) :
    ∃ s' lists', s.unlink t (lastAddr 0 us) w.1 = some s' ∧ s'.Linked lists' rest ∧ s.Removed s' lists lists' t w.1 := by
  rcases List.eq_nil_or_concat us with rfl | ⟨us, u, rfl⟩
  · exact unlink_first hs ht hlist
  · rw [List.concat_eq_append] at hlist ⊢
    rw [lastAddr_append]
    rw [List.append_assoc] at hlist
    exact unlink_behind hs ht hlist

/-- The walk to a device of the list finds it. -/
theorem Linked.walkTo_listed (hs : s.Linked lists rest) (ht : t ∈ s.icdTerms) {dev : ℕ}
    (hdev : dev ∈ (lists t).map Prod.fst) : ∃ us w vs, lists t = us ++ w :: vs ∧ w.1 = dev ∧
      walkTo s.devices dev (s.devices.bound + 1) 0 (s.logicalDeviceList t) = some (lastAddr 0 us, true) := by
  obtain ⟨w, hw, rfl⟩ := List.mem_map.1 hdev
  obtain ⟨us, vs, hlist⟩ := List.append_of_mem hw
  have hchain := hs.chain t ht
  have hlength := hs.length_lt ht
  rw [hlist] at hchain hlength
  have hnd := hchain.nodup
  rw [List.map_append, List.map_cons, List.nodup_middle, List.nodup_cons, List.mem_append, not_or] at hnd
  refine ⟨us, w, vs, hlist, rfl, walkTo_found 0 hchain hnd.1.1 ?_⟩
  rw [List.length_append] at hlength
  omega

/-- **`loader_remove_logical_device`** takes a device out of its list. -/
theorem loaderRemoveLogicalDevice_ends (hs : s.Linked lists rest) (ht : t ∈ s.icdTerms) {dev : ℕ}
    (hdev : dev ∈ (lists t).map Prod.fst) : ∃ s' lists', s.loaderRemoveLogicalDevice t dev = some s' ∧
      s'.Linked lists' rest ∧ s.Removed s' lists lists' t dev := by
  obtain ⟨us, w, vs, hlist, rfl, hwalk⟩ := hs.walkTo_listed ht hdev
  rw [loaderRemoveLogicalDevice, hwalk]
  exact unlink_ends hs ht hlist

/-- The failure path takes a device out of the list that it is in. -/
theorem removeFailedDevice_listed (hs : s.Linked lists rest) {dev : ℕ} {ts : List ℕ} (hts : ts ⊆ s.icdTerms)
    (hdev : ∃ t ∈ ts, dev ∈ (lists t).map Prod.fst) : ∃ t ∈ ts, ∃ s' lists', s.removeFailedDevice dev ts = some s' ∧
      s'.Linked lists' rest ∧ dev ∈ (lists t).map Prod.fst ∧ s.Removed s' lists lists' t dev := by
  induction ts with
  | nil =>
    obtain ⟨t, ht, -⟩ := hdev
    cases ht
  | cons t ts ih =>
    have ht : t ∈ s.icdTerms := hts List.mem_cons_self
    by_cases hhere : dev ∈ (lists t).map Prod.fst
    · obtain ⟨us, w, vs, hlist, rfl, hwalk⟩ := hs.walkTo_listed ht hhere
      obtain ⟨s', lists', hrun, hlinked, hremoved⟩ := unlink_ends hs ht hlist
      refine ⟨t, List.mem_cons_self, s', lists', ?_, hlinked, hhere, hremoved⟩
      rw [removeFailedDevice, hwalk]
      exact hrun
    · rw [removeFailedDevice, walkTo_missing (hs.chain t ht) hhere (hs.length_lt ht), Option.bind_some]
      have hrest : ∃ t ∈ ts, dev ∈ (lists t).map Prod.fst := by
        obtain ⟨t', ht', hdev⟩ := hdev
        rcases List.mem_cons.1 ht' with rfl | ht'
        · exact absurd hdev hhere
        · exact ⟨t', ht', hdev⟩
      obtain ⟨t', ht', hends⟩ := ih (fun _ h => hts (List.mem_cons_of_mem _ h)) hrest
      exact ⟨t', List.mem_cons_of_mem _ ht', hends⟩

/-- The failure path frees a device that is in no list. -/
theorem removeFailedDevice_unlisted (hs : s.Linked lists (w :: rest)) {ts : List ℕ} (hts : ts ⊆ s.icdTerms) :
    ∃ devices, s.removeFailedDevice w.1 ts = some { s with devices } ∧ { s with devices }.Linked lists rest := by
  have hall : s.devices.Accounts s.allocated (w :: (s.icdTerms.flatMap lists ++ rest)) :=
    hs.accounts.perm List.perm_middle
  have hw : ∀ t ∈ s.icdTerms, w.1 ∉ (lists t).map Prod.fst :=
    fun t ht => hs.rest_not_listed ht List.mem_cons_self
  induction ts with
  | nil =>
    obtain ⟨h, hfree, hget, haccounts⟩ := hall.free
    refine ⟨h, ?_, hs.nodup, fun t ht => Seg.frame (hs.chain t ht) (hw t ht) hget, haccounts⟩
    rw [removeFailedDevice, hfree]
    rfl
  | cons t ts ih =>
    have ht : t ∈ s.icdTerms := hts List.mem_cons_self
    rw [removeFailedDevice, walkTo_missing (hs.chain t ht) (hw t ht) (hs.length_lt ht), Option.bind_some]
    exact ih fun _ h => hts (List.mem_cons_of_mem _ h)

/-! ### A driver is destroyed -/

theorem destroyDevices_of_chain {devices : Heap LogicalDevice} {dev fuel : ℕ} {made : List ℕ}
    (hchain : Chain LogicalDevice.next devices dev us) (haccounts : devices.Accounts made (us ++ rest))
    (hfuel : us.length < fuel) : ∃ h, destroyDevices fuel dev devices = some h ∧ h.Accounts made rest := by
  induction us generalizing devices dev fuel with
  | nil =>
    obtain ⟨n, rfl⟩ := Nat.exists_eq_succ_of_ne_zero (Nat.ne_of_gt hfuel)
    rw [destroyDevices, if_pos (show dev = 0 from hchain)]
    exact ⟨devices, rfl, haccounts⟩
  | cons u us ih =>
    obtain ⟨n, rfl⟩ := Nat.exists_eq_succ_of_ne_zero (Nat.ne_of_gt (Nat.zero_lt_of_lt hfuel))
    obtain ⟨rfl, hget, hchain⟩ := hchain
    obtain ⟨h, hfree, hget', haccounts'⟩ := haccounts.free
    have hu : u.1 ∉ us.map Prod.fst := by
      have hnd := haccounts.distinct
      rw [List.cons_append, List.map_cons, List.nodup_cons, List.map_append, List.mem_append, not_or] at hnd
      exact hnd.1.1
    rw [destroyDevices, if_neg (ne_null_of_get hget), hget, Option.bind_some, hfree, Option.bind_some]
    exact ih (Seg.frame hchain hu hget') haccounts' (Nat.lt_of_succ_lt_succ hfuel)

theorem loaderIcdDestroy_ends (hs : s.Linked lists rest) (ht : t ∈ s.icdTerms) :
    ∃ devices, s.loaderIcdDestroy t = some { s with devices, icdTerms := s.icdTerms.erase t } ∧
      { s with devices, icdTerms := s.icdTerms.erase t }.Linked lists rest := by
  have hall := hs.split ht
  obtain ⟨h, hdestroy, haccounts⟩ := destroyDevices_of_chain (hs.chain t ht) hall (hs.length_lt ht)
  refine ⟨h, ?_, hs.nodup.erase t, fun t' ht' => ?_, haccounts⟩
  · rw [loaderIcdDestroy, hdestroy]
    rfl
  · refine Seg.congr (hs.chain t' (List.mem_of_mem_erase ht')) fun w hw => ?_
    have hmem : w ∈ s.others lists t ++ rest := List.mem_append_left _ (List.mem_flatMap.2 ⟨t', ht', hw⟩)
    rw [haccounts.get w hmem, hall.get w (List.mem_append_right _ hmem)]

/-! ### A device is looked up -/

theorem findDevice_of_chain {devices : Heap LogicalDevice} {dev fuel : ℕ} (p : LogicalDevice → Bool)
    (hchain : Chain LogicalDevice.next devices dev us) (hfuel : us.length < fuel) :
    findDevice p devices fuel dev = some ((us.find? fun w => p w.2).map Prod.fst) := by
  induction us generalizing dev fuel with
  | nil =>
    obtain ⟨n, rfl⟩ := Nat.exists_eq_succ_of_ne_zero (Nat.ne_of_gt hfuel)
    rw [findDevice, if_pos (show dev = 0 from hchain)]
    rfl
  | cons u us ih =>
    obtain ⟨n, rfl⟩ := Nat.exists_eq_succ_of_ne_zero (Nat.ne_of_gt (Nat.zero_lt_of_lt hfuel))
    obtain ⟨rfl, hget, hchain⟩ := hchain
    rw [findDevice, if_neg (ne_null_of_get hget), hget, Option.bind_some, List.find?_cons]
    cases hp : p u.2
    · rw [if_neg Bool.false_ne_true]
      exact ih hchain (Nat.lt_of_succ_lt_succ hfuel)
    · rw [if_pos rfl]
      rfl

/-- **The lookup** ends, and finds the first device of the first driver that has one. -/
theorem findIcdAndDevice_eq (hs : s.Linked lists rest) (p : LogicalDevice → Bool) {ts : List ℕ} (hts : ts ⊆ s.icdTerms) :
    findIcdAndDevice p s ts = some (ts.findSome? fun t => ((lists t).find? fun w => p w.2).map fun w => (t, w.1)) := by
  induction ts with
  | nil => rfl
  | cons t ts ih =>
    have ht : t ∈ s.icdTerms := hts List.mem_cons_self
    rw [findIcdAndDevice, findDevice_of_chain p (hs.chain t ht) (hs.length_lt ht), Option.bind_some, List.findSome?_cons]
    rcases hfind : (lists t).find? fun w => p w.2 with _ | w
    · rw [hfind]
      exact ih fun _ h => hts (List.mem_cons_of_mem _ h)
    · rw [hfind]
      rfl

end Linked

end LogicalDevices

end VulkanLoader
