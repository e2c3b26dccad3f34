import VulkanLoader.Handles.DebugMessenger
import VulkanLoader.Lib.Lists

/-!
# When debug messengers are kept track of

A create call that fails rolls back over all drivers, whatever their tables hold at the index: the messenger of an
earlier call that was not cleared, memory past the end of a table that was not grown yet, or, if no index could be
reserved, the live messenger at index 0.  `CreateSafe` says that a call meets none of these.  Along every run of safe
calls the drivers are given back what they made, once, and a failure changes nothing.
-/

namespace VulkanLoader

/-! ### Safe calls -/

/-- The roll-back does nothing to a driver that was not reached: the entry is inside its table and null, or there is no
table. -/
def MessengerIcd.Quiet (index : ℕ) (icd : MessengerIcd) : Prop :=
  match icd.debugUtilsMessengerList with
  | none => True
  | some l => index < l.length ∧ (l[index]? = some nullHandle ∨ icd.destroyDebugUtilsMessenger = false)

/-- If a driver fails or its table cannot grow, its entry reads null and the drivers after it are quiet. -/
def RollBackQuiet (callbacks : Option VkAllocationCallbacks) (nextIndex : ℕ) :
    (ℕ → MessengerAnswer) → List MessengerIcd → Prop
  | _, [] => True
  | a, icd :: icds =>
    match growHandleTable callbacks nextIndex icd.debugUtilsMessengerList (a 0).listRequest with
    | none => icd.debugUtilsMessengerList = none ∧ ∀ icd' ∈ icds, icd'.Quiet nextIndex
    | some l =>
      match icd.createDebugUtilsMessenger, (a 0).driver with
      | true, .failed _ _ left =>
        left.getD (l.getD nextIndex nullHandle) = nullHandle ∧ ∀ icd' ∈ icds, icd'.Quiet nextIndex
      | _, _ => RollBackQuiet callbacks nextIndex (fun i => a (i + 1)) icds

/-- **The call rolls back cleanly, should it fail.** -/
def CreateSafe (s : MessengerInstance) : MessengerCall → Prop
  | .create pAllocator a =>
    a.nextIndexAllocated = false ∨
      match loaderGetNextAvailableEntry s.allocCallbacks s.debugUtilsMessengersList pAllocator a.usedListRequest with
      | (_, _, none) => ∀ icd ∈ s.icdTerms, icd.Quiet 0
      | (_, _, some nextIndex) => RollBackQuiet s.allocCallbacks nextIndex a.icd s.icdTerms
  | .destroy _ _ => True

instance (index : ℕ) (icd : MessengerIcd) : Decidable (icd.Quiet index) := by
  unfold MessengerIcd.Quiet
  split <;> infer_instance

instance decidableRollBackQuiet (callbacks : Option VkAllocationCallbacks) (nextIndex : ℕ) :
    ∀ (a : ℕ → MessengerAnswer) (icds : List MessengerIcd), Decidable (RollBackQuiet callbacks nextIndex a icds)
  | _, [] => isTrue trivial
  | a, icd :: icds => by
    haveI := decidableRollBackQuiet callbacks nextIndex (fun i => a (i + 1)) icds
    unfold RollBackQuiet
    split
    · infer_instance
    · split <;> infer_instance

instance (s : MessengerInstance) (c : MessengerCall) : Decidable (CreateSafe s c) := by
  unfold CreateSafe
  split
  · exact @instDecidableOr _ _ _ (by split <;> infer_instance)
  · infer_instance

instance (s : MessengerInstance) (c : MessengerCall) : Decidable (Callable s c) := by
  unfold Callable
  split <;> infer_instance

/-! ### One driver -/

namespace MessengerIcd

/-- What holds of a driver between two calls, the indices `live` being in use. -/
structure Inv (live : List ℕ) (icd : MessengerIcd) : Prop extends Sound live icd where
  nonempty : icd.debugUtilsMessengerList ≠ some []
  covers : ∀ n ∈ live, ∃ l, icd.debugUtilsMessengerList = some l ∧ n < l.length
  valid : ∀ n ∈ live, icd.handles[n]? ≠ some nullHandle

/-- The driver `icd'` is sound, and has the messengers of `icd` at the indices `live`. -/
structure Keeps (live : List ℕ) (icd icd' : MessengerIcd) : Prop where
  inv : Inv live icd'
  handles : ∀ n ∈ live, icd'.handles[n]? = icd.handles[n]?

variable {live : List ℕ} {icd icd' icd'' : MessengerIcd}

theorem Keeps.refl (h : Inv live icd) : Keeps live icd icd := ⟨h, fun _ _ => rfl⟩

theorem Inv.perm {live' : List ℕ} (h : Inv live icd) (hp : live.Perm live') : Inv live' icd where
  balanced := h.balanced.perm hp
  inBounds := h.inBounds
  nonempty := h.nonempty
  covers := fun n hn => h.covers n (hp.mem_iff.2 hn)
  valid := fun n hn => h.valid n (hp.mem_iff.2 hn)

end MessengerIcd

section Driver

open MessengerIcd

variable {callbacks : Option VkAllocationCallbacks} {nextIndex : ℕ} {live : List ℕ} {icd : MessengerIcd}

/-- A table that was extended, and changed at an index not in use, keeps the messengers of the live indices. -/
theorem keeps_handles {l l' : List Handle} (hinv : icd.Inv live)
    (hl : ∀ n ∈ live, l'[n]? = l[n]?) (hext : ∃ added, l = icd.debugUtilsMessengerList.getD [] ++ added) :
    ∀ n ∈ live, ({ icd with debugUtilsMessengerList := some l' } : MessengerIcd).handles[n]? = icd.handles[n]? := by
  intro n hn
  obtain ⟨added, rfl⟩ := hext
  obtain ⟨l₀, hl₀, hlt⟩ := hinv.covers n hn
  unfold MessengerIcd.handles
  simp only [Option.getD_some]
  split_ifs
  · rw [hl n hn, hl₀, Option.getD_some, List.getElem?_append_left hlt]
  · rfl

/-- A table that only grew covers the live indices. -/
theorem covers_of_extends {l : List Handle} (hinv : icd.Inv live)
    (hext : ∃ added, l = icd.debugUtilsMessengerList.getD [] ++ added) : ∀ n ∈ live, n < l.length := by
  intro n hn
  obtain ⟨added, rfl⟩ := hext
  obtain ⟨l₀, hl₀, hlt⟩ := hinv.covers n hn
  rw [hl₀, Option.getD_some, List.length_append]
  omega

/-- A table with an entry for the next index covers it and the live ones. -/
theorem tableCovers_cons {l l' : List Handle} (hlt : nextIndex < l.length) (hcovers : ∀ n ∈ live, n < l.length)
    (hlength : l'.length = l.length) : ∀ n ∈ nextIndex :: live, ∃ l₁, some l' = some l₁ ∧ n < l₁.length := by
  intro n hn
  refine ⟨l', rfl, ?_⟩
  rw [hlength]
  rcases List.mem_cons.1 hn with rfl | hn
  · exact hlt
  · exact hcovers n hn

/-- A driver made its messenger, which stands at the next index. -/
theorem inv_of_made {l : List Handle} {m : Handle} (hinv : icd.Inv live) (hnew : nextIndex ∉ live)
    (hlt : nextIndex < l.length) (hext : ∃ added, l = icd.debugUtilsMessengerList.getD [] ++ added)
    (hc : icd.createDebugUtilsMessenger = true) (hm : m ≠ nullHandle) :
    let icd' : MessengerIcd := { icd with
      debugUtilsMessengerList := some (writeEntry l nextIndex (some m)), log := icd.log ++ [.made m]
      inBounds := icd.inBounds && decide (nextIndex < l.length) }
    icd'.Inv (nextIndex :: live) ∧ ∀ n ∈ live, icd'.handles[n]? = icd.handles[n]? := by
  intro icd'
  have hsame : ∀ n ∈ live, (writeEntry l nextIndex (some m))[n]? = l[n]? := fun n hn =>
    getElem?_writeEntry_of_ne (ne_of_mem_of_not_mem hn hnew) _
  have hkeep : ∀ n ∈ live, icd'.handles[n]? = icd.handles[n]? := keeps_handles hinv hsame hext
  have hself : icd'.handles[nextIndex]? = some m := by
    have hentry : (writeEntry l nextIndex (some m))[nextIndex]? = some m := getElem?_writeEntry_self hlt _
    simp [icd', MessengerIcd.handles, hc, hentry]
  refine ⟨?_, hkeep⟩
  refine { balanced := ?_, inBounds := ?_, nonempty := ?_, covers := ?_, valid := fun n hn => ?_ }
  · exact Lib.Balanced.made (hinv.balanced.congr fun n hn => (hkeep n hn).symm) hself
  · simp [icd', hinv.inBounds, hlt]
  · rw [Ne, Option.some.injEq, ← List.length_eq_zero_iff, length_writeEntry]
    omega
  · exact tableCovers_cons hlt (covers_of_extends hinv hext) (length_writeEntry _ _ _)
  · rcases List.mem_cons.1 hn with rfl | hn
    · rw [hself, Ne, Option.some.injEq]
      exact hm
    · rw [hkeep n hn]
      exact hinv.valid n hn

/-- A driver without the extension has a table that nothing was written to. -/
theorem inv_of_table {l : List Handle} (hinv : icd.Inv live) (hlt : nextIndex < l.length)
    (hext : ∃ added, l = icd.debugUtilsMessengerList.getD [] ++ added)
    (hc : icd.createDebugUtilsMessenger = false) :
    let icd' : MessengerIcd := { icd with debugUtilsMessengerList := some l }
    icd'.Inv (nextIndex :: live) ∧ ∀ n ∈ live, icd'.handles[n]? = icd.handles[n]? := by
  intro icd'
  have hnone : ∀ n : ℕ, icd'.handles[n]? = none := by
    intro n
    simp [icd', MessengerIcd.handles, hc]
  have hkeep : ∀ n ∈ live, icd'.handles[n]? = icd.handles[n]? := keeps_handles hinv (fun _ _ => rfl) hext
  refine ⟨?_, hkeep⟩
  refine { balanced := ?_, inBounds := hinv.inBounds, nonempty := ?_, covers := ?_, valid := fun n _ => ?_ }
  · refine (Lib.balanced_cons_iff fun h _ => ?_).2 (hinv.balanced.congr fun n hn => (hkeep n hn).symm)
    rw [hnone]
    simp
  · rw [Ne, Option.some.injEq, ← List.length_eq_zero_iff]
    omega
  · exact tableCovers_cons hlt (covers_of_extends hinv hext) rfl
  · rw [hnone]
    simp

/-- **A driver that makes its messenger** has it at the next index; the driver without the extension has a table. -/
theorem createMessengerOnIcd_success {a : MessengerAnswer} {icd' : MessengerIcd} (hinv : icd.Inv live)
    (hnew : nextIndex ∉ live) (hused : ∀ m < nextIndex, m ∈ live)
    (h : createMessengerOnIcd callbacks nextIndex a icd = (.success, icd')) :
    icd'.Inv (nextIndex :: live) ∧ ∀ n ∈ live, icd'.handles[n]? = icd.handles[n]? := by
  unfold createMessengerOnIcd at h
  rcases hgrow : growHandleTable callbacks nextIndex icd.debugUtilsMessengerList a.listRequest with _ | l
  · simp [hgrow] at h
  obtain ⟨hlt, hext⟩ := growHandleTable_eq_some hinv.nonempty (fun n hn => hinv.covers n (hused n hn)) hgrow
  simp only [hgrow] at h
  rcases hc : icd.createDebugUtilsMessenger with _ | _
  · rw [if_neg (by simp [hc])] at h
    simp only [Prod.mk.injEq, true_and] at h
    subst h
    exact inv_of_table hinv hlt hext hc
  · rcases hd : a.driver with ⟨m, hm⟩ | ⟨res, herr, left⟩
    · rw [if_pos hc, hd] at h
      simp only [Prod.mk.injEq, true_and] at h
      subst h
      exact inv_of_made hinv hnew hlt hext hc hm
    · simp [hc, hd, herr] at h

theorem destroyMessengerOnIcd_some {l : List Handle} (hlist : icd.debugUtilsMessengerList = some l) :
    destroyMessengerOnIcd nextIndex icd = { icd with
      inBounds := icd.inBounds && decide (nextIndex < l.length)
      log := if l.getD nextIndex nullHandle ≠ nullHandle ∧ icd.destroyDebugUtilsMessenger then
          icd.log ++ [.givenBack (l.getD nextIndex nullHandle)]
        else icd.log } := by
  simp only [destroyMessengerOnIcd, hlist]

/-- Destroying at an index whose entry is inside the table and null, or on a driver without the command. -/
theorem destroyMessengerOnIcd_quiet (hinv : icd.Inv live) (hquiet : icd.Quiet nextIndex) :
    icd.Keeps live (destroyMessengerOnIcd nextIndex icd) := by
  unfold MessengerIcd.Quiet at hquiet
  rcases hlist : icd.debugUtilsMessengerList with _ | l
  · have hsame : destroyMessengerOnIcd nextIndex icd = icd := by simp only [destroyMessengerOnIcd, hlist]
    rw [hsame]
    exact MessengerIcd.Keeps.refl hinv
  · rw [hlist] at hquiet
    obtain ⟨hlt, hnull⟩ := hquiet
    have hlog : ¬ (l.getD nextIndex nullHandle ≠ nullHandle ∧ icd.destroyDebugUtilsMessenger = true) := by
      rintro ⟨h1, h2⟩
      rcases hnull with hnull | hnull
      · exact h1 (by rw [List.getD_eq_getElem?_getD, hnull, Option.getD_some])
      · rw [hnull] at h2
        cases h2
    rw [destroyMessengerOnIcd_some hlist, if_neg hlog]
    exact ⟨⟨⟨hinv.balanced, by simp [hinv.inBounds, hlt]⟩, hinv.nonempty, hinv.covers, hinv.valid⟩, fun _ _ => rfl⟩

/-- **A driver is given back the messenger at an index** that is live no more. -/
theorem destroyMessengerOnIcd_keeps (hinv : icd.Inv (nextIndex :: live)) :
    icd.Keeps live (destroyMessengerOnIcd nextIndex icd) := by
  obtain ⟨l, hlist, hlt⟩ := hinv.covers nextIndex List.mem_cons_self
  have hget : l[nextIndex]? = some l[nextIndex] := List.getElem?_eq_getElem hlt
  have hgetD : l.getD nextIndex nullHandle = l[nextIndex] := by rw [List.getD_eq_getElem?_getD, hget, Option.getD_some]
  have hrest : ∀ {P : ℕ → Prop}, (∀ n ∈ nextIndex :: live, P n) → ∀ n ∈ live, P n := fun h n hn =>
    h n (List.mem_cons_of_mem _ hn)
  rw [destroyMessengerOnIcd_some hlist, hgetD]
  refine ⟨⟨⟨?_, by simp [hinv.inBounds, hlt]⟩, hinv.nonempty, hrest hinv.covers, hrest hinv.valid⟩, fun _ _ => rfl⟩
  by_cases hc : icd.createDebugUtilsMessenger
  · -- the entry of a driver with the extension is its messenger
    have hhandle : icd.handles[nextIndex]? = some l[nextIndex] := by
      rw [MessengerIcd.handles, if_pos hc, hlist, Option.getD_some, hget]
    have hvalid : l[nextIndex] ≠ nullHandle := fun h0 => hinv.valid nextIndex List.mem_cons_self (h0 ▸ hhandle)
    rw [if_pos ⟨hvalid, icd.paired ▸ hc⟩]
    exact hinv.balanced.givenBack hhandle
  · rw [if_neg fun h => hc (icd.paired ▸ h.2)]
    refine (Lib.balanced_cons_iff fun h _ => ?_).1 hinv.balanced
    simp [MessengerIcd.handles, hc]

/-- **A driver that fails** and reads null at the index is left as it was by the roll-back. -/
theorem createMessengerOnIcd_failure {a : MessengerAnswer} {l : List Handle} (hinv : icd.Inv live)
    (hnew : nextIndex ∉ live) (hused : ∀ m < nextIndex, m ∈ live)
    (hgrow : growHandleTable callbacks nextIndex icd.debugUtilsMessengerList a.listRequest = some l)
    (hc : icd.createDebugUtilsMessenger = true) {res : VkResult} {herr : res ≠ .success} {left : Option Handle}
    (hd : a.driver = .failed res herr left) (hnull : left.getD (l.getD nextIndex nullHandle) = nullHandle) :
    createMessengerOnIcd callbacks nextIndex a icd = (res, (createMessengerOnIcd callbacks nextIndex a icd).2) ∧
      icd.Keeps live (destroyMessengerOnIcd nextIndex (createMessengerOnIcd callbacks nextIndex a icd).2) := by
  obtain ⟨hlt, hext⟩ := growHandleTable_eq_some hinv.nonempty (fun n hn => hinv.covers n (hused n hn)) hgrow
  have hcovers := covers_of_extends hinv hext
  set l' : List Handle := writeEntry l nextIndex left with hl'
  have heq : createMessengerOnIcd callbacks nextIndex a icd = (res, { icd with
      debugUtilsMessengerList := some l', inBounds := icd.inBounds && decide (nextIndex < l.length) }) := by
    unfold createMessengerOnIcd
    simp only [hgrow]
    rw [if_pos hc, hd]
  have hlen : l'.length = l.length := length_writeEntry l nextIndex left
  have hread : l'[nextIndex]? = some nullHandle := hnull ▸ getElem?_writeEntry_self hlt left
  have hsame : ∀ n ∈ live, l'[n]? = l[n]? := fun n hn =>
    getElem?_writeEntry_of_ne (ne_of_mem_of_not_mem hn hnew) left
  have hkeep := keeps_handles hinv hsame hext
  rw [heq]
  refine ⟨rfl, ?_⟩
  have hinv' : ({ icd with
      debugUtilsMessengerList := some l', inBounds := icd.inBounds && decide (nextIndex < l.length) } :
      MessengerIcd).Inv live := by
    refine { balanced := ?_, inBounds := by simp [hinv.inBounds, hlt], nonempty := ?_, covers := ?_, valid := ?_ }
    · exact hinv.balanced.congr fun n hn => (hkeep n hn).symm
    · rw [Ne, Option.some.injEq]
      exact List.ne_nil_of_length_pos (by omega)
    · exact fun n hn => ⟨l', rfl, hlen ▸ hcovers n hn⟩
    · intro n hn
      have hv := hinv.valid n hn
      rw [← hkeep n hn] at hv
      exact hv
  have hquiet : ({ icd with
      debugUtilsMessengerList := some l', inBounds := icd.inBounds && decide (nextIndex < l.length) } :
      MessengerIcd).Quiet nextIndex := ⟨by omega, Or.inl hread⟩
  obtain ⟨hinv'', hhandles⟩ := destroyMessengerOnIcd_quiet hinv' hquiet
  exact ⟨hinv'', fun n hn => (hhandles n hn).trans (hkeep n hn)⟩

end Driver

/-! ### All drivers -/

section Drivers

variable {callbacks : Option VkAllocationCallbacks} {nextIndex : ℕ} {live : List ℕ} {icds : List MessengerIcd}

/-- The loop that makes the messengers, where no driver fails. -/
theorem createMessengerOnIcds_success {a : ℕ → MessengerAnswer} (hinv : ∀ icd ∈ icds, icd.Inv live)
    (hnew : nextIndex ∉ live) (hused : ∀ m < nextIndex, m ∈ live)
    (h : (createMessengerOnIcds callbacks nextIndex a icds).1 = .success) :
    List.Forall₂ (fun icd icd' => icd'.Inv (nextIndex :: live) ∧ ∀ n ∈ live, icd'.handles[n]? = icd.handles[n]?) icds
      (createMessengerOnIcds callbacks nextIndex a icds).2 := by
  induction icds generalizing a with
  | nil => exact .nil
  | cons icd icds ih =>
    rcases hstep : createMessengerOnIcd callbacks nextIndex (a 0) icd with ⟨res, icd'⟩
    by_cases hres : res = .success
    · subst hres
      simp only [createMessengerOnIcds, hstep] at h ⊢
      exact .cons (createMessengerOnIcd_success (hinv icd List.mem_cons_self) hnew hused hstep)
        (ih (fun icd hicd => hinv icd (List.mem_cons_of_mem _ hicd)) h)
    · simp only [createMessengerOnIcds, hstep] at h
      exact absurd h hres

/-- The roll-back over drivers that were not reached. -/
theorem destroyMessenger_quiet (hinv : ∀ icd ∈ icds, icd.Inv live) (hquiet : ∀ icd ∈ icds, icd.Quiet nextIndex) :
    List.Forall₂ (MessengerIcd.Keeps live) icds (icds.map (destroyMessengerOnIcd nextIndex)) := by
  rw [List.forall₂_map_right_iff, List.forall₂_same]
  exact fun icd hicd => destroyMessengerOnIcd_quiet (hinv icd hicd) (hquiet icd hicd)

/-- What `RollBackQuiet` says where the first driver makes its messenger. -/
theorem RollBackQuiet.rest {a : ℕ → MessengerAnswer} {icd icd' : MessengerIcd}
    (hquiet : RollBackQuiet callbacks nextIndex a (icd :: icds))
    (hstep : createMessengerOnIcd callbacks nextIndex (a 0) icd = (.success, icd')) :
    RollBackQuiet callbacks nextIndex (fun i => a (i + 1)) icds := by
  unfold RollBackQuiet at hquiet
  unfold createMessengerOnIcd at hstep
  rcases hgrow : growHandleTable callbacks nextIndex icd.debugUtilsMessengerList (a 0).listRequest with _ | l
  · simp [hgrow] at hstep
  · simp only [hgrow] at hquiet hstep
    rcases hc : icd.createDebugUtilsMessenger with _ | _
    · simpa [hc] using hquiet
    · rcases hd : (a 0).driver with ⟨m, hm⟩ | ⟨res, herr, left⟩
      · simpa [hc, hd] using hquiet
      · simp [hc, hd, herr] at hstep

/-- What `RollBackQuiet` says where the first driver fails. -/
theorem RollBackQuiet.fails {a : ℕ → MessengerAnswer} {icd icd' : MessengerIcd} {res : VkResult}
    (hquiet : RollBackQuiet callbacks nextIndex a (icd :: icds)) (hinv : icd.Inv live)
    (hnew : nextIndex ∉ live) (hused : ∀ m < nextIndex, m ∈ live)
    (hstep : createMessengerOnIcd callbacks nextIndex (a 0) icd = (res, icd')) (hres : res ≠ .success) :
    icd.Keeps live (destroyMessengerOnIcd nextIndex icd') ∧ ∀ icd ∈ icds, icd.Quiet nextIndex := by
  unfold RollBackQuiet at hquiet
  rcases hgrow : growHandleTable callbacks nextIndex icd.debugUtilsMessengerList (a 0).listRequest with _ | l
  · -- no table, before and after
    simp only [createMessengerOnIcd, hgrow] at hquiet hstep
    obtain ⟨-, rfl⟩ := Prod.mk.inj hstep
    exact ⟨destroyMessengerOnIcd_quiet hinv (by simp [MessengerIcd.Quiet, hquiet.1]), hquiet.2⟩
  · rcases hc : icd.createDebugUtilsMessenger with _ | _
    · simp [createMessengerOnIcd, hgrow, hc, hres.symm] at hstep
    · rcases hd : (a 0).driver with ⟨m, hm⟩ | ⟨r, herr, left⟩
      · simp [createMessengerOnIcd, hgrow, hc, hd, hres.symm] at hstep
      · simp only [hgrow, hc, hd] at hquiet
        obtain ⟨-, hkeeps⟩ := createMessengerOnIcd_failure hinv hnew hused hgrow hc hd hquiet.1
        rw [hstep] at hkeeps
        exact ⟨hkeeps, hquiet.2⟩

/-- **The loop with its roll-back**: where a driver fails and `RollBackQuiet` holds, every driver is as before. -/
theorem createMessengerOnIcds_rollBack {a : ℕ → MessengerAnswer} (hinv : ∀ icd ∈ icds, icd.Inv live)
    (hnew : nextIndex ∉ live) (hused : ∀ m < nextIndex, m ∈ live) (hquiet : RollBackQuiet callbacks nextIndex a icds)
    (h : (createMessengerOnIcds callbacks nextIndex a icds).1 ≠ .success) :
    List.Forall₂ (MessengerIcd.Keeps live) icds
      ((createMessengerOnIcds callbacks nextIndex a icds).2.map (destroyMessengerOnIcd nextIndex)) := by
  induction icds generalizing a with
  | nil => exact absurd rfl h
  | cons icd icds ih =>
    have hicd := hinv icd List.mem_cons_self
    have hicds : ∀ icd ∈ icds, icd.Inv live := fun icd hicd => hinv icd (List.mem_cons_of_mem _ hicd)
    rcases hstep : createMessengerOnIcd callbacks nextIndex (a 0) icd with ⟨res, icd'⟩
    by_cases hres : res = .success
    · -- this driver made its messenger; the failure is further on
      subst hres
      simp only [createMessengerOnIcds, hstep] at h ⊢
      obtain ⟨hinv', hhandles⟩ := createMessengerOnIcd_success hicd hnew hused hstep
      obtain ⟨hinv'', hhandles'⟩ := destroyMessengerOnIcd_keeps hinv'
      exact .cons ⟨hinv'', fun n hn => (hhandles' n hn).trans (hhandles n hn)⟩ (ih hicds (hquiet.rest hstep) h)
    · have heq : createMessengerOnIcds callbacks nextIndex a (icd :: icds) = (res, icd' :: icds) := by
        simp only [createMessengerOnIcds, hstep]
      obtain ⟨hkeeps, hrest⟩ := hquiet.fails hicd hnew hused hstep hres
      rw [heq]
      exact .cons hkeeps (destroyMessenger_quiet hicds hrest)

end Drivers

/-! ### The instance -/

/-- **The invariant**: the indices of the live messengers are distinct and are those in use, and every driver has its
messengers at them. -/
structure MessengerInstance.Inv (s : MessengerInstance) : Prop where
  icds : ∀ icd ∈ s.icdTerms, icd.Inv (s.messengers.map Prod.snd)
  inUse : ∀ n, InUse s.debugUtilsMessengersList n ↔ n ∈ s.messengers.map Prod.snd
  nonempty : s.debugUtilsMessengersList ≠ some []
  nodup : (s.messengers.map Prod.snd).Nodup
  blocks : (s.messengers.map Prod.fst).Nodup
  fresh : ∀ m ∈ s.messengers.map Prod.fst, m < s.nextBlock

/-- A failed call that leaves every driver and every index as it was. -/
theorem MessengerInstance.Inv.rollBack {s : MessengerInstance} (hs : s.Inv) {icds : List MessengerIcd}
    {list : UsedObjectList} (hicds : List.Forall₂ (MessengerIcd.Keeps (s.messengers.map Prod.snd)) s.icdTerms icds)
    (hlist : ∀ n, InUse list n ↔ InUse s.debugUtilsMessengersList n) (hne : list ≠ some []) :
    ({ s with icdTerms := icds, debugUtilsMessengersList := list } : MessengerInstance).Inv ∧
      SameMessengers s { s with icdTerms := icds, debugUtilsMessengersList := list } := by
  refine ⟨⟨Lib.forall₂_right hicds fun _ _ h => h.inv, fun n => (hlist n).trans (hs.inUse n), hne, hs.nodup, hs.blocks,
    hs.fresh⟩, ⟨rfl, fun n hn => ?_, hlist⟩⟩
  exact Lib.forall₂_map_eq hicds fun _ _ h => h.handles n hn

/-- **A safe create call** keeps the invariant, and changes nothing if it fails. -/
theorem terminatorCreateDebugUtilsMessengerEXT_spec {s : MessengerInstance} (hs : s.Inv)
    {pAllocator : Option VkAllocationCallbacks} {a : MessengerAnswers} (hsafe : CreateSafe s (.create pAllocator a)) :
    (terminatorCreateDebugUtilsMessengerEXT s pAllocator a).2.Inv ∧
      ((terminatorCreateDebugUtilsMessengerEXT s pAllocator a).1 ≠ .success →
        SameMessengers s (terminatorCreateDebugUtilsMessengerEXT s pAllocator a).2) := by
  unfold terminatorCreateDebugUtilsMessengerEXT
  rcases halloc : a.nextIndexAllocated with _ | _
  · exact ⟨hs, fun _ => ⟨rfl, fun _ _ => rfl, fun _ => Iff.rfl⟩⟩
  simp only [CreateSafe, halloc, Bool.true_eq_false, false_or, Bool.not_true, Bool.false_eq_true, if_false] at hsafe ⊢
  rcases hget : loaderGetNextAvailableEntry s.allocCallbacks s.debugUtilsMessengersList pAllocator a.usedListRequest
    with ⟨res, list, _ | nextIndex⟩
  · -- no index: the roll-back goes over the entries at 0
    rw [hget] at hsafe
    obtain ⟨-, rfl⟩ := loaderGetNextAvailableEntry_failure hget
    obtain ⟨h1, h2⟩ := hs.rollBack (destroyMessenger_quiet hs.icds hsafe) (fun _ => Iff.rfl) hs.nonempty
    exact ⟨h1, fun _ => h2⟩
  · rw [hget] at hsafe
    obtain ⟨-, -, hne, hfree, hused, hlist⟩ := loaderGetNextAvailableEntry_success hs.nonempty hget
    have hnew : nextIndex ∉ s.messengers.map Prod.snd := fun h => hfree ((hs.inUse nextIndex).2 h)
    have hbelow : ∀ m < nextIndex, m ∈ s.messengers.map Prod.snd := fun m hm => (hs.inUse m).1 (hused m hm)
    have hrelease : ∀ n, InUse (clearObjectStatus list nextIndex pAllocator) n ↔ InUse s.debugUtilsMessengersList n :=
      inUse_restored hfree hlist fun _ => inUse_clearObjectStatus
    have hne' : clearObjectStatus list nextIndex pAllocator ≠ some [] := clearObjectStatus_nonempty hne
    simp only
    by_cases hres : (createMessengerOnIcds s.allocCallbacks nextIndex a.icd s.icdTerms).1 = .success
    · have hicds := createMessengerOnIcds_success hs.icds hnew hbelow hres
      rw [if_neg (by simpa using hres)]
      rcases hnode : a.dbgFunctionNodeAllocated with _ | _
      · -- every driver made its messenger, and every driver is given it back
        rw [Bool.not_false, if_pos rfl]
        refine And.imp_right (fun h _ => h) (hs.rollBack ?_ hrelease hne')
        rw [List.forall₂_map_right_iff]
        refine hicds.imp fun icd icd' h => ?_
        obtain ⟨hinv', hhandles⟩ := destroyMessengerOnIcd_keeps h.1
        exact ⟨hinv', fun n hn => (hhandles n hn).trans (h.2 n hn)⟩
      · rw [Bool.not_true, if_neg Bool.false_ne_true]
        refine ⟨?_, fun h => absurd rfl h⟩
        refine ⟨Lib.forall₂_right hicds fun _ _ h => h.1, fun n => ?_, hne, ?_, ?_, ?_⟩
        · rw [hlist, hs.inUse, List.map_cons, List.mem_cons]
        · exact List.nodup_cons.2 ⟨hnew, hs.nodup⟩
        · exact List.nodup_cons.2 ⟨fun h => Nat.lt_irrefl _ (hs.fresh _ h), hs.blocks⟩
        · intro m hm
          rcases List.mem_cons.1 hm with rfl | hm
          · exact Nat.lt_succ_self _
          · exact Nat.lt_succ_of_lt (hs.fresh m hm)
    · rw [if_pos hres]
      have hkeeps := createMessengerOnIcds_rollBack hs.icds hnew hbelow hsafe hres
      exact And.imp_right (fun h _ => h) (hs.rollBack hkeeps hrelease hne')

/-- **A destroy call** on a live messenger keeps the invariant. -/
theorem terminatorDestroyDebugUtilsMessengerEXT_inv {s : MessengerInstance} (hs : s.Inv) {messenger : Handle}
    {pAllocator : Option VkAllocationCallbacks} (hlive : messenger ∈ s.messengers.map Prod.fst) :
    (terminatorDestroyDebugUtilsMessengerEXT s messenger pAllocator).Inv := by
  obtain ⟨⟨block, index⟩, hmem, rfl, hfind⟩ := Lib.exists_find?_key hlive
  have hperm := Lib.perm_cons_filter_ne hs.blocks hmem
  have hindices := hperm.map Prod.snd
  have hblocks := hperm.map Prod.fst
  obtain ⟨hnew, hnodup⟩ := List.nodup_cons.1 (hindices.nodup_iff.1 hs.nodup)
  unfold terminatorDestroyDebugUtilsMessengerEXT
  simp only [hfind]
  refine ⟨?_, fun n => ?_, clearObjectStatus_nonempty hs.nonempty, hnodup,
    (List.nodup_cons.1 (hblocks.nodup_iff.1 hs.blocks)).2, fun m hm => ?_⟩
  · intro icd' hicd'
    obtain ⟨icd, hicd, rfl⟩ := List.mem_map.1 hicd'
    exact (destroyMessengerOnIcd_keeps ((hs.icds icd hicd).perm hindices)).inv
  · rw [inUse_clearObjectStatus, hs.inUse, hindices.mem_iff, List.map_cons, List.mem_cons]
    constructor
    · rintro ⟨h | h, hn⟩
      · exact absurd h hn
      · exact h
    · exact fun h => ⟨Or.inr h, fun hn => hnew (hn ▸ h)⟩
  · exact hs.fresh m (hblocks.mem_iff.2 (List.mem_cons_of_mem _ hm))

/-! ### Runs -/

/-- An instance on which no messenger was made yet; its drivers have the extension or do not. -/
def freshMessengerInstance (callbacks : Option VkAllocationCallbacks) (supported : List Bool) : MessengerInstance where
  allocCallbacks := callbacks
  icdTerms := supported.map fun b => ⟨b, b, rfl, none, [], true⟩

theorem freshMessengerInstance_inv (callbacks : Option VkAllocationCallbacks) (supported : List Bool) :
    (freshMessengerInstance callbacks supported).Inv where
  icds := by
    intro icd hicd
    obtain ⟨b, -, rfl⟩ := List.mem_map.1 hicd
    refine ⟨⟨?_, rfl⟩, by simp, by simp [freshMessengerInstance], by simp [freshMessengerInstance]⟩
    intro h _
    rfl
  inUse := by simp [freshMessengerInstance]
  nonempty := by simp [freshMessengerInstance]
  nodup := by simp [freshMessengerInstance]
  blocks := by simp [freshMessengerInstance]
  fresh := by simp [freshMessengerInstance]

theorem messengerStep_inv {s : MessengerInstance} {c : MessengerCall} (hs : s.Inv) (hc : Callable s c ∧ CreateSafe s c) :
    (messengerStep s c).Inv := by
  rcases c with ⟨pAllocator, a⟩ | ⟨messenger, pAllocator⟩
  · exact (terminatorCreateDebugUtilsMessengerEXT_spec hs hc.2).1
  · exact terminatorDestroyDebugUtilsMessengerEXT_inv hs hc.1

/-- **Runs of safe calls.**  Whatever the drivers and the allocator do, as long as every create call would roll back
cleanly, the drivers are given back every messenger once, no access is out of bounds, and no failure changes
anything. -/
theorem messengers_of_createSafe (callbacks : Option VkAllocationCallbacks) (supported : List Bool)
    (calls : List MessengerCall)
    (h : Lib.AllSteps messengerStep (fun s c => Callable s c ∧ CreateSafe s c)
      (freshMessengerInstance callbacks supported) calls) :
    MessengersSound (Lib.run messengerStep (freshMessengerInstance callbacks supported) calls) ∧
      Lib.AllSteps messengerStep FailureKeepsMessengers (freshMessengerInstance callbacks supported) calls := by
  have hinit := freshMessengerInstance_inv callbacks supported
  constructor
  · have hinv := Lib.run_invariant messengerStep (fun s c hs hc => messengerStep_inv hs hc) hinit h
    exact fun icd hicd => (hinv.icds icd hicd).toSound
  · refine Lib.run_step_invariant messengerStep (fun s c hs hc => messengerStep_inv hs hc) ?_ hinit calls h
    rintro s (⟨pAllocator, a⟩ | ⟨messenger, pAllocator⟩) hs hc
    · exact (terminatorCreateDebugUtilsMessengerEXT_spec hs hc.2).2
    · trivial

/-- A create call whose allocations succeed. -/
def createAnswering (driver : DriverHandle) : MessengerCall :=
  .create none ⟨true, .grants fun _ => 0, fun _ => ⟨.grants fun _ => 0, driver⟩, true⟩

theorem messengers_of_createSafe_run :
    Lib.AllSteps messengerStep (fun s c => Callable s c ∧ CreateSafe s c) (freshMessengerInstance none [true])
        [createAnswering (.failed .errorOutOfHostMemory (by decide) none), createAnswering (.created 5 (by decide)),
          .destroy 1 none] ∧
      MessengersSound (Lib.run messengerStep (freshMessengerInstance none [true])
        [createAnswering (.failed .errorOutOfHostMemory (by decide) none), createAnswering (.created 5 (by decide)),
          .destroy 1 none]) :=
  have h : Lib.AllSteps messengerStep (fun s c => Callable s c ∧ CreateSafe s c) (freshMessengerInstance none [true])
      [createAnswering (.failed .errorOutOfHostMemory (by decide) none), createAnswering (.created 5 (by decide)),
        .destroy 1 none] := by decide
  ⟨h, (messengers_of_createSafe none [true] _ h).1⟩

/-- The driver's messenger of a destroyed loader messenger stays in the table, and a create call that fails gives it
back again. -/
theorem not_messengersSound :
    ¬ ∀ (callbacks : Option VkAllocationCallbacks) (supported : List Bool) (calls : List MessengerCall),
      Lib.AllSteps messengerStep Callable (freshMessengerInstance callbacks supported) calls →
      MessengersSound (Lib.run messengerStep (freshMessengerInstance callbacks supported) calls) := by
  intro h
  have hsound := h none [true] [createAnswering (.created 5 (by decide)), .destroy 1 none,
    createAnswering (.failed .errorOutOfHostMemory (by decide) none)] (by decide)
  have hlog : (Lib.run messengerStep (freshMessengerInstance none [true])
      [createAnswering (.created 5 (by decide)), .destroy 1 none,
        createAnswering (.failed .errorOutOfHostMemory (by decide) none)]).icdTerms.map (·.log) =
      [[.made 5, .givenBack 5, .givenBack 5]] := by decide
  obtain ⟨icd, hicd, hlog⟩ := List.mem_map.1 (hlog ▸ List.mem_singleton.2 rfl :
    [.made 5, .givenBack 5, .givenBack 5] ∈ List.map (·.log) (Lib.run messengerStep _ _).icdTerms)
  have hbalance := (hsound icd hicd).balanced 5 (by decide)
  rw [hlog] at hbalance
  have hmade : [Lib.HandleEvent.made 5, .givenBack 5, .givenBack 5].count (.made 5) = 1 := by decide
  have hgiven : [Lib.HandleEvent.made 5, .givenBack 5, .givenBack 5].count (.givenBack 5) = 2 := by decide
  omega

end VulkanLoader
