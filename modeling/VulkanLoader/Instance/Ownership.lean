import VulkanLoader.Instance.CreateInstance
import VulkanLoader.Lib.Lists
import Mathlib.Data.List.Count
import Mathlib.Data.List.TakeWhile

/-!
# Who owns the instances of the drivers

An instance that a driver made is kept in a term of the list or destroyed, on every way out of
`terminator_CreateInstance` but two.  A driver that lacks a required command is removed from the list after its instance
was made, and `loader_icd_destroy` does not destroy the instance.  And a driver that is out of memory and leaves a value
in `*pInstance` has the clean-up call `DestroyInstance` of a dispatch that was not filled yet.
-/

namespace VulkanLoader

section Ownership

variable (pCreateInfo : VkInstanceCreateInfo)

/-- The terms that hold an instance of a driver. -/
def holders (s : CreateState) (i : ℕ) (inst : Handle) : ℕ := (s.icdTerms.map IcdTerm.key).count (i, inst)

/-- **Ownership**: the call comes to its end, every instance a driver made is then held by one term or was destroyed
once, not both, and a call that fails holds none. -/
structure OwnsInstances (s : CreateState) : Prop where
  returned : s.returned = true
  held_or_destroyed : ∀ i inst, .createInstance i inst ∈ s.calls →
    holders s i inst + s.calls.count (.destroyInstance i inst) = 1
  destroyed_of_error : s.res ≠ .success → s.icdTerms = [] ∧
    ∀ i inst, .createInstance i inst ∈ s.calls → s.calls.count (.destroyInstance i inst) = 1

/-- The driver makes an instance and lacks a required command. -/
def ScannedIcd.losesInstance (icd : ScannedIcd) : Bool :=
  match icd.outcome pCreateInfo with
  | .entriesMissing _ => true
  | _ => false

/-- The driver is out of memory and leaves a value in `*pInstance`. -/
def ScannedIcd.leavesInstance (icd : ScannedIcd) : Bool :=
  match icd.outcome pCreateInfo with
  | .outOfHostMemory (some left) => left != nullHandle
  | _ => false

/-- Where the loop ends out of memory, the term it leaves has no instance. -/
def LeavesNone (icds : List ScannedIcd) : Prop :=
  ∀ icd, icds.find? (·.stops pCreateInfo) = some icd → icd.leavesInstance pCreateInfo = false

/-- The drivers whose iteration ends: those before the first that runs out of memory. -/
def reached (icds : List ScannedIcd) : List (ScannedIcd × ℕ) :=
  icds.zipIdx.takeWhile fun x => !x.1.stops pCreateInfo

theorem reached_map_fst (icds : List ScannedIcd) :
    (reached pCreateInfo icds).map Prod.fst = icds.takeWhile fun icd => !icd.stops pCreateInfo := by
  conv_rhs => rw [← List.zipIdx_map_fst 0 icds]
  rw [List.takeWhile_map]
  rfl

theorem reached_nodup (icds : List ScannedIcd) : ((reached pCreateInfo icds).map Prod.snd).Nodup :=
  (Lib.nodup_zipIdx_snd icds).sublist ((List.takeWhile_sublist _).map _)

variable {pCreateInfo} {icds : List ScannedIcd}

theorem mem_instances {f : ScannedIcd → Option Handle} {l : List (ScannedIcd × ℕ)} {i : ℕ} {inst : Handle} :
    (i, inst) ∈ instances f l ↔ ∃ icd, (icd, i) ∈ l ∧ f icd = some inst := by
  unfold instances
  simp only [List.mem_filterMap, Option.map_eq_some_iff, Prod.mk.injEq, Prod.exists]
  constructor
  · rintro ⟨icd, j, hmem, inst', hf, rfl, rfl⟩
    exact ⟨icd, hmem, hf⟩
  · rintro ⟨icd, hmem, hf⟩
    exact ⟨icd, i, hmem, inst, hf, rfl, rfl⟩

theorem instances_fst_sublist (f : ScannedIcd → Option Handle) (l : List (ScannedIcd × ℕ)) :
    ((instances f l).map Prod.fst).Sublist (l.map Prod.snd) := by
  induction l with
  | nil => exact List.Sublist.refl _
  | cons x l ih =>
    obtain ⟨icd, i⟩ := x
    rw [instances_cons]
    rcases f icd with _ | inst
    · exact ih.cons i
    · exact ih.cons_cons i

/-- Distinct places have distinct pairs. -/
theorem nodup_instances {f : ScannedIcd → Option Handle} {l : List (ScannedIcd × ℕ)} (h : (l.map Prod.snd).Nodup) :
    (instances f l).Nodup :=
  (h.sublist (instances_fst_sublist f l)).of_map

/-- The instances of accepted drivers are not null, so the clean-up destroys all of them. -/
theorem instances_valid {l : List (ScannedIcd × ℕ)} {x : ℕ × Handle}
    (hx : x ∈ instances (·.acceptedInstance pCreateInfo) l) : x.2 ≠ nullHandle := by
  obtain ⟨i, inst⟩ := x
  obtain ⟨icd, -, hacc⟩ := mem_instances.1 hx
  unfold ScannedIcd.acceptedInstance at hacc
  split at hacc
  · rename_i inst' ho
    obtain rfl := Option.some.inj hacc
    exact icd.outcome_valid (Or.inl ho)
  · cases hacc

theorem tryScannedIcds_append {l l' : List (ScannedIcd × ℕ)} {s s₁ : CreateState}
    (h : tryScannedIcds pCreateInfo l s = (false, s₁)) :
    tryScannedIcds pCreateInfo (l ++ l') s = tryScannedIcds pCreateInfo l' s₁ := by
  induction l generalizing s with
  | nil =>
    obtain ⟨-, rfl⟩ := Prod.mk.inj h
    rfl
  | cons x l ih =>
    obtain ⟨icd, i⟩ := x
    rw [List.cons_append]
    rcases hstep : tryScannedIcd pCreateInfo i icd s with ⟨_ | _, s₂⟩
    · rw [tryScannedIcds, hstep] at h ⊢
      exact ih h
    · rw [tryScannedIcds, hstep] at h
      cases h

/-- An iteration that runs out of memory adds at most a term, with what the driver left in it. -/
theorem tryScannedIcd_stops {icd : ScannedIcd} (i : ℕ) (s : CreateState) (hicd : icd.stops pCreateInfo = true) :
    ∃ s' added, tryScannedIcd pCreateInfo i icd s = (true, s') ∧ s'.res = .errorOutOfHostMemory ∧ s'.calls = s.calls ∧
      s'.returned = s.returned ∧ s'.icdTerms = added ++ s.icdTerms ∧
      s'.icdTermsCount = s.icdTermsCount + added.length ∧ (∀ t ∈ added, t.hasDispatch = false) ∧
      ((∀ t ∈ added, t.icdInstance = nullHandle) ↔ icd.leavesInstance pCreateInfo = false) := by
  obtain ⟨enabled, queries, heq⟩ := tryScannedIcd_eq pCreateInfo i icd s
  rcases ho : icd.outcome pCreateInfo with left | res | res | inst | inst
  case outOfHostMemory =>
    rw [heq, ho]
    rcases left with _ | left
    · exact ⟨_, [], rfl, rfl, rfl, rfl, rfl, rfl, by simp, by simp [ScannedIcd.leavesInstance, ho]⟩
    · exact ⟨_, [⟨i, enabled, left, false⟩], rfl, rfl, rfl, rfl, rfl, rfl, by simp,
        by simp [ScannedIcd.leavesInstance, ho]⟩
  all_goals simp [ScannedIcd.stops, ho] at hicd

/-- The driver that stops the loop is the first after those reached. -/
theorem find?_stops (pCreateInfo : VkInstanceCreateInfo) (icds : List ScannedIcd) :
    icds.find? (·.stops pCreateInfo) =
      (icds.zipIdx.dropWhile fun x => !x.1.stops pCreateInfo).head?.map Prod.fst := by
  conv_lhs => rw [← List.zipIdx_map_fst 0 icds]
  rw [List.find?_map, List.find?_eq_head?_dropWhile_not]
  rfl

/-- The state in which the loop ends: the instances made and held are those of the drivers reached, and beside them
there is at most what a driver out of memory left. -/
structure LoopEnd (pCreateInfo : VkInstanceCreateInfo) (icds : List ScannedIcd) (out : Bool) (s : CreateState) :
    Prop where
  icdTermsCount : s.icdTermsCount = s.icdTerms.length
  returned : s.returned = true
  calls : s.calls = (instances (·.madeInstance pCreateInfo) (reached pCreateInfo icds)).map
    fun x => .createInstance x.1 x.2
  destroyable_iff : (∀ t ∈ s.icdTerms, t.Destroyable) ↔ LeavesNone pCreateInfo icds
  held : LeavesNone pCreateInfo icds → (s.icdTerms.map IcdTerm.key).filter (·.2 ≠ nullHandle) =
    (instances (·.acceptedInstance pCreateInfo) (reached pCreateInfo icds)).reverse
  success : resAtOut out s = .success → LeavesNone pCreateInfo icds ∧ s.icdTerms.map IcdTerm.key =
    (instances (·.acceptedInstance pCreateInfo) (reached pCreateInfo icds)).reverse

/-- **The loop with its exit.** -/
theorem loop_end (pCreateInfo : VkInstanceCreateInfo) (icds : List ScannedIcd) :
    ∃ out s, tryScannedIcds pCreateInfo icds.zipIdx {} = (out, s) ∧ LoopEnd pCreateInfo icds out s := by
  obtain ⟨s₁, hloop, hs₁⟩ := tryScannedIcds_tried pCreateInfo (l := reached pCreateInfo icds)
    (fun x hx => by simpa using List.mem_takeWhile_imp hx) {}
  have hterms : s₁.icdTerms.map IcdTerm.key =
      (instances (·.acceptedInstance pCreateInfo) (reached pCreateInfo icds)).reverse := by
    simpa using hs₁.icdTerms
  have hcount : s₁.icdTermsCount = s₁.icdTerms.length := by
    have h := congrArg List.length hterms
    simpa [hs₁.icdTermsCount] using h.symm
  have hcalls : s₁.calls = (instances (·.madeInstance pCreateInfo) (reached pCreateInfo icds)).map
      (fun x => .createInstance x.1 x.2) := by simpa using hs₁.calls
  have hvalid : (s₁.icdTerms.map IcdTerm.key).filter (·.2 ≠ nullHandle) =
      (instances (·.acceptedInstance pCreateInfo) (reached pCreateInfo icds)).reverse := by
    rw [hterms]
    refine List.filter_eq_self.2 fun x hx => ?_
    simpa using instances_valid (List.mem_reverse.1 hx)
  have hdestroy : ∀ t ∈ s₁.icdTerms, t.Destroyable := hs₁.destroyable (by simp)
  have hsplit : reached pCreateInfo icds ++ icds.zipIdx.dropWhile (fun x => !x.1.stops pCreateInfo) = icds.zipIdx :=
    List.takeWhile_append_dropWhile
  rcases hrest : icds.zipIdx.dropWhile (fun x => !x.1.stops pCreateInfo) with _ | ⟨⟨z, i⟩, rest⟩
  · -- the loop runs to its end
    rw [hrest, List.append_nil] at hsplit
    rw [hsplit] at hloop
    have hnone : LeavesNone pCreateInfo icds := by
      intro icd hicd
      rw [find?_stops, hrest] at hicd
      cases hicd
    exact ⟨false, s₁, hloop, hcount, hs₁.returned, hcalls, iff_of_true hdestroy hnone, fun _ => hvalid,
      fun _ => ⟨hnone, hterms⟩⟩
  · -- out of memory at `z`
    have hz : z.stops pCreateInfo = true := by
      have hhead := List.head_dropWhile_not (l := icds.zipIdx) (fun x => !x.1.stops pCreateInfo)
        (by rw [hrest]; simp)
      simpa [hrest] using hhead
    have hnone : LeavesNone pCreateInfo icds ↔ z.leavesInstance pCreateInfo = false := by
      rw [LeavesNone, find?_stops, hrest]
      simp
    obtain ⟨s₂, added, heq, hres, hcalls₂, hreturned, hicdTerms, hcount₂, hdispatch, hleaves⟩ :=
      tryScannedIcd_stops i s₁ hz
    have hloop₂ : tryScannedIcds pCreateInfo icds.zipIdx {} = (true, s₂) := by
      rw [← hsplit, hrest, tryScannedIcds_append hloop, tryScannedIcds, heq]
    refine ⟨true, s₂, hloop₂, ?_, hreturned.trans hs₁.returned, hcalls₂.trans hcalls, ?_, fun h => ?_,
      fun hsuccess => ?_⟩
    · rw [hcount₂, hicdTerms, hcount, List.length_append, Nat.add_comm]
    · have hadded : (∀ t ∈ added, t.Destroyable) ↔ ∀ t ∈ added, t.icdInstance = nullHandle :=
        forall₂_congr fun t ht => by simp [IcdTerm.Destroyable, hdispatch t ht]
      rw [hicdTerms, List.forall_mem_append, and_iff_left hdestroy, hadded, hleaves, hnone]
    · have hnull : (added.map IcdTerm.key).filter (·.2 ≠ nullHandle) = [] := by
        rw [List.filter_eq_nil_iff]
        intro x hx
        obtain ⟨t, ht, rfl⟩ := List.mem_map.1 hx
        simp [IcdTerm.key, (hleaves.2 (hnone.1 h)) t ht]
      rw [hicdTerms, List.map_append, List.filter_append, hnull, List.nil_append, hvalid]
    · rw [resAtOut, if_neg (by simp), hres] at hsuccess
      cases hsuccess

/-- **When the call comes to its end.** -/
theorem returned_iff (pCreateInfo : VkInstanceCreateInfo) (icds : List ScannedIcd) :
    (terminatorCreateInstance pCreateInfo icds).returned = true ↔ LeavesNone pCreateInfo icds := by
  obtain ⟨out, s, hloop, hend⟩ := loop_end pCreateInfo icds
  rw [terminatorCreateInstance_returned_iff hloop hend.returned, hend.destroyable_iff]
  exact or_iff_right_of_imp fun hres => (hend.success hres).1

/-- Held and destroyed together are the instances of the accepted drivers among those reached. -/
theorem holders_add_destroyed (hnone : LeavesNone pCreateInfo icds) (i : ℕ) (inst : Handle) :
    holders (terminatorCreateInstance pCreateInfo icds) i inst +
        (terminatorCreateInstance pCreateInfo icds).calls.count (.destroyInstance i inst) =
      (instances (·.acceptedInstance pCreateInfo) (reached pCreateInfo icds)).count (i, inst) := by
  obtain ⟨out, s, hloop, hend⟩ := loop_end pCreateInfo icds
  obtain ⟨-, hterms, -, hcalls'⟩ :=
    terminatorCreateInstance_eq hloop hend.icdTermsCount (hend.destroyable_iff.2 hnone)
  have hcreates : s.calls.count (.destroyInstance i inst) = 0 := by
    rw [hend.calls, List.count_eq_zero]
    simp
  rw [holders, hterms, hcalls', List.count_append, hcreates]
  by_cases hres : resAtOut out s = .success
  · simp only [hres, if_true, List.count_nil, Nat.add_zero, (hend.success hres).2, List.count_reverse]
  · have hinj : Function.Injective fun x : ℕ × Handle => DriverCall.destroyInstance x.1 x.2 := by
      rintro ⟨a, b⟩ ⟨c, d⟩ h
      obtain ⟨rfl, rfl⟩ := DriverCall.destroyInstance.inj h
      rfl
    simp only [hres, if_false, List.map_nil, List.count_nil, Nat.zero_add, destroyCalls, hend.held hnone]
    exact (List.count_map_of_injective _ _ hinj (i, inst)).trans List.count_reverse

theorem createInstance_mem_calls (hnone : LeavesNone pCreateInfo icds) {i : ℕ} {inst : Handle} :
    .createInstance i inst ∈ (terminatorCreateInstance pCreateInfo icds).calls ↔
      (i, inst) ∈ instances (·.madeInstance pCreateInfo) (reached pCreateInfo icds) := by
  obtain ⟨out, s, hloop, hend⟩ := loop_end pCreateInfo icds
  obtain ⟨-, -, -, hcalls'⟩ :=
    terminatorCreateInstance_eq hloop hend.icdTermsCount (hend.destroyable_iff.2 hnone)
  have hdestroys : .createInstance i inst ∉
      (if resAtOut out s = .success then [] else destroyCalls s.icdTerms) := by
    split_ifs <;> simp [destroyCalls]
  rw [hcalls', List.mem_append, or_iff_left hdestroys, hend.calls]
  simp

/-- **When the instances of the drivers are owned**: exactly if no driver that the loop reaches makes its instance and
lacks a required command, and the driver that ends the loop, out of memory, leaves no instance. -/
theorem ownsInstances_iff (pCreateInfo : VkInstanceCreateInfo) (icds : List ScannedIcd) :
    OwnsInstances (terminatorCreateInstance pCreateInfo icds) ↔
      (∀ icd ∈ icds.takeWhile (fun icd => !icd.stops pCreateInfo), icd.losesInstance pCreateInfo = false) ∧
        ∀ icd, icds.find? (·.stops pCreateInfo) = some icd → icd.leavesInstance pCreateInfo = false := by
  have hacc : ∀ {i inst}, (i, inst) ∈ instances (·.acceptedInstance pCreateInfo) (reached pCreateInfo icds) →
      (instances (·.acceptedInstance pCreateInfo) (reached pCreateInfo icds)).count (i, inst) = 1 := fun h =>
    List.count_eq_one_of_mem (nodup_instances (reached_nodup pCreateInfo icds)) h
  constructor
  · intro h
    have hnone : LeavesNone pCreateInfo icds := (returned_iff pCreateInfo icds).1 h.returned
    refine ⟨fun icd hicd => ?_, hnone⟩
    rw [← reached_map_fst] at hicd
    obtain ⟨⟨icd', i⟩, hmem, rfl⟩ := List.mem_map.1 hicd
    by_contra hlost
    rw [Bool.not_eq_false] at hlost
    rcases ho : icd'.outcome pCreateInfo with b | res | res | inst | inst
    case entriesMissing =>
      have hm : icd'.madeInstance pCreateInfo = some inst := by simp [ScannedIcd.madeInstance, ho]
      have hmade := (createInstance_mem_calls hnone).2 (mem_instances.2 ⟨icd', hmem, hm⟩)
      have hone := h.held_or_destroyed i inst hmade
      rw [holders_add_destroyed hnone] at hone
      have hin := List.count_pos_iff.1 (hone ▸ Nat.one_pos)
      -- the place is held by one driver only
      obtain ⟨icd, hmem', hacc'⟩ := mem_instances.1 hin
      have hplace : ∀ {x}, x ∈ reached pCreateInfo icds → icds[x.2]? = some x.1 := fun hx =>
        List.mem_zipIdx_iff_getElem?.1 ((List.takeWhile_sublist _).subset hx)
      have hsame : icd = icd' := Option.some.inj ((hplace hmem').symm.trans (hplace hmem))
      simp [hsame, ScannedIcd.acceptedInstance, ho] at hacc'
    all_goals simp [ScannedIcd.losesInstance, ho] at hlost
  · rintro ⟨h, hnone⟩
    have hmade : ∀ {i inst}, (i, inst) ∈ instances (·.madeInstance pCreateInfo) (reached pCreateInfo icds) →
        (i, inst) ∈ instances (·.acceptedInstance pCreateInfo) (reached pCreateInfo icds) := by
      intro i inst hmem
      obtain ⟨icd, hicd, hm⟩ := mem_instances.1 hmem
      refine mem_instances.2 ⟨icd, hicd, ?_⟩
      have hnot := h icd (by rw [← reached_map_fst]; exact List.mem_map.2 ⟨_, hicd, rfl⟩)
      rcases ho : icd.outcome pCreateInfo with b | res | res | inst' | inst' <;>
        simp [ScannedIcd.madeInstance, ScannedIcd.acceptedInstance, ScannedIcd.losesInstance, ho] at hm hnot ⊢
      exact hm
    have hheld : ∀ i inst, .createInstance i inst ∈ (terminatorCreateInstance pCreateInfo icds).calls →
        holders (terminatorCreateInstance pCreateInfo icds) i inst +
          (terminatorCreateInstance pCreateInfo icds).calls.count (.destroyInstance i inst) = 1 := by
      intro i inst hcall
      rw [holders_add_destroyed hnone]
      exact hacc (hmade ((createInstance_mem_calls hnone).1 hcall))
    refine ⟨(returned_iff pCreateInfo icds).2 hnone, hheld, fun hres => ?_⟩
    obtain ⟨out, s, hloop, hend⟩ := loop_end pCreateInfo icds
    obtain ⟨hres', hterms, -⟩ :=
      terminatorCreateInstance_eq hloop hend.icdTermsCount (hend.destroyable_iff.2 hnone)
    rw [hres'] at hres
    rw [if_neg hres] at hterms
    refine ⟨hterms, fun i inst hcall => ?_⟩
    have hone := hheld i inst hcall
    rw [holders, hterms] at hone
    simpa using hone

end Ownership

/-- A driver that makes instances and lacks the required `vkCreateDevice`. -/
def incompleteIcd : ScannedIcd where
  apiVersion := 0
  enumerateInstanceExtensionProperties := .null
  enumerateInstanceVersion := none
  createInstance := fun _ => .created 1 (by decide)
  getInstanceProcAddr := fun name => name != "vkCreateDevice"
  icdTermAllocated := true
  extListGrows := fun _ => true

/-- The instance of such a driver is neither held nor destroyed. -/
theorem not_ownsInstances :
    ¬ ∀ (pCreateInfo : VkInstanceCreateInfo) (icds : List ScannedIcd),
      OwnsInstances (terminatorCreateInstance pCreateInfo icds) := by
  intro h
  have hcalls : (terminatorCreateInstance ⟨none, [], []⟩ [incompleteIcd]).calls = [.createInstance 0 1] := rfl
  have hterms : (terminatorCreateInstance ⟨none, [], []⟩ [incompleteIcd]).icdTerms = [] := rfl
  have hone := (h ⟨none, [], []⟩ [incompleteIcd]).held_or_destroyed 0 1 (by rw [hcalls]; exact List.mem_singleton.2 rfl)
  rw [holders, hcalls, hterms] at hone
  revert hone
  decide

end VulkanLoader
