import VulkanLoader.Instance.CreateInstance
import VulkanLoader.Lib.Lists

/-!
# Failures of one driver and the others

Whether `terminator_CreateInstance` keeps the failure of one driver from the others.  It does not where the extensions
of a driver cannot be enumerated: the loop goes on, and `res` keeps the error.  The code a call returns is then the one
of the driver scanned last.
-/

namespace VulkanLoader

section Isolation

variable (pCreateInfo : VkInstanceCreateInfo)

/-- The code of a call in which no driver passes and `res` was reset. -/
def noDriverRes (icds : List ScannedIcd) : VkResult :=
  if icds.any (·.initializationFails pCreateInfo) then .errorInitializationFailed else .errorIncompatibleDriver

/-- The drivers whose instances the call keeps. -/
def acceptedIcds (icds : List ScannedIcd) : List ScannedIcd :=
  (terminatorCreateInstance pCreateInfo icds).icdTerms.filterMap fun t => icds[t.scannedIcd]?

/-- What a call that isolates failures does with the drivers in this order. -/
structure Isolated (icds : List ScannedIcd) : Prop where
  returned : (terminatorCreateInstance pCreateInfo icds).returned = true
  success_iff : (terminatorCreateInstance pCreateInfo icds).res = .success ↔ ∃ icd ∈ icds, icd.passes pCreateInfo
  nodup : (terminatorCreateInstance pCreateInfo icds).res = .success →
    ((terminatorCreateInstance pCreateInfo icds).icdTerms.map IcdTerm.scannedIcd).Nodup
  mem_iff : (terminatorCreateInstance pCreateInfo icds).res = .success → ∀ i,
    i ∈ (terminatorCreateInstance pCreateInfo icds).icdTerms.map IcdTerm.scannedIcd ↔
      ∃ icd, icds[i]? = some icd ∧ icd.passes pCreateInfo
  count : (terminatorCreateInstance pCreateInfo icds).icdTermsCount =
    (terminatorCreateInstance pCreateInfo icds).icdTerms.length

/-- **Isolation**: in every order of the drivers, success if and only if one of them passes, an entry for each that
does, and the same code and the same accepted drivers as in any other order. -/
def IsolatesFailures (icds : List ScannedIcd) : Prop :=
  ∀ order : List ScannedIcd, order.Perm icds → Isolated pCreateInfo order ∧
    (terminatorCreateInstance pCreateInfo order).res = (terminatorCreateInstance pCreateInfo icds).res ∧
    (acceptedIcds pCreateInfo order).Perm (acceptedIcds pCreateInfo icds)

/-! ### The result of a call -/

theorem noDriverRes_ne_success (icds : List ScannedIcd) : noDriverRes pCreateInfo icds ≠ .success := by
  unfold noDriverRes
  split_ifs <;> simp

/-- The places of the drivers that pass. -/
def passing (icds : List ScannedIcd) : List ℕ :=
  (instances (·.acceptedInstance pCreateInfo) icds.zipIdx).map Prod.fst

theorem mem_passing {icds : List ScannedIcd} {i : ℕ} :
    i ∈ passing pCreateInfo icds ↔ ∃ icd, icds[i]? = some icd ∧ icd.passes pCreateInfo := by
  unfold passing instances
  simp only [List.mem_map, List.mem_filterMap, Option.map_eq_some_iff, Prod.exists, List.mem_zipIdx_iff_getElem?,
    ScannedIcd.passes, Option.isSome_iff_exists]
  constructor
  · rintro ⟨j, inst, ⟨icd, k, hicd, inst', hacc, he⟩, rfl⟩
    obtain ⟨rfl, rfl⟩ := Prod.mk.inj he
    exact ⟨icd, hicd, inst', hacc⟩
  · rintro ⟨icd, hicd, inst, hacc⟩
    exact ⟨i, inst, ⟨icd, i, hicd, inst, hacc, rfl⟩, rfl⟩

theorem passing_eq_map (icds : List ScannedIcd) :
    passing pCreateInfo icds = (icds.zipIdx.filter fun x => x.1.passes pCreateInfo).map Prod.snd := by
  unfold passing instances
  rw [List.map_filterMap, ← List.filterMap_eq_filter, List.map_filterMap]
  congr 1
  funext x
  rcases h : x.1.acceptedInstance pCreateInfo with _ | inst <;> simp [ScannedIcd.passes, h, Option.guard]

theorem nodup_passing (icds : List ScannedIcd) : (passing pCreateInfo icds).Nodup := by
  rw [passing_eq_map]
  exact (Lib.nodup_zipIdx_snd icds).sublist (List.filter_sublist.map _)

/-- The drivers at the places that pass. -/
theorem filterMap_passing (icds : List ScannedIcd) :
    (passing pCreateInfo icds).filterMap (fun i => icds[i]?) = icds.filter (·.passes pCreateInfo) := by
  have hget : ∀ x ∈ icds.zipIdx.filter (fun x => x.1.passes pCreateInfo), ((fun i => icds[i]?) ∘ Prod.snd) x =
      (some ∘ Prod.fst) x := fun x hx => List.mem_zipIdx_iff_getElem?.1 (List.mem_filter.1 hx).1
  rw [passing_eq_map, List.filterMap_map, List.filterMap_congr hget, List.filterMap_eq_map]
  conv_rhs => rw [← List.zipIdx_map_fst 0 icds]
  rw [List.filter_map]
  rfl

theorem passing_eq_nil_iff {icds : List ScannedIcd} :
    passing pCreateInfo icds = [] ↔ (icds.any (·.passes pCreateInfo)) = false := by
  rw [List.eq_nil_iff_forall_not_mem, List.any_eq_false]
  constructor
  · intro h icd hicd hp
    obtain ⟨i, hi⟩ := List.mem_iff_getElem?.1 hicd
    exact h i ((mem_passing _).2 ⟨icd, hi, hp⟩)
  · intro h i hi
    obtain ⟨icd, hicd, hp⟩ := (mem_passing _).1 hi
    exact h icd (List.mem_of_getElem? hicd) hp

variable {pCreateInfo} {icds : List ScannedIcd}

/-- The loop of the call over its drivers. -/
theorem tryScannedIcds_zipIdx (hoom : ∀ icd ∈ icds, icd.stops pCreateInfo = false) :
    ∃ s', tryScannedIcds pCreateInfo icds.zipIdx {} = (false, s') ∧ Tried pCreateInfo icds.zipIdx {} s' := by
  refine tryScannedIcds_tried pCreateInfo (fun x hx => hoom x.1 ?_) {}
  exact List.mem_of_getElem? (List.mem_zipIdx_iff_getElem?.1 hx)

/-- The value of `res` after the loop: that of the driver scanned last. -/
def lastRes (pCreateInfo : VkInstanceCreateInfo) (icds : List ScannedIcd) : VkResult :=
  (icds.getLast?.map (·.extensionsRes pCreateInfo)).getD .success

/-- The code a call returns. -/
def callRes (pCreateInfo : VkInstanceCreateInfo) (icds : List ScannedIcd) : VkResult :=
  if lastRes pCreateInfo icds ≠ .success then lastRes pCreateInfo icds
  else if icds.any (·.passes pCreateInfo) then .success else noDriverRes pCreateInfo icds

/-- **What a call leaves behind** where no driver runs out of memory.  Its code is the error of the driver scanned
last if the extensions of that driver could not be enumerated; only otherwise does it matter whether a driver passes. -/
theorem terminatorCreateInstance_spec (hoom : ∀ icd ∈ icds, icd.stops pCreateInfo = false) :
    (terminatorCreateInstance pCreateInfo icds).returned = true ∧
      (terminatorCreateInstance pCreateInfo icds).res = callRes pCreateInfo icds ∧
      (terminatorCreateInstance pCreateInfo icds).icdTerms.map IcdTerm.scannedIcd =
        (if callRes pCreateInfo icds = .success then (passing pCreateInfo icds).reverse else []) ∧
      (terminatorCreateInstance pCreateInfo icds).icdTermsCount =
        (terminatorCreateInstance pCreateInfo icds).icdTerms.length := by
  obtain ⟨s, heq, hs⟩ := tryScannedIcds_zipIdx hoom
  have hterms : s.icdTerms.map IcdTerm.scannedIcd = (passing pCreateInfo icds).reverse := by
    have h := congrArg (List.map Prod.fst) hs.icdTerms
    simpa [passing, IcdTerm.key, Function.comp_def] using h
  have hcount : s.icdTermsCount = s.icdTerms.length := by
    have h := congrArg List.length hs.icdTerms
    simpa [hs.icdTermsCount] using h.symm
  have hres : resAtOut false s = callRes pCreateInfo icds := by
    have hone : s.oneIcdSuccessful = icds.any (·.passes pCreateInfo) := by
      rw [hs.oneIcdSuccessful, Bool.false_or]
      exact Lib.any_zipIdx icds (·.passes pCreateInfo)
    have hempty : s.icdTerms = [] ↔ (icds.any (·.passes pCreateInfo)) = false := by
      rw [← passing_eq_nil_iff, ← List.map_eq_nil_iff (f := IcdTerm.scannedIcd), hterms, List.reverse_eq_nil_iff]
    have hlast : s.res = lastRes pCreateInfo icds := by
      rw [hs.res, List.getLast?_zipIdx, lastRes]
      rcases icds.getLast? with _ | icd <;> rfl
    have hforced : (if s.forcedIcdResult ≠ .success then s.forcedIcdResult else .errorIncompatibleDriver) =
        noDriverRes pCreateInfo icds := by
      rw [hs.forcedIcdResult, Lib.any_zipIdx icds (·.initializationFails pCreateInfo), noDriverRes]
      rcases icds.any (·.initializationFails pCreateInfo) with _ | _ <;> rfl
    unfold resAtOut callRes
    rw [hforced, hlast, hone]
    simp only [List.isEmpty_iff, hempty]
    rcases icds.any (·.passes pCreateInfo) with _ | _ <;> by_cases hl : lastRes pCreateInfo icds = .success <;>
      simp [hl]
  have hdestroy : ∀ t ∈ s.icdTerms, t.Destroyable := hs.destroyable (by simp)
  obtain ⟨h1, h2, h3, -⟩ := terminatorCreateInstance_eq heq hcount hdestroy
  refine ⟨(terminatorCreateInstance_returned_iff heq hs.returned).2 (Or.inr hdestroy), h1.trans hres, ?_, h3⟩
  rw [h2, hres]
  split_ifs
  · exact hterms
  · rfl

/-! ### When failures are isolated -/

theorem lastRes_append (l : List ScannedIcd) (icd : ScannedIcd) :
    lastRes pCreateInfo (l ++ [icd]) = icd.extensionsRes pCreateInfo := by
  simp [lastRes]

theorem lastRes_mem_or (pCreateInfo : VkInstanceCreateInfo) (l : List ScannedIcd) :
    lastRes pCreateInfo l = .success ∨ ∃ icd ∈ l, icd.extensionsRes pCreateInfo = lastRes pCreateInfo l := by
  rcases h : l.getLast? with _ | icd
  · exact Or.inl (by simp [lastRes, h])
  · exact Or.inr ⟨icd, List.mem_of_getLast? h, by simp [lastRes, h]⟩

/-- The accepted drivers are those that pass, newest first. -/
theorem acceptedIcds_eq (hoom : ∀ icd ∈ icds, icd.stops pCreateInfo = false)
    (hres : callRes pCreateInfo icds = .success) :
    acceptedIcds pCreateInfo icds = (icds.filter (·.passes pCreateInfo)).reverse := by
  obtain ⟨-, -, hterms, -⟩ := terminatorCreateInstance_spec hoom
  rw [if_pos hres] at hterms
  rw [← filterMap_passing, ← List.filterMap_reverse, ← hterms, List.filterMap_map]
  rfl

/-- The parts of `Isolated`, where the code of the call is success exactly if a driver passes. -/
theorem isolated_of_success_iff (hoom : ∀ icd ∈ icds, icd.stops pCreateInfo = false)
    (hiff : callRes pCreateInfo icds = .success ↔ icds.any (·.passes pCreateInfo)) : Isolated pCreateInfo icds := by
  obtain ⟨hreturned, hres, hterms, hcount⟩ := terminatorCreateInstance_spec hoom
  constructor
  · exact hreturned
  · rw [hres, hiff, List.any_eq_true]
  · intro hs
    rw [hterms, if_pos (hres ▸ hs)]
    exact List.nodup_reverse.2 (nodup_passing _ icds)
  · intro hs i
    rw [hterms, if_pos (hres ▸ hs), List.mem_reverse, mem_passing]
  · exact hcount

/-- The drivers fail alike: no order of them shows in the code of the call. -/
def FailAlike (pCreateInfo : VkInstanceCreateInfo) (icds : List ScannedIcd) : Prop :=
  (∀ icd ∈ icds, icd.passes pCreateInfo = false) ∧ ∃ res : VkResult, ∀ icd ∈ icds,
    icd.extensionsRes pCreateInfo = res ∧ res ≠ .success ∨
      icd.extensionsRes pCreateInfo = .success ∧ res = noDriverRes pCreateInfo icds

theorem noDriverRes_perm {l : List ScannedIcd} (h : l.Perm icds) :
    noDriverRes pCreateInfo l = noDriverRes pCreateInfo icds := by
  unfold noDriverRes
  rw [h.any_eq]

theorem callRes_of_extensions (h : ∀ icd ∈ icds, icd.extensionsRes pCreateInfo = .success) :
    callRes pCreateInfo icds = if icds.any (·.passes pCreateInfo) then .success else noDriverRes pCreateInfo icds := by
  have hlast : lastRes pCreateInfo icds = .success := by
    rcases lastRes_mem_or pCreateInfo icds with hs | ⟨icd, hicd, hs⟩
    · exact hs
    · rw [← hs, h icd hicd]
  rw [callRes, if_neg (by simpa using hlast)]

/-- Drivers that fail alike give one error in every order. -/
theorem FailAlike.callRes_eq {order : List ScannedIcd} (h : FailAlike pCreateInfo icds) (horder : order.Perm icds) :
    callRes pCreateInfo order ≠ .success ∧ callRes pCreateInfo order = callRes pCreateInfo icds := by
  obtain ⟨hnone, res, hres⟩ := h
  have hcall : ∀ l : List ScannedIcd, l.Perm icds → callRes pCreateInfo l ≠ .success ∧
      (l ≠ [] → callRes pCreateInfo l = res) := by
    intro l hl
    have hany : l.any (·.passes pCreateInfo) = false :=
      List.any_eq_false.2 fun icd hicd => by simp [hnone icd (hl.mem_iff.1 hicd)]
    have hne := noDriverRes_ne_success pCreateInfo l
    rcases List.eq_nil_or_concat l with rfl | ⟨l, z, rfl⟩
    · exact ⟨by simp [callRes, lastRes, hne], fun h => absurd rfl h⟩
    · rw [List.concat_eq_append] at *
      rw [callRes, lastRes_append, hany, if_neg Bool.false_ne_true]
      rcases hres z (hl.mem_iff.1 (by simp)) with ⟨rfl, hz⟩ | ⟨hz, rfl⟩
      · rw [if_pos hz]
        exact ⟨hz, fun _ => rfl⟩
      · rw [if_neg (by simpa using hz)]
        exact ⟨hne, fun _ => noDriverRes_perm hl⟩
  refine ⟨(hcall order horder).1, ?_⟩
  by_cases ho : order = []
  · subst ho
    rw [← horder.nil_eq]
  · have hi : icds ≠ [] := fun hi => ho (List.perm_nil.1 (hi ▸ horder))
    rw [(hcall order horder).2 ho, (hcall icds (List.Perm.refl _)).2 hi]

/-- The drivers that a call keeps: none where it fails. -/
theorem acceptedIcds_eq_nil (hoom : ∀ icd ∈ icds, icd.stops pCreateInfo = false)
    (hres : callRes pCreateInfo icds ≠ .success) : acceptedIcds pCreateInfo icds = [] := by
  obtain ⟨-, -, hterms, -⟩ := terminatorCreateInstance_spec hoom
  rw [if_neg hres, List.map_eq_nil_iff] at hterms
  rw [acceptedIcds, hterms]
  rfl

/-- Calls with the same code keep the same drivers. -/
theorem acceptedIcds_perm {order : List ScannedIcd} (hoom : ∀ icd ∈ icds, icd.stops pCreateInfo = false)
    (hoom' : ∀ icd ∈ order, icd.stops pCreateInfo = false) (horder : order.Perm icds)
    (hres : callRes pCreateInfo order = callRes pCreateInfo icds) :
    (acceptedIcds pCreateInfo order).Perm (acceptedIcds pCreateInfo icds) := by
  by_cases hs : callRes pCreateInfo icds = .success
  · rw [acceptedIcds_eq hoom hs, acceptedIcds_eq hoom' (hres.trans hs)]
    exact ((List.reverse_perm _).trans (horder.filter _)).trans (List.reverse_perm _).symm
  · rw [acceptedIcds_eq_nil hoom hs, acceptedIcds_eq_nil hoom' (hres ▸ hs)]

/-- In every order the code of the call tells whether a driver passes, and is the same. -/
theorem callRes_of_harmless {order : List ScannedIcd}
    (h : (∀ icd ∈ icds, icd.extensionsRes pCreateInfo = .success) ∨ FailAlike pCreateInfo icds)
    (horder : order.Perm icds) :
    (callRes pCreateInfo order = .success ↔ order.any (·.passes pCreateInfo)) ∧
      callRes pCreateInfo order = callRes pCreateInfo icds := by
  have hany : order.any (·.passes pCreateInfo) = icds.any (·.passes pCreateInfo) := horder.any_eq
  rcases h with hall | halike
  · rw [callRes_of_extensions hall, callRes_of_extensions fun icd hicd => hall icd (horder.mem_iff.1 hicd), hany,
      noDriverRes_perm horder]
    refine ⟨?_, rfl⟩
    split_ifs with hp
    · simp [hp]
    · simp [hp, noDriverRes_ne_success]
  · obtain ⟨hne, heq⟩ := halike.callRes_eq horder
    refine ⟨iff_of_false hne ?_, heq⟩
    rw [hany, List.any_eq_true]
    rintro ⟨icd, hicd, hp⟩
    rw [halike.1 icd hicd] at hp
    cases hp

/-- Where the extensions of a driver cannot be enumerated, the order with that driver last shows that none passes, and
the orders with any other driver last that they fail alike. -/
theorem IsolatesFailures.failAlike {z : ScannedIcd} (hoom : ∀ icd ∈ icds, icd.stops pCreateInfo = false)
    (h : IsolatesFailures pCreateInfo icds) (hz : z ∈ icds) (hzres : z.extensionsRes pCreateInfo ≠ .success) :
    FailAlike pCreateInfo icds := by
  have hspec : ∀ {l : List ScannedIcd}, l.Perm icds →
      (terminatorCreateInstance pCreateInfo l).res = callRes pCreateInfo l := fun hl =>
    (terminatorCreateInstance_spec fun icd hicd => hoom icd (hl.mem_iff.1 hicd)).2.1
  obtain ⟨l, hl⟩ := Lib.exists_perm_last hz
  have hcall : callRes pCreateInfo (l ++ [z]) = z.extensionsRes pCreateInfo := by
    rw [callRes, lastRes_append, if_pos hzres]
  obtain ⟨hiso, hsame, -⟩ := h _ hl
  have hnone : ∀ icd ∈ icds, icd.passes pCreateInfo = false := by
    intro icd hicd
    by_contra hp
    rw [Bool.not_eq_false] at hp
    have hsucc := hiso.success_iff.2 ⟨icd, hl.mem_iff.2 hicd, hp⟩
    rw [hspec hl, hcall] at hsucc
    exact hzres hsucc
  rw [hspec hl, hcall] at hsame
  refine ⟨hnone, z.extensionsRes pCreateInfo, fun y hy => ?_⟩
  obtain ⟨l', hl'⟩ := Lib.exists_perm_last hy
  have hsame' := (h _ hl').2.1
  rw [hspec hl', ← hsame, callRes, lastRes_append] at hsame'
  by_cases hyres : y.extensionsRes pCreateInfo = .success
  · right
    have hany : (l' ++ [y]).any (·.passes pCreateInfo) = false :=
      List.any_eq_false.2 fun icd hicd => by simp [hnone icd (hl'.mem_iff.1 hicd)]
    rw [if_neg (by simpa using hyres), hany, if_neg Bool.false_ne_true, noDriverRes_perm hl'] at hsame'
    exact ⟨hyres, hsame'.symm⟩
  · left
    rw [if_pos hyres] at hsame'
    exact ⟨hsame', hzres⟩

/-- **When the failures of drivers are isolated**: exactly if the extensions of every driver can be enumerated, or no
driver passes and all orders end in the same error. -/
theorem isolatesFailures_iff (pCreateInfo : VkInstanceCreateInfo) (icds : List ScannedIcd)
    (hoom : ∀ icd ∈ icds, icd.stops pCreateInfo = false) :
    IsolatesFailures pCreateInfo icds ↔
      (∀ icd ∈ icds, icd.extensionsRes pCreateInfo = .success) ∨ FailAlike pCreateInfo icds := by
  constructor
  · intro h
    by_cases hall : ∀ icd ∈ icds, icd.extensionsRes pCreateInfo = .success
    · exact Or.inl hall
    · push Not at hall
      obtain ⟨z, hz, hzres⟩ := hall
      exact Or.inr (h.failAlike hoom hz hzres)
  · intro h order horder
    have hoom' : ∀ icd ∈ order, icd.stops pCreateInfo = false := fun icd hicd => hoom icd (horder.mem_iff.1 hicd)
    obtain ⟨hiff, hres⟩ := callRes_of_harmless h horder
    refine ⟨isolated_of_success_iff hoom' hiff, ?_, acceptedIcds_perm hoom hoom' horder hres⟩
    rw [(terminatorCreateInstance_spec hoom').2.1, (terminatorCreateInstance_spec hoom).2.1, hres]

end Isolation

/-- A create info without layers and extensions. -/
def plainCreateInfo : VkInstanceCreateInfo := ⟨none, [], []⟩

/-- A driver without instance extensions that passes all of its steps, its instance being `inst + 1`. -/
def workingIcd (inst : Handle) : ScannedIcd where
  apiVersion := 0
  enumerateInstanceExtensionProperties := .null
  enumerateInstanceVersion := none
  createInstance := fun _ => .created (inst + 1) (Nat.succ_ne_zero inst)
  getInstanceProcAddr := fun _ => true
  icdTermAllocated := true
  extListGrows := fun _ => true

/-- A driver that cannot say which extensions it has. -/
def silentIcd : ScannedIcd :=
  { workingIcd 0 with
    enumerateInstanceExtensionProperties := .driver .errorInitializationFailed 0 .success 0 [] }

/-- A driver that refuses to make an instance, and leaves something in `*pInstance`. -/
def refusingIcd : ScannedIcd :=
  { workingIcd 0 with createInstance := fun _ => .failed .errorInitializationFailed (by decide) (some 9) }

/-- A driver that makes an instance and lacks a required command. -/
def lackingIcd : ScannedIcd := { workingIcd 4 with getInstanceProcAddr := fun name => name != "vkCreateDevice" }

/-- Two drivers that work, and two that fail at different steps: the failures are isolated. -/
theorem isolatesFailures_fourIcds :
    IsolatesFailures plainCreateInfo [workingIcd 0, refusingIcd, lackingIcd, workingIcd 1] := by
  have hoom : ∀ icd ∈ [workingIcd 0, refusingIcd, lackingIcd, workingIcd 1], icd.stops plainCreateInfo = false := by
    simp only [List.forall_mem_cons]
    exact ⟨rfl, rfl, rfl, rfl, by simp⟩
  refine (isolatesFailures_iff plainCreateInfo [workingIcd 0, refusingIcd, lackingIcd, workingIcd 1] hoom).2 (Or.inl ?_)
  simp only [List.forall_mem_cons]
  exact ⟨rfl, rfl, rfl, rfl, by simp⟩

/-- A working driver does not help if the driver scanned after it cannot say which extensions it has: the call fails,
and the instance of the working driver is destroyed. -/
theorem not_isolatesFailures :
    ¬ ∀ (pCreateInfo : VkInstanceCreateInfo) (icds : List ScannedIcd),
      (∀ icd ∈ icds, icd.stops pCreateInfo = false) → IsolatesFailures pCreateInfo icds := by
  intro h
  have hoom : ∀ icd ∈ [workingIcd 0, silentIcd], icd.stops plainCreateInfo = false := by
    intro icd hicd
    rcases List.mem_cons.1 hicd with rfl | hicd
    · rfl
    · obtain rfl := List.mem_singleton.1 hicd
      rfl
  obtain ⟨hiso, -, -⟩ := h plainCreateInfo [workingIcd 0, silentIcd] hoom _ (List.Perm.refl _)
  have hres : (terminatorCreateInstance plainCreateInfo [workingIcd 0, silentIcd]).res =
      .errorInitializationFailed := rfl
  have hsuccess := hiso.success_iff.2 ⟨workingIcd 0, List.mem_cons_self, rfl⟩
  rw [hres] at hsuccess
  cases hsuccess

end VulkanLoader
