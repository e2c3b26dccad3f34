import VulkanLoader.Instance.Extensions

/-!
# `terminator_CreateInstance`

The loop over the scanned drivers with its exits, and the clean-up at `out:`.  The answers of a driver and the outcome
of the loader's requests in its iteration are fields of `ScannedIcd`; calls that make or destroy a driver instance are
logged in `calls`.

`ScannedIcd.outcome` says how far a driver gets, and `tryScannedIcd_eq` is the step lemma: an iteration depends on its
driver through the outcome only.  The rest of the development reads the loop off the list of outcomes.
-/

namespace VulkanLoader

/-- The parts of `VkInstanceCreateInfo` that the terminator reads or changes. -/
structure VkInstanceCreateInfo where
  apiVersion : Option ℕ
  enabledLayerNames : List String
  enabledExtensionNames : List String

/-- The result of a driver's `vkCreateInstance`.  What a driver that fails left in `*pInstance` is `left`; `none` leaves
it alone. -/
inductive DriverInstance where
  | created (icdInstance : Handle) (valid : icdInstance ≠ nullHandle)
  | failed (res : VkResult) (error : res ≠ .success) (left : Option Handle)

/-- An entry of `icd_tramp_list`, with what its iteration of the loop meets: the answers of the driver, the request
for its `loader_icd_term` and the requests for its extension list. -/
structure ScannedIcd where
  apiVersion : ℕ
  enumerateInstanceExtensionProperties : EnumerateExtensions
  /-- `vkEnumerateInstanceVersion`, if the driver has it. -/
  enumerateInstanceVersion : Option (VkResult × ℕ)
  createInstance : VkInstanceCreateInfo → DriverInstance
  getInstanceProcAddr : String → Bool
  icdTermAllocated : Bool
  extListGrows : ℕ → Bool

/-- `struct loader_icd_term`; the driver is named by its place in the scanned list. -/
structure IcdTerm where
  scannedIcd : ℕ
  enabledInstanceExtensions : InstanceExtensionEnableList
  icdInstance : Handle
  /-- `dispatch` was filled by `loader_icd_init_entries`; its functions are null before. -/
  hasDispatch : Bool
  deriving DecidableEq

/-- The calls that make and destroy instances of the drivers. -/
inductive DriverCall where
  | createInstance (icd : ℕ) (icdInstance : Handle)
  | destroyInstance (icd : ℕ) (icdInstance : Handle)
  deriving DecidableEq

/-- The instance and the locals of the loop. -/
structure CreateState where
  icdTerms : List IcdTerm := []
  icdTermsCount : ℕ := 0
  res : VkResult := .success
  oneIcdSuccessful : Bool := false
  forcedIcdResult : VkResult := .success
  enabledExtensions : InstanceExtensionEnableList := {}
  createTerminatorInvalidExtension : Bool := false
  /-- What the drivers answered to `vkEnumerateInstanceVersion`; the loader logs it and goes on. -/
  versionQueries : List (ℕ × VkResult × ℕ) := []
  calls : List DriverCall := []
  /-- No null function was called: the call of the loader comes to its end. -/
  returned : Bool := true

/-- `VK_API_VERSION_1_1`. -/
def vkApiVersion11 : ℕ := 1 <<< 22 ||| 1 <<< 12

/-- `loader_icd_add`, where its request succeeds. -/
def loaderIcdAdd (s : CreateState) (i : ℕ) : CreateState :=
  { s with icdTerms := ⟨i, {}, nullHandle, false⟩ :: s.icdTerms, icdTermsCount := s.icdTermsCount + 1 }

/-- The head of the list is unlinked and passed to `loader_icd_destroy`. -/
def removeIcdTerm (s : CreateState) : CreateState :=
  { s with icdTerms := s.icdTerms.tail, icdTermsCount := s.icdTermsCount - 1 }

/-- A write through `icd_term`, which is the head of the list. -/
def modifyIcdTerm (f : IcdTerm → IcdTerm) (s : CreateState) : CreateState :=
  match s.icdTerms with
  | [] => s
  | t :: ts => { s with icdTerms := f t :: ts }

/-- The names the driver is asked to enable. -/
def filteredExtensionNames (pCreateInfo : VkInstanceCreateInfo) (icdExts : ExtensionList) : List String :=
  pCreateInfo.enabledExtensionNames.filter fun name => (getExtensionProperty name icdExts).isSome

/-- The version query of an iteration. -/
def versionQuery (i : ℕ) (icd : ScannedIcd) : List (ℕ × VkResult × ℕ) :=
  if icd.apiVersion ≥ vkApiVersion11 then (icd.enumerateInstanceVersion.map fun a => (i, a)).toList else []

/-- One iteration; `true` is `goto out`. -/
def tryScannedIcd (pCreateInfo : VkInstanceCreateInfo) (i : ℕ) (icd : ScannedIcd) (s : CreateState) :
    Bool × CreateState :=
  if !icd.icdTermAllocated then (true, { s with res := .errorOutOfHostMemory })
  else
    let s := loaderIcdAdd s i
    match loaderInitExtensionList icd.extListGrows with
    | none => (true, { s with res := .errorOutOfHostMemory })
    | some icdExts =>
      match loaderAddInstanceExtensions icd.extListGrows icd.enumerateInstanceExtensionProperties icdExts with
      | (.success, icdExts) =>
        let names := filteredExtensionNames pCreateInfo icdExts
        let s := modifyIcdTerm (fun t => { t with
          enabledInstanceExtensions := fillOutEnabledInstanceExtensions t.enabledInstanceExtensions names })
          { s with res := .success }
        let s := { s with versionQueries := s.versionQueries ++ versionQuery i icd }
        match icd.createInstance { pCreateInfo with enabledLayerNames := [], enabledExtensionNames := names } with
        | .failed .errorOutOfHostMemory _ left =>
          -- the term stays in the list with what the driver wrote
          (true, modifyIcdTerm (fun t => { t with icdInstance := left.getD t.icdInstance })
            { s with res := .errorOutOfHostMemory })
        | .failed icdResult _ _ =>
          let s := removeIcdTerm s
          if icdResult = .errorInitializationFailed then (false, { s with forcedIcdResult := icdResult })
          else (false, s)
        | .created inst _ =>
          let s := modifyIcdTerm (fun t => { t with icdInstance := inst })
            { s with calls := s.calls ++ [.createInstance i inst] }
          if !loaderIcdInitEntries icd.getInstanceProcAddr then (false, removeIcdTerm s)
          else (false, modifyIcdTerm (fun t => { t with hasDispatch := true }) { s with oneIcdSuccessful := true })
      | (.errorOutOfHostMemory, _) => (true, { s with res := .errorOutOfHostMemory })
      -- `res` keeps the error of this driver
      | (res, _) => (false, removeIcdTerm { s with res := res })

/-- The loop over `icd_tramp_list`. -/
def tryScannedIcds (pCreateInfo : VkInstanceCreateInfo) : List (ScannedIcd × ℕ) → CreateState → Bool × CreateState
  | [], s => (false, s)
  | (icd, i) :: icds, s =>
    match tryScannedIcd pCreateInfo i icd s with
    | (true, s) => (true, s)
    | (false, s) => tryScannedIcds pCreateInfo icds s

/-- The loop at `out:`, after an error.  It ends at a term with an instance whose `dispatch.DestroyInstance` is null. -/
def destroyIcdTerms (s : CreateState) : List IcdTerm → CreateState
  | [] => s
  | t :: ts =>
    if t.icdInstance = nullHandle then destroyIcdTerms (removeIcdTerm s) ts
    else if t.hasDispatch then
      destroyIcdTerms
        (removeIcdTerm { s with calls := s.calls ++ [.destroyInstance t.scannedIcd t.icdInstance] }) ts
    else { s with icdTerms := s.icdTerms.tail, returned := false }

/-- `res` at `out:`: the check for drivers stands between the loop and the label. -/
def resAtOut (out : Bool) (s : CreateState) : VkResult :=
  if !out ∧ s.res = .success ∧ (s.icdTerms.isEmpty ∨ !s.oneIcdSuccessful) then
    if s.forcedIcdResult ≠ .success then s.forcedIcdResult else .errorIncompatibleDriver
  else s.res

/-- `terminator_CreateInstance`, on an instance without drivers. -/
def terminatorCreateInstance (pCreateInfo : VkInstanceCreateInfo) (icds : List ScannedIcd) : CreateState :=
  let (out, s) := tryScannedIcds pCreateInfo icds.zipIdx {}
  let s := { s with res := resAtOut out s, createTerminatorInvalidExtension := false }
  if s.res ≠ .success then
    destroyIcdTerms { s with createTerminatorInvalidExtension := s.res == .errorExtensionNotPresent } s.icdTerms
  else
    { s with
      enabledExtensions := fillOutEnabledInstanceExtensions s.enabledExtensions pCreateInfo.enabledExtensionNames }

/-! ### How far a driver gets -/

inductive IcdOutcome where
  /-- Out of memory: the whole call stops.  The instance in the driver's `loader_icd_term`, if one was made. -/
  | outOfHostMemory (left : Option Handle)
  | extensionsFailed (res : VkResult)
  | createFailed (res : VkResult)
  /-- The instance exists, and a required command is absent. -/
  | entriesMissing (icdInstance : Handle)
  | accepted (icdInstance : Handle)
  deriving DecidableEq

/-- How far the driver gets, from its own answers alone. -/
def ScannedIcd.outcome (pCreateInfo : VkInstanceCreateInfo) (icd : ScannedIcd) : IcdOutcome :=
  if !icd.icdTermAllocated then .outOfHostMemory none
  else
    match loaderInitExtensionList icd.extListGrows with
    | none => .outOfHostMemory (some nullHandle)
    | some icdExts =>
      match loaderAddInstanceExtensions icd.extListGrows icd.enumerateInstanceExtensionProperties icdExts with
      | (.success, icdExts) =>
        match icd.createInstance { pCreateInfo with
          enabledLayerNames := [], enabledExtensionNames := filteredExtensionNames pCreateInfo icdExts } with
        | .failed .errorOutOfHostMemory _ left => .outOfHostMemory (some (left.getD nullHandle))
        | .failed icdResult _ _ => .createFailed icdResult
        | .created inst _ => if loaderIcdInitEntries icd.getInstanceProcAddr then .accepted inst else .entriesMissing inst
      | (.errorOutOfHostMemory, _) => .outOfHostMemory (some nullHandle)
      | (res, _) => .extensionsFailed res

/-- What an iteration leaves behind; `enabled` and `queries` are what it read of the driver's extensions and version. -/
def afterOutcome (i : ℕ) (enabled : InstanceExtensionEnableList) (queries : List (ℕ × VkResult × ℕ)) (s : CreateState) :
    IcdOutcome → Bool × CreateState
  | .outOfHostMemory none => (true, { s with res := .errorOutOfHostMemory })
  | .outOfHostMemory (some left) =>
    (true, { s with
      res := .errorOutOfHostMemory, versionQueries := queries
      icdTerms := ⟨i, enabled, left, false⟩ :: s.icdTerms, icdTermsCount := s.icdTermsCount + 1 })
  | .extensionsFailed res => (false, { s with res := res })
  | .createFailed icdResult =>
    (false, { s with
      res := .success, versionQueries := queries
      forcedIcdResult := if icdResult = .errorInitializationFailed then icdResult else s.forcedIcdResult })
  | .entriesMissing inst =>
    (false, { s with
      res := .success, versionQueries := queries, calls := s.calls ++ [.createInstance i inst] })
  | .accepted inst =>
    (false, { s with
      res := .success, versionQueries := queries, calls := s.calls ++ [.createInstance i inst]
      icdTerms := ⟨i, enabled, inst, true⟩ :: s.icdTerms, icdTermsCount := s.icdTermsCount + 1, oneIcdSuccessful := true })

/-- **The step lemma**: an iteration does what the outcome of its driver says. -/
theorem tryScannedIcd_eq (pCreateInfo : VkInstanceCreateInfo) (i : ℕ) (icd : ScannedIcd) (s : CreateState) :
    ∃ enabled queries,
      tryScannedIcd pCreateInfo i icd s = afterOutcome i enabled queries s (icd.outcome pCreateInfo) := by
  unfold tryScannedIcd ScannedIcd.outcome
  by_cases ha : icd.icdTermAllocated
  · simp only [ha, Bool.not_true, Bool.false_eq_true, if_false]
    rcases hinit : loaderInitExtensionList icd.extListGrows with _ | icdExts
    · exact ⟨{}, s.versionQueries, rfl⟩
    simp only
    rcases hadd : loaderAddInstanceExtensions icd.extListGrows icd.enumerateInstanceExtensionProperties icdExts
      with ⟨res, icdExts'⟩
    cases res
    case errorOutOfHostMemory => exact ⟨{}, s.versionQueries, rfl⟩
    case success =>
      simp only
      refine ⟨fillOutEnabledInstanceExtensions {} (filteredExtensionNames pCreateInfo icdExts'),
        s.versionQueries ++ versionQuery i icd, ?_⟩
      rcases hcreate : icd.createInstance { pCreateInfo with
          enabledLayerNames := [], enabledExtensionNames := filteredExtensionNames pCreateInfo icdExts' }
        with ⟨inst, hv⟩ | ⟨icdResult, hr, left⟩
      · by_cases hentries : loaderIcdInitEntries icd.getInstanceProcAddr
        · simp only [hentries]
          rfl
        · simp only [hentries]
          rfl
      · cases icdResult <;> rfl
    all_goals exact ⟨{}, [], rfl⟩
  · simp only [ha, Bool.not_false, if_true]
    exact ⟨{}, [], rfl⟩

theorem ScannedIcd.outcome_valid {pCreateInfo : VkInstanceCreateInfo} {icd : ScannedIcd} {inst : Handle}
    (h : icd.outcome pCreateInfo = .accepted inst ∨ icd.outcome pCreateInfo = .entriesMissing inst) :
    inst ≠ nullHandle := by
  unfold ScannedIcd.outcome at h
  split at h
  · simp at h
  · split at h
    · simp at h
    · split at h
      · split at h
        · simp at h
        · simp at h
        · rename_i inst' hv _
          split_ifs at h with he
          · have hi : inst' = inst := by simpa using h
            exact hi ▸ hv
          · have hi : inst' = inst := by simpa using h
            exact hi ▸ hv
      · simp at h
      · simp at h

/-! ### What the loop leaves behind -/

section Loop

variable (pCreateInfo : VkInstanceCreateInfo)

/-- The driver in a term and its instance. -/
def IcdTerm.key (t : IcdTerm) : ℕ × Handle := (t.scannedIcd, t.icdInstance)

/-- The clean-up can do with the term: there is no instance in it, or a function to destroy it. -/
def IcdTerm.Destroyable (t : IcdTerm) : Prop := t.icdInstance = nullHandle ∨ t.hasDispatch

/-- The instance the driver made and the loader accepted. -/
def ScannedIcd.acceptedInstance (icd : ScannedIcd) : Option Handle :=
  match icd.outcome pCreateInfo with
  | .accepted inst => some inst
  | _ => none

/-- The instance the driver made. -/
def ScannedIcd.madeInstance (icd : ScannedIcd) : Option Handle :=
  match icd.outcome pCreateInfo with
  | .accepted inst => some inst
  | .entriesMissing inst => some inst
  | _ => none

/-- The driver passes all of its steps. -/
def ScannedIcd.passes (icd : ScannedIcd) : Bool := (icd.acceptedInstance pCreateInfo).isSome

/-- Some step of the driver runs out of memory. -/
def ScannedIcd.stops (icd : ScannedIcd) : Bool :=
  match icd.outcome pCreateInfo with
  | .outOfHostMemory _ => true
  | _ => false

/-- The value of `res` after the driver's iteration. -/
def ScannedIcd.extensionsRes (icd : ScannedIcd) : VkResult :=
  match icd.outcome pCreateInfo with
  | .extensionsFailed res => res
  | _ => .success

/-- The driver refuses the application parameters, or says so. -/
def ScannedIcd.initializationFails (icd : ScannedIcd) : Bool :=
  icd.outcome pCreateInfo == .createFailed .errorInitializationFailed

/-- The pairs of a driver's place and an instance read off its outcome. -/
def instances (f : ScannedIcd → Option Handle) (l : List (ScannedIcd × ℕ)) : List (ℕ × Handle) :=
  l.filterMap fun x => (f x.1).map fun inst => (x.2, inst)

theorem instances_cons (f : ScannedIcd → Option Handle) (icd : ScannedIcd) (i : ℕ) (l : List (ScannedIcd × ℕ)) :
    instances f ((icd, i) :: l) = ((f icd).map fun inst => (i, inst)).toList ++ instances f l := by
  unfold instances
  rcases h : f icd with _ | inst <;> simp [h]

/-- The state `s'` is `s` after the drivers `l` were tried, none of them out of memory. -/
structure Tried (l : List (ScannedIcd × ℕ)) (s s' : CreateState) : Prop where
  icdTerms : s'.icdTerms.map IcdTerm.key =
    (instances (·.acceptedInstance pCreateInfo) l).reverse ++ s.icdTerms.map IcdTerm.key
  icdTermsCount : s'.icdTermsCount = s.icdTermsCount + (instances (·.acceptedInstance pCreateInfo) l).length
  calls : s'.calls = s.calls ++
    (instances (·.madeInstance pCreateInfo) l).map fun x => .createInstance x.1 x.2
  res : s'.res = (l.getLast?.map fun x => x.1.extensionsRes pCreateInfo).getD s.res
  oneIcdSuccessful : s'.oneIcdSuccessful = (s.oneIcdSuccessful || l.any fun x => x.1.passes pCreateInfo)
  forcedIcdResult : s'.forcedIcdResult =
    if l.any fun x => x.1.initializationFails pCreateInfo then .errorInitializationFailed else s.forcedIcdResult
  destroyable : (∀ t ∈ s.icdTerms, t.Destroyable) → ∀ t ∈ s'.icdTerms, t.Destroyable
  returned : s'.returned = s.returned

theorem Tried.nil (s : CreateState) : Tried pCreateInfo [] s s where
  icdTerms := by simp [instances]
  icdTermsCount := by simp [instances]
  calls := by simp [instances]
  res := rfl
  oneIcdSuccessful := by simp
  forcedIcdResult := by simp
  destroyable := fun h => h
  returned := rfl

/-- One iteration in front of the rest of the loop. -/
theorem Tried.cons {icd : ScannedIcd} {i : ℕ} {l : List (ScannedIcd × ℕ)} {s s₁ s' : CreateState}
    (h₁ : Tried pCreateInfo [(icd, i)] s s₁) (h : Tried pCreateInfo l s₁ s') :
    Tried pCreateInfo ((icd, i) :: l) s s' where
  icdTerms := by
    rw [h.icdTerms, h₁.icdTerms, instances_cons, instances_cons]
    simp [instances]
  icdTermsCount := by
    rw [h.icdTermsCount, h₁.icdTermsCount, instances_cons, instances_cons]
    simp [instances]
    omega
  calls := by
    rw [h.calls, h₁.calls, instances_cons, instances_cons]
    simp [instances]
  res := by
    rw [h.res, h₁.res]
    rcases l with _ | ⟨x, l⟩
    · rfl
    · simp [List.getLast?_cons]
  oneIcdSuccessful := by
    rw [h.oneIcdSuccessful, h₁.oneIcdSuccessful]
    simp [Bool.or_assoc]
  forcedIcdResult := by
    rw [h.forcedIcdResult, h₁.forcedIcdResult, List.any_cons, List.any_cons]
    rcases h1 : icd.initializationFails pCreateInfo with _ | _
    · rw [Bool.false_or, Bool.false_or, List.any_nil, if_neg Bool.false_ne_true]
    · simp
  destroyable := fun hs => h.destroyable (h₁.destroyable hs)
  returned := h.returned.trans h₁.returned

theorem tryScannedIcd_tried {icd : ScannedIcd} {i : ℕ} {s : CreateState} (hicd : icd.stops pCreateInfo = false) :
    ∃ s', tryScannedIcd pCreateInfo i icd s = (false, s') ∧ Tried pCreateInfo [(icd, i)] s s' := by
  obtain ⟨enabled, queries, heq⟩ := tryScannedIcd_eq pCreateInfo i icd s
  rw [heq]
  rcases ho : icd.outcome pCreateInfo with b | res | res | inst | inst
  · simp [ScannedIcd.stops, ho] at hicd
  all_goals
    refine ⟨_, rfl, ?_⟩
    constructor <;>
      simp [instances, ScannedIcd.acceptedInstance, ScannedIcd.madeInstance, ScannedIcd.passes, ScannedIcd.extensionsRes,
        ScannedIcd.initializationFails, IcdTerm.key, IcdTerm.Destroyable, ho]
  -- the code the loop keeps is the one it compared with
  split_ifs with hres
  · exact hres
  · rfl

/-- **The loop** over drivers that do not run out of memory. -/
theorem tryScannedIcds_tried {l : List (ScannedIcd × ℕ)} (hl : ∀ x ∈ l, x.1.stops pCreateInfo = false)
    (s : CreateState) : ∃ s', tryScannedIcds pCreateInfo l s = (false, s') ∧ Tried pCreateInfo l s s' := by
  induction l generalizing s with
  | nil => exact ⟨s, rfl, Tried.nil pCreateInfo s⟩
  | cons x l ih =>
    obtain ⟨icd, i⟩ := x
    obtain ⟨s₁, heq, h₁⟩ := tryScannedIcd_tried pCreateInfo (i := i) (s := s) (hl _ List.mem_cons_self)
    obtain ⟨s', heq', h'⟩ := ih (fun x hx => hl x (List.mem_cons_of_mem _ hx)) s₁
    refine ⟨s', ?_, Tried.cons pCreateInfo h₁ h'⟩
    simp only [tryScannedIcds, heq]
    exact heq'

end Loop

/-- The clean-up empties the list and destroys the instances in it, in order. -/
theorem destroyIcdTerms_eq (s : CreateState) (hcount : s.icdTermsCount = s.icdTerms.length)
    (hterms : ∀ t ∈ s.icdTerms, t.Destroyable) :
    (destroyIcdTerms s s.icdTerms).icdTerms = [] ∧ (destroyIcdTerms s s.icdTerms).icdTermsCount = 0 ∧
      (destroyIcdTerms s s.icdTerms).res = s.res ∧
      (destroyIcdTerms s s.icdTerms).calls = s.calls ++
        ((s.icdTerms.map IcdTerm.key).filter (·.2 ≠ nullHandle)).map fun x => .destroyInstance x.1 x.2 := by
  generalize hts : s.icdTerms = ts at hcount hterms
  induction ts generalizing s with
  | nil => exact ⟨hts, hcount, rfl, by simp [destroyIcdTerms]⟩
  | cons t ts ih =>
    rw [List.length_cons] at hcount
    have hrest : ∀ u ∈ ts, u.Destroyable := fun u hu => hterms u (List.mem_cons_of_mem t hu)
    by_cases ht : t.icdInstance = nullHandle
    · simp only [destroyIcdTerms, ht, if_true]
      obtain ⟨h1, h2, h3, h4⟩ :=
        ih (removeIcdTerm s) (by simp [removeIcdTerm, hts]) (by simp [removeIcdTerm, hcount]) hrest
      refine ⟨h1, h2, h3, ?_⟩
      rw [h4]
      simp [removeIcdTerm, IcdTerm.key, ht]
    · have hdispatch : t.hasDispatch = true := (hterms t List.mem_cons_self).resolve_left ht
      simp only [destroyIcdTerms, ht, if_false, hdispatch, if_true]
      obtain ⟨h1, h2, h3, h4⟩ := ih
        (removeIcdTerm { s with calls := s.calls ++ [.destroyInstance t.scannedIcd t.icdInstance] })
        (by simp [removeIcdTerm, hts]) (by simp [removeIcdTerm, hcount]) hrest
      refine ⟨h1, h2, h3, ?_⟩
      rw [h4]
      simp [removeIcdTerm, IcdTerm.key, ht]

/-- The clean-up comes to its end exactly if it can do with every term. -/
theorem destroyIcdTerms_returned_iff (s : CreateState) (ts : List IcdTerm) (hs : s.returned = true) :
    (destroyIcdTerms s ts).returned = true ↔ ∀ t ∈ ts, t.Destroyable := by
  induction ts generalizing s with
  | nil => simpa [destroyIcdTerms] using hs
  | cons t ts ih =>
    rw [destroyIcdTerms, List.forall_mem_cons]
    split_ifs with hinst hdispatch
    · rw [ih, and_iff_right (show t.Destroyable from Or.inl hinst)]
      exact hs
    · rw [ih, and_iff_right (show t.Destroyable from Or.inr hdispatch)]
      exact hs
    · simp [IcdTerm.Destroyable, hinst, hdispatch]

/-- The calls of the clean-up: the instances in the list, newest driver first. -/
def destroyCalls (icdTerms : List IcdTerm) : List DriverCall :=
  ((icdTerms.map IcdTerm.key).filter (·.2 ≠ nullHandle)).map fun x => .destroyInstance x.1 x.2

/-- The end of a call, from the state after its loop. -/
theorem terminatorCreateInstance_eq {pCreateInfo : VkInstanceCreateInfo} {icds : List ScannedIcd} {out : Bool}
    {s : CreateState} (hloop : tryScannedIcds pCreateInfo icds.zipIdx {} = (out, s))
    (hcount : s.icdTermsCount = s.icdTerms.length) (hterms : ∀ t ∈ s.icdTerms, t.Destroyable) :
    (terminatorCreateInstance pCreateInfo icds).res = resAtOut out s ∧
      (terminatorCreateInstance pCreateInfo icds).icdTerms = (if resAtOut out s = .success then s.icdTerms else []) ∧
      (terminatorCreateInstance pCreateInfo icds).icdTermsCount =
        (terminatorCreateInstance pCreateInfo icds).icdTerms.length ∧
      (terminatorCreateInstance pCreateInfo icds).calls =
        s.calls ++ (if resAtOut out s = .success then [] else destroyCalls s.icdTerms) := by
  unfold terminatorCreateInstance
  rw [hloop]
  by_cases hres : resAtOut out s = .success
  · simp [hres, hcount]
  · simp only [ne_eq, hres, not_false_eq_true, if_true, if_false]
    obtain ⟨h1, h2, h3, h4⟩ := destroyIcdTerms_eq
      { s with
        res := resAtOut out s, createTerminatorInvalidExtension := resAtOut out s == .errorExtensionNotPresent }
      hcount hterms
    refine ⟨h3, h1, ?_, h4⟩
    rw [h1, h2]
    rfl

/-- A call does not come to its end where it fails and its clean-up meets a term it cannot do with. -/
theorem terminatorCreateInstance_returned_iff {pCreateInfo : VkInstanceCreateInfo} {icds : List ScannedIcd}
    {out : Bool} {s : CreateState} (hloop : tryScannedIcds pCreateInfo icds.zipIdx {} = (out, s))
    (hs : s.returned = true) :
    (terminatorCreateInstance pCreateInfo icds).returned = true ↔
      resAtOut out s = .success ∨ ∀ t ∈ s.icdTerms, t.Destroyable := by
  unfold terminatorCreateInstance
  rw [hloop]
  by_cases hres : resAtOut out s = .success
  · simp [hres, hs]
  · simp only [ne_eq, hres, not_false_eq_true, if_true, false_or]
    exact destroyIcdTerms_returned_iff _ s.icdTerms hs

end VulkanLoader
