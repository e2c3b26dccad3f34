import VulkanLoader.Drivers.DriverLibraries
import Mathlib.Algebra.BigOperators.Group.List.Basic

/-!
# The lists of drivers over a run

The loader has a list of drivers for each instance, and one of drivers that are preloaded.  What each call does to them
under a lock is one section; the sections of several threads follow one another in any order.

An enumeration of the instance extensions has a list of its own.  Where it fails, it frees the array of the list and
nothing else: its drivers are *orphaned*, with their libraries open.
-/

namespace VulkanLoader

open VulkanLoader.Lib HandleEvent

/-- The lists of drivers: `preloaded_icds`, those of the instances, and the orphaned drivers. -/
structure DriverLists where
  preloaded : IcdTrampList
  instances : List IcdTrampList
  orphaned : List LoaderScannedIcd
  ledger : DriverLedger

/-- What a scan finds: the manifests, and the library that each one names. -/
structure DriverSearch where
  scan : IcdScan
  library : IcdManifest → DriverLibrary

namespace DriverLists

/-- The lists of a loader that has just been loaded. -/
def start : DriverLists := ⟨.zero, [], [], ⟨0, []⟩⟩

/-! ### The sections -/

/-- `loader_preload_icds`. -/
def loaderPreloadIcds (grants : ℕ → Bool) (search : DriverSearch) (s : DriverLists) : Option DriverLists := do
  if s.preloaded.scannedList.isSome then some s
  else
    let (result, list, l) ← scanIntoList grants search.scan search.library s.preloaded s.ledger
    if result ≠ .success then
      let (list, l) := loaderClearScannedIcdList list l
      some { s with preloaded := list, ledger := l }
    else some { s with preloaded := list, ledger := l }

/-- `loader_unload_preloaded_icds`. -/
def loaderUnloadPreloadedIcds (s : DriverLists) : DriverLists :=
  let (list, l) := loaderClearScannedIcdList s.preloaded s.ledger
  { s with preloaded := list, ledger := l }

/-- The part of `vkCreateInstance` from the scan on; `rest` is what comes of it after the scan. -/
def vkCreateInstance (grants : ℕ → Bool) (search : DriverSearch) (rest : VkResult) (s : DriverLists) :
    Option DriverLists := do
  let (res, list, l) ← scanIntoList grants search.scan search.library .zero s.ledger
  if res = .errorOutOfHostMemory ∨ list.icds.length = 0 ∨ rest ≠ .success then
    let (_, l) := loaderClearScannedIcdList list l
    some { s with ledger := l }
  else some { s with instances := list :: s.instances, ledger := l }

/-- `vkDestroyInstance`, but for the preloaded drivers. -/
def vkDestroyInstance (i : ℕ) (s : DriverLists) : Option DriverLists := do
  let list ← s.instances[i]?
  let (_, l) := loaderClearScannedIcdList list s.ledger
  some { s with instances := s.instances.eraseIdx i, ledger := l }

/-- The part of `terminator_EnumerateInstanceExtensionProperties` with a list of drivers, after `loader_preload_icds`;
`extensions` is what `loader_get_icd_loader_instance_extensions` returns. -/
def enumerateInstanceExtensionProperties (grants : ℕ → Bool) (search : DriverSearch) (extensions : VkResult)
    (s : DriverLists) : Option DriverLists := do
  let (res, list, l) ← scanIntoList grants search.scan search.library .zero s.ledger
  if res ≠ .success ∧ list.icds.length > 0 ∨ res = .errorOutOfHostMemory ∨ extensions ≠ .success then
    -- out: only the array is freed
    let array := (list.scannedList.map fun array => DriverResource.block array.1).toList
    some { s with orphaned := list.icds ++ s.orphaned, ledger := l.giveBack array }
  else
    let (_, l) := loaderClearScannedIcdList list l
    some { s with ledger := l }

/-- An entry is emptied, and the last one is moved to its place; the count goes down, but not for the first place. -/
def removeEntry (icds : List LoaderScannedIcd) (i : ℕ) : List LoaderScannedIcd :=
  let last := icds.length - 1
  let emptied := icds.set i .zero
  let condensed := if i < last then (emptied.set i (emptied.getD last .zero)).set last .zero else emptied
  if i > 0 then condensed.dropLast else condensed

/-- The loop of `unload_drivers_without_physical_devices` over `preloaded_icds`, for a library of a name. -/
def unloadPreloaded (libName : Option String) (preloaded : IcdTrampList) (l : DriverLedger) :
    IcdTrampList × DriverLedger :=
  match preloaded.scannedList with
  | none => (preloaded, l)
  | some (array, icds) =>
    match icds.findIdx? fun p => p.libName.isSome && libName.isSome && p.libName.map Prod.snd == libName with
    | none => (preloaded, l)
    | some i =>
      let (_, l) := (icds.getD i .zero).unload l
      ({ preloaded with scannedList := some (array, removeEntry icds i) }, l)

/-- What `unload_drivers_without_physical_devices` does to the lists for the driver at an index of an instance. -/
def unloadDriver (i k : ℕ) (s : DriverLists) : Option DriverLists := do
  let list ← s.instances[i]?
  let (array, icds) ← list.scannedList
  let icd ← icds[k]?
  let (preloaded, l) := unloadPreloaded (icd.libName.map Prod.snd) s.preloaded s.ledger
  let (emptied, l) := icd.unload l
  some { s with
    preloaded := preloaded
    instances := s.instances.set i { list with scannedList := some (array, icds.set k emptied) }
    ledger := l }

/-- The sections. -/
inductive Section where
  | preload (search : DriverSearch)
  | unloadPreloaded
  | createInstance (search : DriverSearch) (rest : VkResult)
  | destroyInstance (i : ℕ)
  | enumerateExtensions (search : DriverSearch) (extensions : VkResult)
  | unloadDriver (i k : ℕ)

/-- One section; it has no result where the loader writes to an array that is not there, or is given an instance or a
driver that it does not have. -/
def step (grants : ℕ → Bool) (s : DriverLists) : Section → Option DriverLists
  | .preload search => s.loaderPreloadIcds grants search
  | .unloadPreloaded => some s.loaderUnloadPreloadedIcds
  | .createInstance search rest => s.vkCreateInstance grants search rest
  | .destroyInstance i => s.vkDestroyInstance i
  | .enumerateExtensions search extensions => s.enumerateInstanceExtensionProperties grants search extensions
  | .unloadDriver i k => s.unloadDriver i k

/-- The sections of a run, in the order in which they come. -/
def runSections (grants : ℕ → Bool) (sections : List Section) (s : DriverLists) : Option DriverLists :=
  sections.foldlM (step grants) s

/-! ### What is owned -/

/-- What the drivers of a list own. -/
def ownedBy (icds : List LoaderScannedIcd) : Multiset DriverResource :=
  (icds.map fun icd => (icd.resources : Multiset DriverResource)).sum

/-- What the lists own, with the orphaned drivers. -/
def owned (s : DriverLists) : Multiset DriverResource :=
  s.preloaded.owned + (s.instances.map IcdTrampList.owned).sum + ownedBy s.orphaned

/-- The preloaded drivers have room, and each instance has an array of drivers. -/
structure WellFormed (s : DriverLists) : Prop where
  preloaded : s.preloaded.Sized
  instances : ∀ list ∈ s.instances, list.Live

theorem ownedBy_append (icds icds' : List LoaderScannedIcd) : ownedBy (icds ++ icds') = ownedBy icds + ownedBy icds' := by
  rw [ownedBy, List.map_append, List.sum_append]
  rfl

theorem resources_zero : (LoaderScannedIcd.zero.resources : Multiset DriverResource) = 0 := rfl

theorem coe_flatMap_resources (icds : List LoaderScannedIcd) :
    (icds.flatMap LoaderScannedIcd.resources : Multiset DriverResource) = ownedBy icds := by
  induction icds with
  | nil => rfl
  | cons icd icds ih =>
    rw [List.flatMap_cons, ← Multiset.coe_add, ih]
    rfl

theorem owned_list (capacity array : ℕ) (icds : List LoaderScannedIcd) :
    (⟨capacity, some (array, icds)⟩ : IcdTrampList).owned = .block array ::ₘ ownedBy icds := by
  rw [IcdTrampList.owned_mk, coe_flatMap_resources]

theorem sum_set_add {α β : Type*} [AddCommMonoid β] (f : α → β) {xs : List α} {i : ℕ} (hi : i < xs.length) (x : α) :
    ((xs.set i x).map f).sum + f xs[i] = (xs.map f).sum + f x := by
  have hset := ((List.set_perm_cons_eraseIdx hi x).map f).sum_eq
  have hget := ((List.getElem_cons_eraseIdx_perm hi).map f).sum_eq
  rw [hset, ← hget, List.map_cons, List.map_cons, List.sum_cons, List.sum_cons]
  abel

/-- An entry in the place of another one. -/
theorem ownedBy_set_add {icds : List LoaderScannedIcd} {i : ℕ} (hi : i < icds.length) (icd : LoaderScannedIcd) :
    ownedBy (icds.set i icd) + icds[i].resources = ownedBy icds + icd.resources :=
  sum_set_add (fun icd => (icd.resources : Multiset DriverResource)) hi icd

/-- An emptied entry owns nothing. -/
theorem ownedBy_set_zero {icds : List LoaderScannedIcd} {i : ℕ} (hi : i < icds.length) :
    ownedBy (icds.set i .zero) + icds[i].resources = ownedBy icds := by
  rw [ownedBy_set_add hi, resources_zero, Multiset.add_zero]

theorem ownedBy_dropLast {icds : List LoaderScannedIcd} (h : icds.getLast? = some .zero) :
    ownedBy icds.dropLast = ownedBy icds := by
  obtain ⟨init, rfl⟩ := List.getLast?_eq_some_iff.1 h
  rw [List.dropLast_concat, ownedBy_append]
  exact (Multiset.add_zero _).symm

/-- The last entry is moved to the place of another one. -/
theorem ownedBy_moved {icds : List LoaderScannedIcd} {i : ℕ} (hi : i < icds.length - 1) :
    ownedBy (((icds.set i .zero).set i ((icds.set i .zero).getD (icds.length - 1) .zero)).set (icds.length - 1) .zero) +
      icds[i].resources = ownedBy icds := by
  have hlast : icds.length - 1 < icds.length := by omega
  have hmoved : (icds.set i .zero).getD (icds.length - 1) .zero = icds[icds.length - 1] := by
    rw [List.getD_eq_getElem?_getD, List.getElem?_set_ne hi.ne, List.getElem?_eq_getElem hlast, Option.getD_some]
  rw [hmoved, List.set_set]
  have hset := ownedBy_set_add (Nat.lt_of_lt_pred hi) icds[icds.length - 1]
  have hemptied := ownedBy_set_zero
    (show icds.length - 1 < (icds.set i icds[icds.length - 1]).length by rw [List.length_set]; exact hlast)
  rw [List.getElem_set_ne hi.ne] at hemptied
  rw [← hemptied, add_right_comm] at hset
  exact add_right_cancel hset

/-- The removal takes out what the entry owned. -/
theorem ownedBy_removeEntry {icds : List LoaderScannedIcd} {i : ℕ} (hi : i < icds.length) :
    ownedBy (removeEntry icds i) + icds[i].resources = ownedBy icds := by
  unfold removeEntry
  dsimp only
  split_ifs with hpos hlast hlast
  · rw [ownedBy_dropLast, ownedBy_moved hlast]
    rw [List.getLast?_eq_getElem?, List.length_set, List.length_set, List.length_set, List.getElem?_set_self]
    rw [List.length_set, List.length_set]
    omega
  · rw [ownedBy_dropLast, ownedBy_set_zero hi]
    rw [List.getLast?_eq_getElem?, List.length_set]
    obtain rfl : i = icds.length - 1 := by omega
    exact List.getElem?_set_self hi
  · exact ownedBy_moved hlast
  · exact ownedBy_set_zero hi

/-! ### One section -/

section Sections

open DriverLedger

variable {grants : ℕ → Bool} {search : DriverSearch} {s s' : DriverLists}

/-- The section has no result. -/
def Section.Traps (grants : ℕ → Bool) (s : DriverLists) : Section → Prop
  | .preload search => s.preloaded.scannedList = none ∧ search.scan.Traps ∧ grants s.ledger.requests
  | .unloadPreloaded => False
  | .createInstance search _ => search.scan.Traps ∧ grants s.ledger.requests
  | .destroyInstance i => s.instances.length ≤ i
  | .enumerateExtensions search _ => search.scan.Traps ∧ grants s.ledger.requests
  | .unloadDriver i k => ∀ list, s.instances[i]? = some list → list.icds.length ≤ k

/-- The lists own what is held. -/
structure Keeps (s s' : DriverLists) : Prop where
  wellFormed : s'.WellFormed
  holds : Holds s.owned s'.owned s.ledger s'.ledger

/-- What is owned besides the preloaded drivers. -/
def besides (s : DriverLists) : Multiset DriverResource :=
  (s.instances.map IcdTrampList.owned).sum + ownedBy s.orphaned

theorem owned_eq (s : DriverLists) : s.owned = s.preloaded.owned + s.besides := Multiset.add_assoc _ _ _

/-- A list of zeros is scanned into. -/
theorem scanIntoZero_ends (grants : ℕ → Bool) (search : DriverSearch) (s : DriverLists)
    (htraps : ¬ (search.scan.Traps ∧ grants s.ledger.requests)) :
    ∃ res list l, scanIntoList grants search.scan search.library .zero s.ledger = some (res, list, l) ∧ list.Sized ∧
      Holds s.owned (list.owned + s.owned) s.ledger l := by
  obtain ⟨res, list, l, hscan, hsized, hholds⟩ := scanIntoList_ends grants search.scan search.library
    IcdTrampList.sized_zero s.ledger htraps s.owned
  rw [IcdTrampList.owned_zero, Multiset.zero_add] at hholds
  exact ⟨res, list, l, hscan, hsized, hholds⟩

theorem loaderPreloadIcds_ends (h : s.WellFormed) (htraps : ¬ Section.Traps grants s (.preload search)) :
    ∃ s', s.loaderPreloadIcds grants search = some s' ∧ Keeps s s' := by
  unfold loaderPreloadIcds
  rcases harray : s.preloaded.scannedList with _ | array
  · have hscans : ¬ (search.scan.Traps ∧ grants s.ledger.requests) := fun hscans => htraps ⟨harray, hscans⟩
    obtain ⟨res, list, l, hscan, hsized, hholds⟩ := scanIntoList_ends grants search.scan search.library h.preloaded
      s.ledger hscans s.besides
    rw [← owned_eq] at hholds
    have hcleared := (loaderClearScannedIcdList_holds hsized l s.besides).2
    rw [Option.isSome_none, if_neg Bool.false_ne_true, hscan, Option.bind_eq_bind, Option.bind_some]
    dsimp only
    split_ifs
    · refine ⟨_, rfl, ⟨IcdTrampList.sized_zero, h.instances⟩, ?_⟩
      have howned : owned { s with preloaded := .zero, ledger := (loaderClearScannedIcdList list l).2 } = s.besides :=
        (owned_eq _).trans (Multiset.zero_add _)
      exact hholds.trans (hcleared.trans (howned ▸ Holds.refl _ _))
    · refine ⟨_, rfl, ⟨hsized, h.instances⟩, ?_⟩
      rw [owned_eq { s with preloaded := list, ledger := l }]
      exact hholds
  · exact ⟨s, if_pos rfl, h, Holds.refl _ _⟩

theorem loaderUnloadPreloadedIcds_keeps (h : s.WellFormed) : Keeps s s.loaderUnloadPreloadedIcds := by
  refine ⟨⟨IcdTrampList.sized_zero, h.instances⟩, ?_⟩
  have howned : s.loaderUnloadPreloadedIcds.owned = s.besides := (owned_eq _).trans (Multiset.zero_add _)
  rw [owned_eq s, howned]
  exact (loaderClearScannedIcdList_holds h.preloaded s.ledger s.besides).2

theorem vkCreateInstance_ends (h : s.WellFormed) (rest : VkResult)
    (htraps : ¬ (search.scan.Traps ∧ grants s.ledger.requests)) :
    ∃ s', s.vkCreateInstance grants search rest = some s' ∧ Keeps s s' := by
  obtain ⟨res, list, l, hscan, hsized, hholds⟩ := scanIntoZero_ends grants search s htraps
  unfold vkCreateInstance
  rw [hscan, Option.bind_eq_bind, Option.bind_some]
  dsimp only
  split_ifs with hfails
  · exact ⟨_, rfl, ⟨h.preloaded, h.instances⟩, hholds.trans (loaderClearScannedIcdList_holds hsized l s.owned).2⟩
  · have hdrivers : list.icds.length ≠ 0 := fun hnone => hfails (.inr (.inl hnone))
    have harray : list.scannedList.isSome := by
      by_contra hnone
      exact hdrivers (by rw [IcdTrampList.icds, Option.not_isSome_iff_eq_none.1 hnone]; rfl)
    refine ⟨_, rfl, ⟨h.preloaded, List.forall_mem_cons.2 ⟨⟨harray, hsized harray⟩, h.instances⟩⟩, ?_⟩
    have howned : list.owned + s.owned = owned { s with instances := list :: s.instances, ledger := l } := by
      simp only [owned, List.map_cons, List.sum_cons]
      abel
    rw [← howned]
    exact hholds

theorem vkDestroyInstance_ends (h : s.WellFormed) {i : ℕ} (hi : i < s.instances.length) :
    ∃ s', s.vkDestroyInstance i = some s' ∧ Keeps s s' := by
  have hlive := h.instances _ (List.getElem_mem hi)
  generalize hrest : owned { s with instances := s.instances.eraseIdx i } = rest
  have howned : s.owned = s.instances[i].owned + rest := by
    simp only [← hrest, owned]
    rw [← ((List.getElem_cons_eraseIdx_perm hi).map IcdTrampList.owned).sum_eq, List.map_cons, List.sum_cons]
    abel
  have hcleared := (loaderClearScannedIcdList_holds (fun _ => hlive.room) s.ledger rest).2
  rw [← howned, ← hrest] at hcleared
  unfold vkDestroyInstance
  rw [List.getElem?_eq_getElem hi, Option.bind_eq_bind, Option.bind_some]
  exact ⟨_, rfl, ⟨h.preloaded, fun list hlist => h.instances list (List.mem_of_mem_eraseIdx hlist)⟩, hcleared⟩

theorem enumerateInstanceExtensionProperties_ends (h : s.WellFormed) (extensions : VkResult)
    (htraps : ¬ (search.scan.Traps ∧ grants s.ledger.requests)) :
    ∃ s', s.enumerateInstanceExtensionProperties grants search extensions = some s' ∧ Keeps s s' := by
  obtain ⟨res, list, l, hscan, hsized, hholds⟩ := scanIntoZero_ends grants search s htraps
  unfold enumerateInstanceExtensionProperties
  rw [hscan, Option.bind_eq_bind, Option.bind_some]
  dsimp only
  split_ifs
  · refine ⟨_, rfl, ⟨h.preloaded, h.instances⟩, hholds.trans ?_⟩
    have howned : list.owned + s.owned = ((list.scannedList.map fun array => DriverResource.block array.1).toList :
        Multiset DriverResource) + owned { s with orphaned := list.icds ++ s.orphaned } := by
      rw [IcdTrampList.owned, IcdTrampList.resources, ← Multiset.coe_add, coe_flatMap_resources]
      simp only [owned, ownedBy_append]
      abel
    rw [howned]
    exact holds_giveBack _ _ l
  · exact ⟨_, rfl, ⟨h.preloaded, h.instances⟩, hholds.trans (loaderClearScannedIcdList_holds hsized l s.owned).2⟩

/-- The preloaded drivers give back what the entry owns. -/
theorem unloadPreloaded_ends (libName : Option String) {preloaded : IcdTrampList} (hsized : preloaded.Sized)
    (l : DriverLedger) (held : Multiset DriverResource) :
    ∃ preloaded' l', unloadPreloaded libName preloaded l = (preloaded', l') ∧ preloaded'.Sized ∧
      Holds (preloaded.owned + held) (preloaded'.owned + held) l l' := by
  obtain ⟨capacity, _ | ⟨array, icds⟩⟩ := preloaded
  · exact ⟨_, _, rfl, hsized, Holds.refl _ l⟩
  · unfold unloadPreloaded LoaderScannedIcd.unload
    dsimp only
    split
    case h_1 => exact ⟨_, _, rfl, hsized, Holds.refl _ l⟩
    case h_2 i hfind =>
      obtain ⟨hi, -⟩ := List.findIdx?_eq_some_iff_getElem.1 hfind
      refine ⟨_, _, rfl, hsized, ?_⟩
      have howned : (⟨capacity, some (array, icds)⟩ : IcdTrampList).owned + held =
          icds[i].resources + ((⟨capacity, some (array, removeEntry icds i)⟩ : IcdTrampList).owned + held) := by
        rw [owned_list, owned_list, ← ownedBy_removeEntry hi, ← Multiset.singleton_add, ← Multiset.singleton_add]
        abel
      rw [howned, List.getD_eq_getElem?_getD, List.getElem?_eq_getElem hi, Option.getD_some]
      exact holds_giveBack _ _ l

theorem unloadDriver_ends (h : s.WellFormed) {i k : ℕ} (hi : i < s.instances.length)
    (hk : k < (s.instances[i]).icds.length) : ∃ s', s.unloadDriver i k = some s' ∧ Keeps s s' := by
  have hlive := h.instances _ (List.getElem_mem hi)
  obtain ⟨preloaded, instances, orphaned, ledger⟩ := s
  dsimp only at hi hk hlive
  generalize hlist : instances[i] = list at hk hlive
  obtain ⟨capacity, _ | ⟨array, icds⟩⟩ := list
  · exact absurd hlive.array Bool.false_ne_true
  · change k < icds.length at hk
    obtain ⟨preloaded', l', hpreloaded, hsized, hholds⟩ := unloadPreloaded_ends (icds[k].libName.map Prod.snd)
      h.preloaded ledger ((instances.map IcdTrampList.owned).sum + ownedBy orphaned)
    unfold unloadDriver LoaderScannedIcd.unload
    dsimp only
    rw [List.getElem?_eq_getElem hi, hlist, Option.bind_eq_bind, Option.bind_some]
    dsimp only
    rw [Option.bind_eq_bind, Option.bind_some]
    dsimp only
    rw [List.getElem?_eq_getElem hk, Option.bind_eq_bind, Option.bind_some, hpreloaded]
    refine ⟨_, rfl, ⟨hsized, ?_⟩, ?_⟩
    · intro list hmem
      rcases List.mem_or_eq_of_mem_set hmem with hmem | rfl
      · exact h.instances list hmem
      · exact ⟨rfl, hlive.room⟩
    · rw [owned_eq]
      refine hholds.trans ?_
      have hset : ((instances.set i ⟨capacity, some (array, icds.set k .zero)⟩).map IcdTrampList.owned).sum +
          icds[k].resources = (instances.map IcdTrampList.owned).sum := by
        have hsum := sum_set_add IcdTrampList.owned hi ⟨capacity, some (array, icds.set k .zero)⟩
        rw [hlist, owned_list, owned_list, ← ownedBy_set_zero hk, add_comm (ownedBy _), ← Multiset.add_cons,
          ← add_assoc] at hsum
        exact add_right_cancel hsum
      have howned : preloaded'.owned + ((instances.map IcdTrampList.owned).sum + ownedBy orphaned) =
          icds[k].resources + owned ⟨preloaded', instances.set i ⟨capacity, some (array, icds.set k .zero)⟩, orphaned,
            l'⟩ := by
        rw [owned, ← hset]
        abel
      change Holds (preloaded'.owned + ((instances.map IcdTrampList.owned).sum + ownedBy orphaned)) _ _ _
      rw [howned]
      exact holds_giveBack _ _ l'

/-- **One section**: it has a result unless it traps, and what is held is owned afterwards. -/
theorem step_ends (h : s.WellFormed) (c : Section) (htraps : ¬ c.Traps grants s) :
    ∃ s', s.step grants c = some s' ∧ Keeps s s' := by
  cases c with
  | preload search => exact loaderPreloadIcds_ends h htraps
  | unloadPreloaded => exact ⟨_, rfl, loaderUnloadPreloadedIcds_keeps h⟩
  | createInstance search rest => exact vkCreateInstance_ends h rest htraps
  | destroyInstance i => exact vkDestroyInstance_ends h (Nat.lt_of_not_le htraps)
  | enumerateExtensions search extensions => exact enumerateInstanceExtensionProperties_ends h extensions htraps
  | unloadDriver i k =>
    simp only [Section.Traps, not_forall, Nat.not_le] at htraps
    obtain ⟨list, hlist, hk⟩ := htraps
    obtain ⟨hi, rfl⟩ := List.getElem?_eq_some_iff.1 hlist
    exact unloadDriver_ends h hi hk

theorem step_eq_none (h : s.WellFormed) (c : Section) (htraps : c.Traps grants s) : s.step grants c = none := by
  cases c with
  | preload search =>
    obtain ⟨harray, hscans, hgrants⟩ := htraps
    rw [step, loaderPreloadIcds, harray, Option.isSome_none, if_neg Bool.false_ne_true,
      scanIntoList_eq_none search.scan search.library h.preloaded hscans hgrants]
    rfl
  | unloadPreloaded => exact htraps.elim
  | createInstance search rest =>
    rw [step, vkCreateInstance,
      scanIntoList_eq_none search.scan search.library IcdTrampList.sized_zero htraps.1 htraps.2]
    rfl
  | destroyInstance i =>
    rw [step, vkDestroyInstance, List.getElem?_eq_none htraps]
    rfl
  | enumerateExtensions search extensions =>
    rw [step, enumerateInstanceExtensionProperties,
      scanIntoList_eq_none search.scan search.library IcdTrampList.sized_zero htraps.1 htraps.2]
    rfl
  | unloadDriver i k =>
    rw [step, unloadDriver]
    rcases hlist : s.instances[i]? with _ | ⟨capacity, _ | ⟨array, icds⟩⟩
    · rfl
    · rfl
    · have hk : icds.length ≤ k := htraps _ hlist
      change (icds[k]?.bind _) = none
      rw [List.getElem?_eq_none hk]
      rfl

/-! ### The run -/

theorem wellFormed_start : start.WellFormed := ⟨IcdTrampList.sized_zero, nofun⟩

theorem runSections_keeps {sections : List Section} (h : s.WellFormed)
    (hrun : runSections grants sections s = some s') : Keeps s s' := by
  induction sections generalizing s with
  | nil =>
    obtain rfl := Option.some.inj hrun
    exact ⟨h, Holds.refl _ _⟩
  | cons c sections ih =>
    rw [runSections, List.foldlM_cons] at hrun
    by_cases htraps : c.Traps grants s
    · rw [step_eq_none h c htraps] at hrun
      cases hrun
    · obtain ⟨s₁, hstep, hkeeps⟩ := step_ends h c htraps
      rw [hstep] at hrun
      have hrest := ih hkeeps.wellFormed hrun
      exact ⟨hrest.wellFormed, hkeeps.holds.trans hrest.holds⟩

/-- The library of a driver in a list is owned. -/
theorem library_mem_owned {list : IcdTrampList} (hlist : list = s.preloaded ∨ list ∈ s.instances)
    {icd : LoaderScannedIcd} (hicd : icd ∈ list.icds) {handle : Handle} (hhandle : icd.handle = some handle) :
    .library handle ∈ s.owned := by
  have hresource : DriverResource.library handle ∈ list.owned := by
    refine List.mem_append_left _ (List.mem_flatMap.2 ⟨icd, hicd, List.mem_append_left _ ?_⟩)
    rw [hhandle]
    exact List.mem_singleton_self _
  refine Multiset.mem_add.2 (.inl (Multiset.mem_add.2 ?_))
  rcases hlist with rfl | hmem
  · exact .inl hresource
  · obtain ⟨before, after, hsplit⟩ := List.append_of_mem hmem
    rw [hsplit, List.map_append, List.sum_append, List.map_cons, List.sum_cons]
    exact .inr (Multiset.mem_add.2 (.inr (Multiset.mem_add.2 (.inl hresource))))

end Sections

end DriverLists

open DriverLists

/-- **What the lists of drivers hold.**  In whatever order the sections come, nothing is closed or freed that is not held,
and what is held is what the lists own with the orphaned drivers; so the library of each driver in a list is open.  A
section has no result exactly where its scan writes a string to an array that is not there, or where it is given an
instance or a driver that there is not. -/
theorem runSections_holds {grants : ℕ → Bool} {sections : List Section} {s : DriverLists}
    (hrun : runSections grants sections .start = some s) :
    outstanding 0 s.ledger.log = some s.owned ∧
      (∀ list, list = s.preloaded ∨ list ∈ s.instances → ∀ icd ∈ list.icds, ∀ handle, icd.handle = some handle →
        .library handle ∈ s.owned) ∧
      ∀ c : Section, s.step grants c = none ↔ c.Traps grants s := by
  have hkeeps := runSections_keeps wellFormed_start hrun
  refine ⟨hkeeps.holds.outstanding_eq, fun list hlist icd hicd handle => library_mem_owned hlist hicd, fun c => ?_⟩
  refine ⟨fun hnone => ?_, step_eq_none hkeeps.wellFormed c⟩
  by_contra htraps
  obtain ⟨s', hstep, -⟩ := step_ends hkeeps.wellFormed c htraps
  rw [hnone] at hstep
  cases hstep

/-- A manifest of a driver. -/
def driverManifest : CJson :=
  .object [("file_format_version", .string "1.0.0"),
    ("ICD", .object [("library_path", .string "libicd.so"), ("api_version", .string "1.0.0")])]

/-- A search that finds it; its library has every function. -/
def driverSearch : DriverSearch where
  scan :=
    { context := ⟨8, none⟩
      settings := .zero
      driverList := true
      selectVar := (true, none)
      disableVar := (true, none)
      dataFiles := (.success, ⟨some ["icd.json"], 32⟩)
      insertions := fun _ => ⟨true, true⟩
      reading := fun _ _ => ⟨(.success, some driverManifest), true, true, .success⟩ }
  library := fun _ =>
    { handle := some 7
      outOfMemory := false
      getProcAddress := fun _ => 11
      getInstanceProcAddr := fun _ _ => 12
      negotiate := fun _ => (.success, 7)
      dlFname := fun _ => none
      realpath := fun _ => none }

/-- A run with an enumeration that fails after its scan. -/
def failedEnumeration : Option DriverLists :=
  runSections (fun _ => true) [.createInstance driverSearch .success, .unloadDriver 0 0,
    .enumerateExtensions driverSearch .errorOutOfHostMemory, .destroyInstance 0] .start

/-- The enumeration leaves the library of its driver open, when there is no instance any more. -/
theorem runSections_holds_failedEnumeration : ∃ s, failedEnumeration = some s ∧ s.instances = [] ∧
    outstanding 0 s.ledger.log = some {.library 7, .block 3} := by
  obtain ⟨s, hrun⟩ : ∃ s, failedEnumeration = some s := ⟨_, rfl⟩
  have hinstances : s.instances = [] :=
    Option.some.inj ((congrArg (Option.map DriverLists.instances) hrun).symm.trans rfl)
  have howned : s.owned = {.library 7, .block 3} :=
    Option.some.inj ((congrArg (Option.map DriverLists.owned) hrun).symm.trans rfl)
  exact ⟨s, hrun, hinstances, howned ▸ (runSections_holds hrun).1⟩

end VulkanLoader
