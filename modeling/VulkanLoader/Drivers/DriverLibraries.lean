import VulkanLoader.Drivers.ScannedList
import VulkanLoader.Lib.Runs
import Mathlib.Algebra.Order.Group.Multiset
import Mathlib.Tactic.Abel

/-!
# Which driver libraries are open

A list owns its array, and the library and the name of each of its drivers.  Each function hands on what the list owned
before it, and a call of `vkEnumerateInstanceExtensionProperties` that fails leaves the libraries of its list open.
-/

namespace VulkanLoader

open VulkanLoader.Lib HandleEvent

/-! ### One call -/

section Ends

variable {grants : ℕ → Bool} {lib : DriverLibrary} {l l' : DriverLedger} {held held' held'' : Multiset DriverResource}
  {block : ℕ} {list list' : IcdTrampList} {icds : List LoaderScannedIcd}

namespace DriverLedger

/-- From one state to a later one, what is held goes from `held` to `held'`. -/
def Holds (held held' : Multiset DriverResource) (l l' : DriverLedger) : Prop := Turns held held' l.log l'.log

theorem Holds.refl (held : Multiset DriverResource) (l : DriverLedger) : Holds held held l l := Turns.refl held l.log

theorem Holds.trans {l'' : DriverLedger} (h : Holds held held' l l') (h' : Holds held' held'' l' l'') :
    Holds held held'' l l'' := Turns.trans h h'

theorem Holds.frame (h : Holds held held' l l') (frame : Multiset DriverResource) :
    Holds (held + frame) (held' + frame) l l' := Turns.frame h frame

theorem alloc_none (h : l.alloc grants = (none, l')) (held : Multiset DriverResource) : Holds held held l l' := by
  unfold alloc at h
  split_ifs at h
  · cases (Prod.mk.inj h).1
  · rw [← (Prod.mk.inj h).2]
    exact Turns.refl held l.log

theorem alloc_some (h : l.alloc grants = (some block, l')) (held : Multiset DriverResource) :
    Holds held (.block block ::ₘ held) l l' := by
  unfold alloc at h
  split_ifs at h
  · obtain ⟨hblock, hl⟩ := Prod.mk.inj h
    rw [← hl, ← Option.some.inj hblock]
    exact Turns.made _ held l.log
  · cases (Prod.mk.inj h).1

theorem holds_giveBack (rs : List DriverResource) (held : Multiset DriverResource) (l : DriverLedger) :
    Holds ((rs : Multiset DriverResource) + held) held l (l.giveBack rs) := Turns.givenBack rs held l.log

/-- One thing is given back. -/
theorem holds_giveBack_one (r : DriverResource) (held : Multiset DriverResource) (l : DriverLedger) :
    Holds (r ::ₘ held) held l (l.giveBack [r]) := by
  have h := holds_giveBack [r] held l
  rwa [Multiset.coe_singleton, Multiset.singleton_add] at h

end DriverLedger

open DriverLedger

/-- The name is in one block, before and after. -/
theorem normalizePathOfLibrary_ends (grants : ℕ → Bool) (lib : DriverLibrary) (path : HeapString) (l : DriverLedger)
    (held : Multiset DriverResource) : ∃ res path' l', normalizePathOfLibrary grants lib path l = (res, path', l') ∧
      (res = .success ∨ res = .errorOutOfHostMemory) ∧ Holds (.block path.1 ::ₘ held) (.block path'.1 ::ₘ held) l l' := by
  unfold normalizePathOfLibrary
  rcases halloc : l.alloc grants with ⟨_ | block, l₁⟩
  · exact ⟨_, _, _, rfl, .inr rfl, alloc_none halloc _⟩
  dsimp only
  have hmade := alloc_some halloc (.block path.1 ::ₘ held)
  rcases lib.realpath path.2 with _ | ret
  · exact ⟨_, _, _, rfl, .inl rfl, hmade.trans (holds_giveBack_one _ _ l₁)⟩
  · rw [Multiset.cons_swap] at hmade
    exact ⟨_, _, _, rfl, .inl rfl, hmade.trans (holds_giveBack_one _ _ l₁)⟩

theorem replaceByRealPath_ends (grants : ℕ → Bool) (lib : DriverLibrary) (gipa : Handle) (libName : HeapString)
    (l : DriverLedger) (held : Multiset DriverResource) :
    ∃ res libName' l', replaceByRealPath grants lib gipa libName l = (res, libName', l') ∧
      (res = .success ∨ res = .errorOutOfHostMemory) ∧
      Holds (.block libName.1 ::ₘ held) (.block libName'.1 ::ₘ held) l l' := by
  unfold replaceByRealPath loaderCopyToNewStr
  rcases lib.dlFname gipa with _ | dliFname
  · exact ⟨_, _, _, rfl, .inl rfl, Holds.refl _ l⟩
  dsimp only
  rcases halloc : l.alloc grants with ⟨_ | block, l₁⟩
  · exact ⟨_, _, _, rfl, .inr rfl, alloc_none halloc _⟩
  dsimp only
  have hmade := alloc_some halloc (.block libName.1 ::ₘ held)
  obtain ⟨res, path, l₂, hnormalize, hres, hholds⟩ :=
    normalizePathOfLibrary_ends grants lib (block, dliFname) l₁ (.block libName.1 ::ₘ held)
  rw [hnormalize]
  rcases hres with rfl | rfl
  · dsimp only
    split_ifs
    · refine ⟨_, _, _, rfl, .inl rfl, (hmade.trans hholds).trans ?_⟩
      rw [Multiset.cons_swap]
      exact holds_giveBack_one _ _ l₂
    · exact ⟨_, _, _, rfl, .inl rfl, (hmade.trans hholds).trans (holds_giveBack_one _ _ l₂)⟩
  · exact ⟨_, _, _, rfl, .inr rfl, (hmade.trans hholds).trans (holds_giveBack_one _ _ l₂)⟩

theorem fixupLibraryBinaryPath_ends (grants : ℕ → Bool) (lib : DriverLibrary) (gipa : Handle) (libName : HeapString)
    (l : DriverLedger) (held : Multiset DriverResource) :
    ∃ res libName' l', fixupLibraryBinaryPath grants lib gipa libName l = (res, libName', l') ∧
      (res = .success ∨ res = .errorOutOfHostMemory) ∧
      Holds (.block libName.1 ::ₘ held) (.block libName'.1 ::ₘ held) l l' := by
  unfold fixupLibraryBinaryPath
  split_ifs
  · obtain ⟨res, path, l₁, hnormalize, hres, hholds⟩ := normalizePathOfLibrary_ends grants lib libName l held
    rw [hnormalize]
    rcases hres with rfl | rfl
    · obtain ⟨res, libName', l₂, hreplace, hres, hholds'⟩ := replaceByRealPath_ends grants lib gipa path l₁ held
      exact ⟨res, libName', l₂, hreplace, hres, hholds.trans hholds'⟩
    · exact ⟨_, _, _, rfl, .inr rfl, hholds⟩
  · exact replaceByRealPath_ends grants lib gipa libName l held

/-! ### The list -/

namespace IcdTrampList

/-- What a list owns. -/
def owned (list : IcdTrampList) : Multiset DriverResource := list.resources

/-- A list with an array has room in it, so that it is not taken for one of zeros. -/
def Sized (list : IcdTrampList) : Prop := list.scannedList.isSome → 0 < list.capacity

theorem owned_zero : zero.owned = 0 := rfl

theorem sized_zero : zero.Sized := nofun

theorem owned_mk (capacity array : ℕ) (icds : List LoaderScannedIcd) :
    (⟨capacity, some (array, icds)⟩ : IcdTrampList).owned =
      .block array ::ₘ (icds.flatMap LoaderScannedIcd.resources : Multiset DriverResource) := by
  change ((icds.flatMap LoaderScannedIcd.resources ++ [.block array] : List DriverResource) : Multiset DriverResource) = _
  rw [← Multiset.coe_add, Multiset.coe_singleton, Multiset.add_comm, Multiset.singleton_add]

end IcdTrampList

/-- **A list is cleared**: it gives back what it owns. -/
theorem loaderClearScannedIcdList_holds (hsized : list.Sized) (l : DriverLedger) (held : Multiset DriverResource) :
    (loaderClearScannedIcdList list l).1 = .zero ∧
      Holds (list.owned + held) held l (loaderClearScannedIcdList list l).2 := by
  refine ⟨rfl, ?_⟩
  unfold loaderClearScannedIcdList
  rcases harray : list.scannedList with _ | array
  · have hempty : list.owned = 0 := by
      rw [IcdTrampList.owned, IcdTrampList.resources, IcdTrampList.icds, harray]
      rfl
    rw [hempty, Multiset.zero_add]
    dsimp only
    rw [if_neg fun h => Bool.false_ne_true h.2]
    exact Holds.refl held l
  · have hpos := hsized (by rw [harray]; rfl)
    dsimp only
    rw [if_pos ⟨hpos.ne', rfl⟩]
    exact holds_giveBack list.resources held l

theorem loaderClearScannedIcdList_requests (list : IcdTrampList) (l : DriverLedger) :
    (loaderClearScannedIcdList list l).2.requests = l.requests := by
  unfold loaderClearScannedIcdList
  dsimp only
  split_ifs
  · rfl
  · rfl

/-- A list is begun anew. -/
theorem loaderInitScannedIcdList_ends (grants : ℕ → Bool) (hsized : list.Sized) (l : DriverLedger)
    (held : Multiset DriverResource) :
    ∃ res list' l', loaderInitScannedIcdList grants list l = (res, list', l') ∧ list'.Sized ∧
      Holds (list.owned + held) (list'.owned + held) l l' ∧
      (res = .success ∧ list'.scannedList.isSome ∧ grants l.requests ∨
        res = .errorOutOfHostMemory ∧ grants l.requests = false) := by
  obtain ⟨-, hclear⟩ := loaderClearScannedIcdList_holds hsized l held
  have hrequests := loaderClearScannedIcdList_requests list l
  rcases hrun : loaderClearScannedIcdList list l with ⟨zero, l₁⟩
  rw [hrun] at hclear hrequests
  unfold loaderInitScannedIcdList
  rw [hrun, ← hrequests]
  dsimp only
  rcases hgrants : grants l₁.requests with _ | _
  · have halloc : l₁.alloc grants = (none, ⟨l₁.requests + 1, l₁.log⟩) := by
      rw [DriverLedger.alloc, hgrants]
      rfl
    rw [halloc]
    refine ⟨_, _, _, rfl, nofun, ?_, .inr ⟨rfl, rfl⟩⟩
    have hheld : (⟨8, none⟩ : IcdTrampList).owned + held = held := Multiset.zero_add held
    rw [hheld]
    exact hclear.trans (alloc_none halloc held)
  · obtain ⟨array, l₂, halloc⟩ : ∃ array l₂, l₁.alloc grants = (some array, l₂) := by
      rw [DriverLedger.alloc, hgrants]
      exact ⟨_, _, rfl⟩
    rw [halloc]
    refine ⟨_, _, _, rfl, fun _ => Nat.succ_pos 7, ?_, .inl ⟨rfl, rfl, rfl⟩⟩
    rw [IcdTrampList.owned_mk, List.flatMap_nil, Multiset.cons_add, Multiset.coe_nil, Multiset.zero_add]
    exact hclear.trans (alloc_some halloc held)

/-- The array of a list may be another one afterwards. -/
theorem grow_ends (grants : ℕ → Bool) {capacity : ℕ} (hcapacity : 0 < capacity) (array : ℕ)
    (icds : List LoaderScannedIcd) (l : DriverLedger) (held : Multiset DriverResource) :
    ∃ res capacity' array' l', (⟨capacity, some (array, icds)⟩ : IcdTrampList).grow grants array icds l =
        (res, ⟨capacity', some (array', icds)⟩, l') ∧ 0 < capacity' ∧
      (res = .success ∨ res = .errorOutOfHostMemory) ∧
      Holds (.block array ::ₘ held) (.block array' ::ₘ held) l l' := by
  unfold IcdTrampList.grow
  split_ifs
  · rcases halloc : l.alloc grants with ⟨_ | newPtr, l₁⟩
    · exact ⟨_, _, _, _, rfl, hcapacity, .inr rfl, alloc_none halloc _⟩
    · have hmade := alloc_some halloc (.block array ::ₘ held)
      rw [Multiset.cons_swap] at hmade
      refine ⟨_, _, _, _, rfl, ?_, .inl rfl, hmade.trans (holds_giveBack_one _ _ l₁)⟩
      dsimp only
      omega
  · exact ⟨_, _, _, _, rfl, hcapacity, .inl rfl, Holds.refl _ l⟩

/-- The entry that a driver is put into: the handle of its library, and the functions that it was asked for. -/
def LoaderScannedIcd.IsOf (lib : DriverLibrary) (apiVersion : UInt32) (icd : LoaderScannedIcd) : Prop :=
  icd.handle = lib.handle ∧ icd.apiVersion = apiVersion ||| vkMakeApiVersion vkscApiVariant 0 0 0 ∧
    driverFunctions lib = some ⟨icd.interfaceVersion, icd.getInstanceProcAddr, icd.getPhysicalDeviceProcAddr,
      icd.createInstance, icd.enumerateInstanceExtensionProperties⟩

theorem addScannedIcd_ends (grants : ℕ → Bool) {functions : DriverFunctions} {handle : Handle}
    (hhandle : lib.handle = some handle) (hfunctions : driverFunctions lib = some functions) (filename : String)
    (apiVersion : UInt32) {capacity : ℕ} (hcapacity : 0 < capacity) (array : ℕ) (icds : List LoaderScannedIcd)
    (l : DriverLedger) (held : Multiset DriverResource) :
    ∃ res capacity' array' icds' l', addScannedIcd grants lib filename apiVersion handle functions
        ⟨capacity, some (array, icds)⟩ l = some (res, ⟨capacity', some (array', icds')⟩, l') ∧ 0 < capacity' ∧
      (res = .success ∧ (∃ icd, icds' = icds ++ [icd] ∧ icd.IsOf lib apiVersion) ∧
          Holds (.library handle ::ₘ ((⟨capacity, some (array, icds)⟩ : IcdTrampList).owned + held))
            ((⟨capacity', some (array', icds')⟩ : IcdTrampList).owned + held) l l' ∨
        res = .errorOutOfHostMemory ∧ icds' = icds ∧
          Holds ((⟨capacity, some (array, icds)⟩ : IcdTrampList).owned + held)
            ((⟨capacity', some (array', icds')⟩ : IcdTrampList).owned + held) l l') := by
  simp only [IcdTrampList.owned_mk, Multiset.cons_add]
  generalize hrest : ((icds.flatMap LoaderScannedIcd.resources : List DriverResource) : Multiset DriverResource) = rest
  obtain ⟨res, capacity₁, array₁, l₁, hgrow, hcapacity₁, hres, hholds₁⟩ :=
    grow_ends grants hcapacity array icds l (rest + held)
  unfold addScannedIcd loaderCopyToNewStr
  simp only [hgrow, Option.bind_eq_bind, Option.bind_some]
  rcases hres with rfl | rfl
  · dsimp only
    rcases halloc : l₁.alloc grants with ⟨_ | block, l₂⟩
    · refine ⟨_, _, _, _, _, rfl, hcapacity₁, .inr ⟨rfl, rfl, ?_⟩⟩
      rw [hrest]
      exact hholds₁.trans (alloc_none halloc _)
    · have hmade := alloc_some halloc (.block array₁ ::ₘ (rest + held))
      obtain ⟨res, libName, l₃, hfixup, hres, hholds₃⟩ := fixupLibraryBinaryPath_ends grants lib
        functions.getInstanceProcAddr (block, filename) l₂ (.block array₁ ::ₘ (rest + held))
      have hnamed := (hholds₁.trans hmade).trans hholds₃
      simp only [hfixup, Option.bind_some]
      rcases hres with rfl | rfl
      · refine ⟨_, _, _, _, _, rfl, hcapacity₁, .inl ⟨rfl, ⟨_, rfl, hhandle.symm, rfl, hfunctions⟩, ?_⟩⟩
        have hframe := hnamed.frame {.library handle}
        have hentry : ((LoaderScannedIcd.resources ⟨some libName, some handle,
            apiVersion ||| vkMakeApiVersion vkscApiVariant 0 0 0, functions.interfaceVersion,
            functions.getInstanceProcAddr, functions.getPhysicalDeviceProcAddr, functions.createInstance,
            functions.enumerateInstanceExtensionProperties⟩ : List DriverResource) : Multiset DriverResource) =
              {.library handle} + {.block libName.1} := rfl
        rw [List.flatMap_append, List.flatMap_singleton, ← Multiset.coe_add, hrest, hentry]
        simp only [← Multiset.singleton_add] at hframe ⊢
        convert hframe using 1
        · abel
        · abel
      · refine ⟨_, _, _, _, _, rfl, hcapacity₁, .inr ⟨rfl, rfl, ?_⟩⟩
        rw [hrest]
        exact hnamed.trans (holds_giveBack_one _ _ l₃)
  · refine ⟨_, _, _, _, _, rfl, hcapacity₁, .inr ⟨rfl, rfl, ?_⟩⟩
    rw [hrest]
    exact hholds₁

/-- A list that drivers can be added to. -/
structure IcdTrampList.Live (list : IcdTrampList) : Prop where
  array : list.scannedList.isSome
  room : 0 < list.capacity

/-- **A driver is added, or its library is closed again.** -/
theorem loaderScannedIcdAdd_ends (grants : ℕ → Bool) (lib : DriverLibrary) (filename : Option String)
    (apiVersion : UInt32) (hlive : list.Live) (l : DriverLedger) (held : Multiset DriverResource) :
    ∃ res list' l', loaderScannedIcdAdd grants lib filename apiVersion list l = some (res, list', l') ∧ list'.Live ∧
      Holds (list.owned + held) (list'.owned + held) l l' ∧
      (res = .success ∧ (∃ icd, list'.icds = list.icds ++ [icd] ∧ icd.IsOf lib apiVersion) ∨
        res ≠ .success ∧ list'.icds = list.icds) := by
  unfold loaderScannedIcdAdd
  rcases filename with _ | filename
  · exact ⟨_, _, _, rfl, hlive, Holds.refl _ l, .inr ⟨nofun, rfl⟩⟩
  dsimp only
  rcases hhandle : lib.handle with _ | handle
  · refine ⟨_, _, _, rfl, hlive, Holds.refl _ l, .inr ⟨?_, rfl⟩⟩
    split_ifs
    · exact nofun
    · exact nofun
  have hopened : ∀ held, Holds held (.library handle ::ₘ held) l (l.openLibrary handle) :=
    fun held => Turns.made _ held l.log
  dsimp only
  rcases hfunctions : driverFunctions lib with _ | functions
  · exact ⟨_, _, _, rfl, hlive, (hopened _).trans (holds_giveBack_one _ _ _), .inr ⟨nofun, rfl⟩⟩
  · obtain ⟨⟨capacity, scannedList⟩, ⟨array, icds⟩, rfl⟩ : ∃ list₁ : IcdTrampList, ∃ contents : ℕ × List LoaderScannedIcd,
        list = ⟨list₁.capacity, some contents⟩ := by
      obtain ⟨contents, harray⟩ := Option.isSome_iff_exists.1 hlive.array
      exact ⟨list, contents, by rw [← harray]⟩
    obtain ⟨res, capacity', array', icds', l', hadd, hcapacity', hends⟩ :=
      addScannedIcd_ends grants hhandle hfunctions filename apiVersion hlive.room array icds (l.openLibrary handle) held
    dsimp only
    rw [hadd, Option.map_some]
    rcases hends with ⟨rfl, hicd, hholds⟩ | ⟨rfl, hicds, hholds⟩
    · exact ⟨_, _, _, rfl, ⟨rfl, hcapacity'⟩, (hopened _).trans hholds, .inl ⟨rfl, hicd⟩⟩
    · refine ⟨_, _, _, rfl, ⟨rfl, hcapacity'⟩, ?_, .inr ⟨nofun, hicds⟩⟩
      have hframe := hholds.frame {.library handle}
      rw [Multiset.add_comm _ {DriverResource.library handle}, Multiset.singleton_add,
        Multiset.add_comm _ {DriverResource.library handle}, Multiset.singleton_add] at hframe
      exact ((hopened _).trans hframe).trans (holds_giveBack_one _ _ l')

/-- The entry of a manifest's driver. -/
def IsDriverOf (ctx : IcdContext) (library : IcdManifest → DriverLibrary) (m : IcdManifest) (icd : LoaderScannedIcd) :
    Prop := icd.IsOf (library m) (loaderParseIcdManifest ctx m).icd.version

/-- **The loop of a scan**: the drivers of some of the manifests are added, in their order. -/
theorem scanLibraries_ends (grants : ℕ → Bool) (ctx : IcdContext) (filters : DriverFilters)
    (library : IcdManifest → DriverLibrary) (manifests : List IcdManifest) (hlive : list.Live) (l : DriverLedger)
    (held : Multiset DriverResource) :
    ∃ res list' added l', scanLibraries grants ctx filters library manifests list l = some (res, list', l') ∧
      list'.Live ∧ list'.icds = list.icds ++ added ∧ Holds (list.owned + held) (list'.owned + held) l l' ∧
      (res = .success ∨ res = .errorOutOfHostMemory) ∧
      ∃ ms, ms.Sublist manifests ∧ List.Forall₂ (IsDriverOf ctx library) ms added := by
  induction manifests generalizing list l with
  | nil => exact ⟨_, _, [], _, rfl, hlive, (List.append_nil _).symm, Holds.refl _ l, .inl rfl, [], .slnil, .nil⟩
  | cons m manifests ih =>
    -- the manifest is passed over
    have hskip : ∃ res list' added l', scanLibraries grants ctx filters library manifests list l =
          some (res, list', l') ∧
        list'.Live ∧ list'.icds = list.icds ++ added ∧ Holds (list.owned + held) (list'.owned + held) l l' ∧
        (res = .success ∨ res = .errorOutOfHostMemory) ∧
        ∃ ms, ms.Sublist (m :: manifests) ∧ List.Forall₂ (IsDriverOf ctx library) ms added := by
      obtain ⟨res, list', added, l', hrun, hlive', hicds, hholds, hres, ms, hms, hadded⟩ := ih hlive l
      exact ⟨res, list', added, l', hrun, hlive', hicds, hholds, hres, ms, hms.cons m, hadded⟩
    unfold scanLibraries
    dsimp only
    split_ifs
    · exact ⟨_, _, [], _, rfl, hlive, (List.append_nil _).symm, Holds.refl _ l, .inr ‹_›, [], List.nil_sublist _, .nil⟩
    · exact hskip
    · exact hskip
    · obtain ⟨icdRes, list₁, l₁, hadd, hlive₁, hholds₁, hends⟩ := loaderScannedIcdAdd_ends grants (library m)
        (loaderParseIcdManifest ctx m).icd.fullLibraryPath (loaderParseIcdManifest ctx m).icd.version hlive l held
      simp only [hadd, Option.bind_eq_bind, Option.bind_some]
      split_ifs with hmemory
      · rcases hends with ⟨hres, -⟩ | ⟨-, hicds⟩
        · exact absurd (hres.symm.trans hmemory) nofun
        · exact ⟨_, _, [], _, rfl, hlive₁, by rw [hicds, List.append_nil], hholds₁, .inr hmemory, [],
            List.nil_sublist _, .nil⟩
      · obtain ⟨res, list', added, l', hrun, hlive', hicds', hholds', hres, ms, hms, hadded⟩ := ih hlive₁ l₁
        rcases hends with ⟨-, icd, hicds, hicd⟩ | ⟨-, hicds⟩
        · refine ⟨res, list', icd :: added, l', hrun, hlive', ?_, hholds₁.trans hholds', hres, m :: ms, hms.cons_cons m,
            .cons hicd hadded⟩
          rw [hicds', hicds, List.append_assoc]
          rfl
        · exact ⟨res, list', added, l', hrun, hlive', by rw [hicds', hicds], hholds₁.trans hholds', hres, ms,
            hms.cons m, hadded⟩

/-- The insertions of the additional drivers write a string without an array. -/
def IcdScan.Traps (scan : IcdScan) : Prop :=
  scan.filters.1 = .success ∧ scan.dataFiles.1 = .success ∧
    loaderSettingsGetAdditionalDriverFiles scan.insertions scan.settings scan.dataFiles.2 = none

instance (scan : IcdScan) : Decidable scan.Traps := inferInstanceAs (Decidable (_ ∧ _ ∧ _))

/-- **A scan into a list**: what the list owned before is given back, and it owns what it is left with. -/
theorem scanIntoList_ends (grants : ℕ → Bool) (scan : IcdScan) (library : IcdManifest → DriverLibrary)
    (hsized : list.Sized) (l : DriverLedger) (htraps : ¬ (scan.Traps ∧ grants l.requests))
    (held : Multiset DriverResource) :
    ∃ res list' l', scanIntoList grants scan library list l = some (res, list', l') ∧ list'.Sized ∧
      Holds (list.owned + held) (list'.owned + held) l l' := by
  obtain ⟨res, list₁, l₁, hinit, hsized₁, hholds₁, hres⟩ := loaderInitScannedIcdList_ends grants hsized l held
  unfold scanIntoList
  rw [hinit]
  rcases hres with ⟨rfl, harray, hgrants⟩ | ⟨rfl, -⟩
  · have hlive : list₁.Live := ⟨harray, hsized₁ harray⟩
    dsimp only
    split
    case h_1 filters hfilters =>
      split
      case h_1 files hfiles =>
        split
        case h_1 hnone => exact absurd ⟨⟨by rw [hfilters], by rw [hfiles], by rw [hfiles, hnone]⟩, hgrants⟩ htraps
        case h_2 files' _ =>
          obtain ⟨res, list', added, l', hrun, hlive', -, hholds, -⟩ := scanLibraries_ends grants scan.context filters
            library (scan.manifestsAt files'.strings) hlive l₁ held
          exact ⟨res, list', l', hrun, fun _ => hlive'.room, hholds₁.trans hholds⟩
        case h_3 => exact ⟨_, _, _, rfl, hsized₁, hholds₁⟩
      case h_2 => exact ⟨_, _, _, rfl, hsized₁, hholds₁⟩
    case h_2 => exact ⟨_, _, _, rfl, hsized₁, hholds₁⟩
  · exact ⟨_, _, _, rfl, hsized₁, hholds₁⟩

theorem scanIntoList_eq_none (scan : IcdScan) (library : IcdManifest → DriverLibrary) (hsized : list.Sized)
    (htraps : scan.Traps) (hgrants : grants l.requests) : scanIntoList grants scan library list l = none := by
  obtain ⟨res, list₁, l₁, hinit, -, -, hres⟩ := loaderInitScannedIcdList_ends grants hsized l 0
  obtain ⟨hfilters, hfiles, hnone⟩ := htraps
  rcases hres with ⟨rfl, -⟩ | ⟨-, hrefused⟩
  · unfold scanIntoList
    rw [hinit, ← Prod.eta scan.filters, ← Prod.eta scan.dataFiles, hfilters, hfiles]
    dsimp only
    rw [hnone]
  · rw [hgrants] at hrefused
    cases hrefused

end Ends

end VulkanLoader
