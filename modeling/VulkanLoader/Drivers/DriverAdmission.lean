import VulkanLoader.Drivers.IcdScan

/-!
# Which drivers a scan hands over

A member of a manifest that is there but is no string lets the parser end with the success it had before: a driver
without a library path or without a version is handed over then.  Apart from that a manifest is handed over only with all
that it has to say, and one that is rejected has no effect on the others.
-/

namespace VulkanLoader

/-- What has to be said of a driver besides its library path. -/
structure AdmissibleVersion (ctx : IcdContext) (itemICD : CJson) : Prop where
  apiVersion : ∃ versionStr, itemICD.stringItem "api_version" = some versionStr ∧
    vkApiVersionVariant (loaderParseVersionString versionStr) = 0
  libraryArch : ∀ libraryArch, itemICD.stringItem "library_arch" = some libraryArch →
    libraryArchMatches ctx.pointerSize libraryArch
  /-- Without an instance there is nothing that leaves portability enumeration off. -/
  portability : isTrueItem itemICD "is_portability_driver" → ctx.portabilityEnumerationEnabled ≠ some false

/-- A manifest whose driver may be handed over. -/
structure AdmissibleDriver (ctx : IcdContext) (json : CJson) : Prop where
  fileFormatVersion : (json.stringItem "file_format_version").isSome
  icd : ∃ itemICD, json.getObjectItem "ICD" = some itemICD ∧ (itemICD.stringItem "library_path").isSome ∧
    AdmissibleVersion ctx itemICD

/-- The loop leaves a manifest out, and not for want of memory. -/
def Rejected (ctx : IcdContext) (filters : DriverFilters) (m : IcdManifest) : Prop :=
  (scanManifests ctx filters [m]).handedOver = [] ∧ (scanManifests ctx filters [m]).result ≠ .errorOutOfHostMemory

/-- What becomes of manifests that read as `json`: only one that is admissible is handed over; and a manifest that is
rejected does not change which of the others are. -/
structure AdmitsProperly (ctx : IcdContext) (json : VkResult × Option CJson) : Prop where
  admitted : ∀ scan trace m icd, scan.context = ctx → loaderIcdScan scan = some trace → (m, icd) ∈ trace.handedOver →
    m.reading.json = json → ∃ content, json = (.success, some content) ∧ AdmissibleDriver ctx content
  independent : ∀ filters pre m post, Rejected ctx filters m →
    (scanManifests ctx filters (pre ++ m :: post)).handedOver = (scanManifests ctx filters (pre ++ post)).handedOver

/-- The manifest gets past the parser without having said all: its format version is there and is no string; or its
library path and its API version are there, and one of them is no string while nothing else is wrong. -/
def SlipsThrough (ctx : IcdContext) (json : CJson) : Prop :=
  HasOtherKind json "file_format_version" ∨
    (json.stringItem "file_format_version").isSome ∧ ∃ itemICD libraryPath, json.getObjectItem "ICD" = some itemICD ∧
      itemICD.getObjectItem "library_path" = some libraryPath ∧ libraryPath.print ≠ "" ∧
      (HasOtherKind itemICD "api_version" ∨ libraryPath.getStringValue = none ∧ AdmissibleVersion ctx itemICD)

/-! ### The parser -/

section Parser

variable {ctx : IcdContext} {json itemICD : CJson} {m : IcdManifest}

theorem parseIcdVersion_success {icd : ICDManifestInfo} : (parseIcdVersion ctx itemICD icd).result = .success ↔
    HasOtherKind itemICD "api_version" ∨ AdmissibleVersion ctx itemICD := by
  unfold parseIcdVersion
  rcases hversion : itemICD.getObjectItem "api_version" with _ | apiVersion
  · refine iff_of_false VkResult.noConfusion ?_
    rintro (⟨value, hvalue, -⟩ | ⟨⟨versionStr, hstring, -⟩, -, -⟩)
    · rw [hversion] at hvalue
      cases hvalue
    · rw [CJson.stringItem, hversion] at hstring
      cases hstring
  dsimp only
  rcases hstring : apiVersion.getStringValue with _ | versionStr
  · exact iff_of_true rfl (.inl ⟨apiVersion, hversion, hstring⟩)
  have hitem : itemICD.stringItem "api_version" = some versionStr := by
    rw [CJson.stringItem, hversion, Option.bind_some, hstring]
  have hkind : ¬ HasOtherKind itemICD "api_version" := not_hasOtherKind_of_string (by rw [hitem, Option.isSome_some])
  rw [or_iff_right hkind]
  dsimp only
  split_ifs with hvariant hportability
  · refine iff_of_false not_false ?_
    rintro ⟨⟨versionStr', hversionStr, hzero⟩, -, -⟩
    obtain rfl := Option.some.inj (hitem.symm.trans hversionStr)
    exact hvariant hzero
  · exact iff_of_false not_false fun h => h.portability hportability.1 hportability.2
  have hversionOk : ∃ versionStr, itemICD.stringItem "api_version" = some versionStr ∧
      vkApiVersionVariant (loaderParseVersionString versionStr) = 0 := ⟨versionStr, hitem, not_not.1 hvariant⟩
  rcases harch : itemICD.stringItem "library_arch" with _ | libraryArch
  · refine iff_of_true rfl ⟨hversionOk, fun libraryArch h => ?_, fun h hnot => hportability ⟨h, hnot⟩⟩
    rw [harch] at h
    cases h
  dsimp only
  split_ifs with hmatches
  · refine iff_of_true rfl ⟨hversionOk, fun libraryArch' h => ?_, fun h hnot => hportability ⟨h, hnot⟩⟩
    obtain rfl := Option.some.inj (harch.symm.trans h)
    exact hmatches
  · exact iff_of_false not_false fun h => hmatches (h.libraryArch libraryArch harch)

/-- The manifest reads as what the parser lets pass. -/
def Accepted (ctx : IcdContext) (json : CJson) : Prop :=
  HasOtherKind json "file_format_version" ∨
    (json.stringItem "file_format_version").isSome ∧ ∃ itemICD libraryPath, json.getObjectItem "ICD" = some itemICD ∧
      itemICD.getObjectItem "library_path" = some libraryPath ∧ libraryPath.print ≠ "" ∧
      (HasOtherKind itemICD "api_version" ∨ AdmissibleVersion ctx itemICD)

/-- The parser returns what it is to return; it succeeds with what it lets pass only. -/
theorem loaderParseIcdManifest_result (ctx : IcdContext) (m : IcdManifest) :
    ((loaderParseIcdManifest ctx m).result = .success ∧
        ∃ json, m.reading.json = (.success, some json) ∧ Accepted ctx json) ∨
      (loaderParseIcdManifest ctx m).result = .errorIncompatibleDriver ∨
      (loaderParseIcdManifest ctx m).result = .errorOutOfHostMemory := by
  unfold loaderParseIcdManifest
  split
  · exact .inr (.inr rfl)
  case h_2 json hread =>
    rcases hversion : json.getObjectItem "file_format_version" with _ | fileFormatVersion
    · exact .inr (.inl rfl)
    dsimp only
    rcases hstring : fileFormatVersion.getStringValue with _ | versionStr
    · exact .inl ⟨rfl, json, hread, .inl ⟨fileFormatVersion, hversion, hstring⟩⟩
    have hformat : (json.stringItem "file_format_version").isSome := by
      rw [CJson.stringItem, hversion, Option.bind_some, hstring, Option.isSome_some]
    rcases hicd : json.getObjectItem "ICD" with _ | itemICD
    · exact .inr (.inl rfl)
    dsimp only
    rcases hpath : itemICD.getObjectItem "library_path" with _ | libraryPath
    · exact .inr (.inl rfl)
    dsimp only
    split_ifs with hprint hempty
    · exact .inr (.inr rfl)
    · exact .inr (.inl rfl)
    split
    case h_1 fullLibraryPath hcombine =>
      rcases parseIcdVersion_result ctx itemICD ⟨fullLibraryPath, 0⟩ with hres | hres
      · exact .inl ⟨hres, json, hread, .inr ⟨hformat, itemICD, libraryPath, hicd, hpath, hempty,
          parseIcdVersion_success.1 hres⟩⟩
      · exact .inr (.inl hres)
    case h_2 res fullLibraryPath hne hcombine =>
      obtain ⟨path, heq⟩ | heq :=
        combineManifestDirectoryAndLibraryPath_result m.reading.fullPath libraryPath.print m.fileStr
      · exact absurd (congrArg Prod.fst (hcombine.symm.trans heq)) hne
      · exact .inr (.inr (congrArg Prod.fst (hcombine.symm.trans heq)))
  · exact .inr (.inl rfl)

theorem success_of_accepted (hread : m.reading.json = (.success, some json)) (hprint : m.reading.print)
    (hfull : m.reading.fullPath) (h : Accepted ctx json) : (loaderParseIcdManifest ctx m).result = .success := by
  unfold loaderParseIcdManifest
  rw [hread]
  dsimp only
  rcases h with ⟨value, hvalue, hkind⟩ | ⟨hversion, itemICD, libraryPath, hicd, hpath, hne, hor⟩
  · rw [hvalue]
    dsimp only
    rw [hkind]
  · obtain ⟨versionStr, hversion⟩ := Option.isSome_iff_exists.1 hversion
    obtain ⟨fileFormatVersion, hitem, hstring⟩ := Option.bind_eq_some_iff.1 hversion
    obtain ⟨fullLibraryPath, hcombine⟩ := combineManifestDirectoryAndLibraryPath_granted libraryPath.print m.fileStr
    rw [hitem]
    dsimp only
    rw [hstring, hicd]
    dsimp only
    rw [hpath]
    dsimp only
    rw [hprint, hfull, hcombine, if_neg (by simp), if_neg hne]
    exact parseIcdVersion_success.2 hor

/-- What the parser lets pass without its having said all. -/
theorem slipsThrough_iff : SlipsThrough ctx json ↔ Accepted ctx json ∧ ¬ AdmissibleDriver ctx json := by
  constructor
  · rintro (hkind | ⟨hversion, itemICD, libraryPath, hicd, hpath, hne, hor⟩)
    · exact ⟨.inl hkind, fun h => not_hasOtherKind_of_string h.fileFormatVersion hkind⟩
    · refine ⟨.inr ⟨hversion, itemICD, libraryPath, hicd, hpath, hne, hor.imp_right And.right⟩, fun h => ?_⟩
      obtain ⟨itemICD', hicd', hstring, hadmissible⟩ := h.icd
      obtain rfl := Option.some.inj (hicd.symm.trans hicd')
      rcases hor with hkind | ⟨hkind, -⟩
      · obtain ⟨versionStr, hversionStr, -⟩ := hadmissible.apiVersion
        exact not_hasOtherKind_of_string (by rw [hversionStr, Option.isSome_some]) hkind
      · exact not_hasOtherKind_of_string hstring ⟨libraryPath, hpath, hkind⟩
  · rintro ⟨hkind | ⟨hversion, itemICD, libraryPath, hicd, hpath, hne, hor⟩, hnot⟩
    · exact .inl hkind
    · refine .inr ⟨hversion, itemICD, libraryPath, hicd, hpath, hne, hor.imp_right fun hadmissible => ⟨?_, hadmissible⟩⟩
      by_contra hstring
      refine hnot ⟨hversion, itemICD, hicd, ?_, hadmissible⟩
      rw [CJson.stringItem, hpath, Option.bind_some]
      exact Option.isSome_iff_ne_none.2 hstring

end Parser

/-! ### The loop -/

section Loop

variable {ctx : IcdContext} {filters : DriverFilters} {m : IcdManifest}

/-- The drivers that a round of the loop hands over. -/
theorem mem_handedOver_cons {rest : List IcdManifest} {entry : IcdManifest × ICDManifestInfo}
    (h : entry ∈ (scanManifests ctx filters (m :: rest)).handedOver) :
    (entry.1 = m ∧ (loaderParseIcdManifest ctx m).result = .success) ∨
      entry ∈ (scanManifests ctx filters rest).handedOver := by
  have hresult := loaderParseIcdManifest_result ctx m
  rw [scanManifests_cons] at h
  by_cases hmemory : (loaderParseIcdManifest ctx m).result = .errorOutOfHostMemory
  · rw [if_pos hmemory] at h
    cases h
  rw [if_neg hmemory] at h
  by_cases hskip : (loaderParseIcdManifest ctx m).result = .errorIncompatibleDriver ∨ !filters.pass m.fileStr
  · rw [if_pos hskip] at h
    exact .inr h
  have hsuccess : (loaderParseIcdManifest ctx m).result = .success := by
    rcases hresult with ⟨hsuccess, -⟩ | hincompatible | hmemory'
    · exact hsuccess
    · exact absurd (.inl hincompatible) hskip
    · exact absurd hmemory' hmemory
  rw [if_neg hskip] at h
  split_ifs at h
  · rcases List.mem_singleton.1 h with rfl
    exact .inl ⟨rfl, hsuccess⟩
  · rcases List.mem_cons.1 h with rfl | h
    · exact .inl ⟨rfl, hsuccess⟩
    · exact .inr h

/-- What is handed over is let pass by the parser. -/
theorem success_of_mem_handedOver {ms : List IcdManifest} {entry : IcdManifest × ICDManifestInfo}
    (h : entry ∈ (scanManifests ctx filters ms).handedOver) : (loaderParseIcdManifest ctx entry.1).result = .success := by
  induction ms with
  | nil => cases h
  | cons m rest ih =>
    rcases mem_handedOver_cons h with ⟨heq, hsuccess⟩ | h
    · rwa [heq]
    · exact ih h

/-- A rejected manifest is passed over. -/
theorem handedOver_cons_of_rejected (h : Rejected ctx filters m) (rest : List IcdManifest) :
    (scanManifests ctx filters (m :: rest)).handedOver = (scanManifests ctx filters rest).handedOver := by
  obtain ⟨hnone, hmemory⟩ := h
  rw [scanManifests_cons] at hnone hmemory ⊢
  split_ifs at hnone hmemory ⊢ with hres
  · exact absurd hres hmemory
  · rfl
  · cases hnone
  · cases hnone

theorem handedOver_append_of_rejected (h : Rejected ctx filters m) (pre post : List IcdManifest) :
    (scanManifests ctx filters (pre ++ m :: post)).handedOver = (scanManifests ctx filters (pre ++ post)).handedOver := by
  induction pre with
  | nil => exact handedOver_cons_of_rejected h post
  | cons m' pre ih =>
    rw [List.cons_append, List.cons_append, scanManifests_cons, scanManifests_cons]
    split_ifs
    · rfl
    · exact ih
    · rfl
    · exact congrArg (_ :: ·) ih

/-- What a scan hands over comes from its loop. -/
theorem exists_scanManifests {scan : IcdScan} {trace : ScanTrace} {entry : IcdManifest × ICDManifestInfo}
    (h : loaderIcdScan scan = some trace) (hentry : entry ∈ trace.handedOver) :
    ∃ filters ms, trace = scanManifests scan.context filters ms := by
  unfold loaderIcdScan at h
  split at h
  · cases h
    cases hentry
  split at h
  case h_2 =>
    cases h
    cases hentry
  split at h
  case h_2 =>
    cases h
    cases hentry
  split at h
  · cases h
  · cases h
    exact ⟨_, _, rfl⟩
  · cases h
    cases hentry

end Loop

/-! ### Admission -/

/-- A scan that finds one manifest and is refused no memory. -/
def scanOf (ctx : IcdContext) (json : VkResult × Option CJson) : IcdScan where
  context := ctx
  settings := .zero
  driverList := true
  selectVar := (true, none)
  disableVar := (true, none)
  dataFiles := (.success, ⟨some ["icd.json"], 32⟩)
  insertions := fun _ => ⟨true, true⟩
  reading := fun _ _ => ⟨json, true, true, .success⟩

/-- The scan hands over the driver if the parser lets it pass. -/
theorem loaderIcdScan_scanOf {ctx : IcdContext} {json : CJson} (h : Accepted ctx json) :
    ∃ trace m icd, loaderIcdScan (scanOf ctx (.success, some json)) = some trace ∧ (m, icd) ∈ trace.handedOver ∧
      m.reading.json = (.success, some json) := by
  let m : IcdManifest := ⟨"icd.json", (.success, some json), true, true, .success⟩
  have hsuccess : (loaderParseIcdManifest ctx m).result = .success := success_of_accepted rfl rfl rfl h
  refine ⟨scanManifests ctx ⟨[], []⟩ [m], m, (loaderParseIcdManifest ctx m).icd, rfl, ?_, rfl⟩
  unfold scanManifests
  dsimp only
  rw [hsuccess]
  exact List.mem_singleton_self _

/-- Exactly the manifests that slip through the parser are handed over without being admissible; no rejected manifest
has an effect on the others. -/
theorem admitsProperly_iff (ctx : IcdContext) (json : VkResult × Option CJson) :
    AdmitsProperly ctx json ↔ ¬ ∃ content, json = (.success, some content) ∧ SlipsThrough ctx content := by
  constructor
  · rintro h ⟨content, rfl, hslips⟩
    obtain ⟨haccepted, hnot⟩ := slipsThrough_iff.1 hslips
    obtain ⟨trace, m, icd, hscan, hmem, hread⟩ := loaderIcdScan_scanOf haccepted
    obtain ⟨content', heq, hadmissible⟩ := h.admitted _ trace m icd rfl hscan hmem hread
    obtain rfl := Option.some.inj (Prod.mk.inj heq).2
    exact hnot hadmissible
  · refine fun h => ⟨?_, fun filters pre m post hrejected => handedOver_append_of_rejected hrejected pre post⟩
    rintro scan trace m icd rfl hscan hmem rfl
    obtain ⟨filters, ms, rfl⟩ := exists_scanManifests hscan hmem
    have hsuccess : (loaderParseIcdManifest scan.context m).result = .success := success_of_mem_handedOver hmem
    rcases loaderParseIcdManifest_result scan.context m with ⟨-, content, hread, haccepted⟩ | hres | hres
    · refine ⟨content, hread, ?_⟩
      by_contra hnot
      exact h ⟨content, hread, slipsThrough_iff.2 ⟨haccepted, hnot⟩⟩
    · rw [hsuccess] at hres
      cases hres
    · rw [hsuccess] at hres
      cases hres

/-- A driver manifest whose format version is a number. -/
def numberedManifest : CJson :=
  .object [("file_format_version", .number 1 "1.0"), ("ICD", .object [("library_path", .string "libicd.so")])]

/-- It is handed over without a library path and without a version. -/
theorem not_admitsProperly : ¬ ∀ ctx json, AdmitsProperly ctx json := by
  intro h
  have hscan : ∃ m, (loaderIcdScan (scanOf ⟨8, none⟩ (.success, some numberedManifest))).map ScanTrace.handedOver =
      some [(m, ⟨none, 0⟩)] ∧ m.reading.json = (.success, some numberedManifest) := ⟨_, rfl, rfl⟩
  obtain ⟨m, hmap, hread⟩ := hscan
  obtain ⟨trace, htrace, hhanded⟩ := Option.map_eq_some_iff.1 hmap
  obtain ⟨content, heq, hadmissible⟩ := (h ⟨8, none⟩ (.success, some numberedManifest)).admitted _ trace m _ rfl htrace
    (hhanded ▸ List.mem_singleton_self _) hread
  obtain rfl := Option.some.inj (Prod.mk.inj heq).2
  exact absurd hadmissible.fileFormatVersion (by decide)

end VulkanLoader
