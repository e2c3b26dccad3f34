import VulkanLoader.Drivers.IcdScan

/-!
# The drivers that the settings add

The result of the last insertion stands for all of them: a last path without `.json` ends the scan before it has looked
at a manifest, and a last path that is inserted hides that memory was refused before.
-/

namespace VulkanLoader

/-- A scan with active settings, and with a list of files as the functions for lists leave it. -/
structure SettingsScan extends IcdScan where
  active : settings.settingsActive
  wellFormed : dataFiles.2.WellFormed

namespace SettingsScan

variable (scan : SettingsScan)

/-- The additional drivers. -/
def paths : List String := scan.settings.additionalDriverPaths

/-- The files that stay. -/
def kept : StringList := scan.settings.keptDriverFiles scan.dataFiles.2

/-- The scan is refused no memory. -/
structure NoFailure : Prop where
  driverList : scan.driverList
  selectVar : scan.selectVar.1
  disableVar : scan.disableVar.1
  dataFiles : scan.dataFiles.1 = .success
  insertions : ∀ i, (scan.insertions i).copy ∧ (scan.insertions i).array
  readings : ∀ i file, (scan.reading i file).json.1 ≠ .errorOutOfHostMemory ∧ (scan.reading i file).print ∧
    (scan.reading i file).fullPath ∧ (scan.reading i file).added ≠ .errorOutOfHostMemory

end SettingsScan

/-- The paths to manifests whose copies are granted, from the index `i` on. -/
def copiedPaths (req : ℕ → InsertionRequests) (i : ℕ) (paths : List String) : List String :=
  ((paths.zipIdx i).filter fun entry => isJson entry.1 && (req entry.2).copy).map Prod.fst

/-- The insertions, with what each of them returned, leave the list as it is meant: all copied paths come first; the
result tells whether memory was refused; and without a failure all files of the list are looked at. -/
structure HidesNothing (scan : SettingsScan) (results : List VkResult) (out : StringList) : Prop where
  placed : ∃ added, added.Perm (copiedPaths scan.insertions 0 scan.paths) ∧ out.strings = added ++ scan.kept.strings
  result : loaderSettingsGetAdditionalDriverFiles scan.insertions scan.settings scan.dataFiles.2 =
    some (if .errorOutOfHostMemory ∈ results then .errorOutOfHostMemory else .success, out)
  considered : scan.NoFailure → ∃ trace, loaderIcdScan scan.toIcdScan = some trace ∧
    trace.considered.map IcdManifest.fileStr = out.strings

/-- The additional drivers never hide the others. -/
def KeepsOtherDrivers (scan : SettingsScan) : Prop :=
  ∃ results out, prependDriverFiles scan.insertions 0 scan.paths scan.kept = some (results, out) ∧
    HidesNothing scan results out

/-- Each copied path finds room in an array of so many entries, or memory for a larger one, from the index `i` on. -/
def FindsRoom (req : ℕ → InsertionRequests) : ℕ → List String → (allocatedCount count : ℕ) → Prop
  | _, [], _, _ => True
  | i, path :: paths, allocatedCount, count =>
    if isJson path ∧ (req i).copy then
      (StringList.IsFull allocatedCount count → (req i).array) ∧
        FindsRoom req (i + 1) paths (StringList.grownCount allocatedCount count) (count + 1)
    else FindsRoom req (i + 1) paths allocatedCount count

/-- The last path tells how the insertions went: it is one to a manifest, and is not copied if another one is not.  All
that are copied find room. -/
structure TellsLast (scan : SettingsScan) : Prop where
  room : FindsRoom scan.insertions 0 scan.paths scan.kept.allocatedCount scan.kept.strings.length
  json : ∀ path ∈ scan.paths.getLast?, isJson path
  memory : (∃ entry ∈ scan.paths.zipIdx, isJson entry.1 ∧ ¬ (scan.insertions entry.2).copy) →
    ¬ (scan.insertions (scan.paths.length - 1)).copy

/-! ### The insertions -/

section Insertions

variable {req : ℕ → InsertionRequests} {i : ℕ} {path : String} {paths : List String} {l out : StringList}
  {results : List VkResult}

/-- What an insertion returns where there is room. -/
def insertionResult (req : ℕ → InsertionRequests) (entry : String × ℕ) : VkResult :=
  if isJson entry.1 then if (req entry.2).copy then .success else .errorOutOfHostMemory else .incomplete

theorem copiedPaths_cons : copiedPaths req i (path :: paths) =
    if isJson path ∧ (req i).copy then path :: copiedPaths req (i + 1) paths else copiedPaths req (i + 1) paths := by
  unfold copiedPaths
  rw [List.zipIdx_cons, List.filter_cons]
  simp only [Bool.and_eq_true]
  split_ifs
  · rfl
  · rfl

/-- A path that is not copied leaves the list as it is. -/
theorem prependIfManifestFile_of_not_copied (h : ¬ (isJson path ∧ (req i).copy)) :
    prependIfManifestFile (req i) path l = some (insertionResult req (path, i), l) := by
  unfold prependIfManifestFile copyStrToStartOfStringList insertionResult
  dsimp only
  split_ifs with hjson hcopy
  · exact absurd ⟨hjson, hcopy⟩ h
  · rfl
  · rfl

theorem prependIfManifestFile_of_copied (h : isJson path ∧ (req i).copy) :
    prependIfManifestFile (req i) path l = prependStrToStringList (req i).array l path := by
  unfold prependIfManifestFile copyStrToStartOfStringList
  rw [if_pos h.1, if_pos h.2]

theorem insertionResult_of_copied (h : isJson path ∧ (req i).copy) : insertionResult req (path, i) = .success := by
  unfold insertionResult
  rw [if_pos h.1, if_pos h.2]

/-- With room for all, the copied paths are put before the others, the last one first. -/
theorem prependDriverFiles_of_room (hl : l.WellFormed)
    (h : FindsRoom req i paths l.allocatedCount l.strings.length) :
    ∃ out, prependDriverFiles req i paths l = some ((paths.zipIdx i).map (insertionResult req), out) ∧
      out.strings = (copiedPaths req i paths).reverse ++ l.strings := by
  induction paths generalizing i l with
  | nil => exact ⟨l, rfl, rfl⟩
  | cons path paths ih =>
    unfold FindsRoom at h
    unfold prependDriverFiles
    rw [copiedPaths_cons, List.zipIdx_cons, List.map_cons]
    split_ifs at h ⊢ with hcopied
    · obtain ⟨hroom, hrest⟩ := h
      rw [prependIfManifestFile_of_copied hcopied, StringList.prependStr_of_room hl hroom,
        insertionResult_of_copied hcopied]
      obtain ⟨out, hout, hstrings⟩ := ih (StringList.wellFormed_of_room hl) hrest
      refine ⟨out, ?_, ?_⟩
      · dsimp only
        rw [hout]
        rfl
      · rw [hstrings, List.reverse_cons, List.append_assoc]
        rfl
    · rw [prependIfManifestFile_of_not_copied hcopied]
      obtain ⟨out, hout, hstrings⟩ := ih hl h
      refine ⟨out, ?_, hstrings⟩
      dsimp only
      rw [hout]
      rfl

/-- The first insertion, and those after it. -/
theorem prependDriverFiles_cons (h : prependDriverFiles req i (path :: paths) l = some (results, out)) :
    ∃ res l' rest, prependIfManifestFile (req i) path l = some (res, l') ∧
      prependDriverFiles req (i + 1) paths l' = some (rest, out) := by
  unfold prependDriverFiles at h
  split at h
  · cases h
  case h_2 res l' hfirst =>
    obtain ⟨⟨rest, out'⟩, hrest, heq⟩ := Option.map_eq_some_iff.1 h
    obtain ⟨-, rfl⟩ := Prod.mk.inj heq
    exact ⟨res, l', rest, hfirst, hrest⟩

/-- No more than the copied paths are added. -/
theorem length_prependDriverFiles_le (h : prependDriverFiles req i paths l = some (results, out)) :
    out.strings.length ≤ (copiedPaths req i paths).length + l.strings.length := by
  induction paths generalizing i l results with
  | nil =>
    obtain ⟨-, rfl⟩ := Prod.mk.inj (Option.some.inj h)
    exact Nat.le_add_left _ _
  | cons path paths ih =>
    obtain ⟨res, l', rest, hfirst, hrest⟩ := prependDriverFiles_cons h
    have hle := ih hrest
    rw [copiedPaths_cons]
    split_ifs with hcopied
    · rw [prependIfManifestFile_of_copied hcopied] at hfirst
      have hone := StringList.length_prependStr_le hfirst
      rw [List.length_cons]
      omega
    · rw [prependIfManifestFile_of_not_copied hcopied] at hfirst
      obtain ⟨-, rfl⟩ := Prod.mk.inj (Option.some.inj hfirst)
      exact hle

/-- Without room for all, fewer are added. -/
theorem length_prependDriverFiles_lt (hl : l.WellFormed)
    (hroom : ¬ FindsRoom req i paths l.allocatedCount l.strings.length)
    (h : prependDriverFiles req i paths l = some (results, out)) :
    out.strings.length < (copiedPaths req i paths).length + l.strings.length := by
  induction paths generalizing i l results with
  | nil => exact absurd trivial hroom
  | cons path paths ih =>
    obtain ⟨res, l', rest, hfirst, hrest⟩ := prependDriverFiles_cons h
    unfold FindsRoom at hroom
    rw [copiedPaths_cons]
    split_ifs at hroom ⊢ with hcopied
    · rw [prependIfManifestFile_of_copied hcopied] at hfirst
      rw [List.length_cons]
      by_cases hfirstRoom : StringList.IsFull l.allocatedCount l.strings.length → (req i).array
      · rw [StringList.prependStr_of_room hl hfirstRoom] at hfirst
        obtain ⟨-, rfl⟩ := Prod.mk.inj (Option.some.inj hfirst)
        have hlt := ih (StringList.wellFormed_of_room hl) (fun hlater => hroom ⟨hfirstRoom, hlater⟩) hrest
        have hlength : (StringList.mk (some (path :: l.strings))
          (StringList.grownCount l.allocatedCount l.strings.length)).strings.length = l.strings.length + 1 := rfl
        omega
      · -- the array cannot grow: the path is left out, and the later ones add no more than themselves
        obtain ⟨hfull, hrefused⟩ := Classical.not_imp.1 hfirstRoom
        rw [Bool.eq_false_of_not_eq_true hrefused] at hfirst
        obtain ⟨l₁, hprepend, hstrings⟩ := StringList.prependStr_of_no_room path hl hfull
        obtain ⟨-, rfl⟩ := Prod.mk.inj (Option.some.inj (hprepend.symm.trans hfirst))
        have hle := length_prependDriverFiles_le hrest
        rw [hstrings] at hle
        omega
    · rw [prependIfManifestFile_of_not_copied hcopied] at hfirst
      obtain ⟨-, rfl⟩ := Prod.mk.inj (Option.some.inj hfirst)
      exact ih hl hroom hrest

end Insertions

/-! ### The result -/

section Result

variable {req : ℕ → InsertionRequests} {paths : List String}

theorem outOfHostMemory_mem_results : .errorOutOfHostMemory ∈ paths.zipIdx.map (insertionResult req) ↔
    ∃ entry ∈ paths.zipIdx, isJson entry.1 ∧ ¬ (req entry.2).copy := by
  rw [List.mem_map]
  refine exists_congr fun entry => and_congr_right fun _ => ?_
  unfold insertionResult
  split_ifs with hjson hcopy
  · simp [hcopy]
  · simp [hjson, hcopy]
  · simp [hjson]

/-- The last result tells how the insertions went, where the last path does. -/
theorem getLast?_results : (paths.zipIdx.map (insertionResult req)).getLast?.getD .success =
      (if .errorOutOfHostMemory ∈ paths.zipIdx.map (insertionResult req) then .errorOutOfHostMemory else .success) ↔
    (∀ path ∈ paths.getLast?, isJson path) ∧
      ((∃ entry ∈ paths.zipIdx, isJson entry.1 ∧ ¬ (req entry.2).copy) → ¬ (req (paths.length - 1)).copy) := by
  rw [← outOfHostMemory_mem_results]
  rcases hlast : paths.getLast? with _ | path
  · obtain rfl := List.getLast?_eq_none_iff.1 hlast
    simp
  have hzip : paths.zipIdx.getLast? = some (path, paths.length - 1) := by
    rw [List.getLast?_zipIdx, hlast, Option.map_some, Nat.zero_add]
  rw [List.getLast?_map, hzip, Option.map_some, Option.getD_some]
  simp only [Option.mem_some_iff, forall_eq']
  by_cases hjson : isJson path
  · by_cases hcopy : (req (paths.length - 1)).copy
    · have hres : insertionResult req (path, paths.length - 1) = .success := insertionResult_of_copied ⟨hjson, hcopy⟩
      rw [hres]
      simp [hjson, hcopy]
    · have hmem : .errorOutOfHostMemory ∈ paths.zipIdx.map (insertionResult req) :=
        outOfHostMemory_mem_results.2 ⟨_, List.mem_of_getLast? hzip, hjson, hcopy⟩
      have hres : insertionResult req (path, paths.length - 1) = .errorOutOfHostMemory := by
        unfold insertionResult
        rw [if_pos hjson, if_neg hcopy]
      rw [hres, if_pos hmem]
      simp [hjson, hcopy]
  · have hres : insertionResult req (path, paths.length - 1) = .incomplete := by
      unfold insertionResult
      rw [if_neg hjson]
    rw [hres]
    refine iff_of_false (fun h => ?_) fun h => hjson h.1
    split_ifs at h

end Result

/-! ### The scan -/

section Scan

variable {ctx : IcdContext} {filters : DriverFilters}

/-- Without a failure all manifests are looked at. -/
theorem considered_scanManifests {ms : List IcdManifest}
    (h : ∀ m ∈ ms, (loaderParseIcdManifest ctx m).result ≠ .errorOutOfHostMemory ∧
      m.reading.added ≠ .errorOutOfHostMemory) :
    (scanManifests ctx filters ms).considered = ms := by
  induction ms with
  | nil => rfl
  | cons m ms ih =>
    obtain ⟨hparse, hadded⟩ := h m List.mem_cons_self
    have hrest := ih fun m hm => h m (List.mem_cons_of_mem _ hm)
    rw [scanManifests_cons, if_neg hparse]
    split_ifs
    · exact congrArg (m :: ·) hrest
    · exact congrArg (m :: ·) hrest

theorem loaderParseIcdManifest_of_granted {m : IcdManifest} (hjson : m.reading.json.1 ≠ .errorOutOfHostMemory)
    (hprint : m.reading.print) (hfull : m.reading.fullPath) :
    (loaderParseIcdManifest ctx m).result ≠ .errorOutOfHostMemory := by
  unfold loaderParseIcdManifest
  split
  case h_1 hread => exact absurd (congrArg Prod.fst hread) hjson
  case h_3 => nofun
  case h_2 json hread =>
    rcases json.getObjectItem "file_format_version" with _ | fileFormatVersion
    · nofun
    dsimp only
    rcases fileFormatVersion.getStringValue with _ | versionStr
    · nofun
    rcases json.getObjectItem "ICD" with _ | itemICD
    · nofun
    dsimp only
    rcases itemICD.getObjectItem "library_path" with _ | libraryPath
    · nofun
    obtain ⟨fullLibraryPath, hcombine⟩ := combineManifestDirectoryAndLibraryPath_granted libraryPath.print m.fileStr
    dsimp only
    rw [hprint, hfull, hcombine, if_neg (by simp)]
    split_ifs
    · nofun
    · rcases parseIcdVersion_result ctx itemICD ⟨fullLibraryPath, 0⟩ with hres | hres
      · rw [hres]
        nofun
      · rw [hres]
        nofun

variable {scan : SettingsScan}

theorem parseGenericFilter_granted (value : Option String) :
    ∃ filter, parseGenericFilterEnvironmentVar true value = (.success, filter) := by
  unfold parseGenericFilterEnvironmentVar
  rcases value with _ | text
  · exact ⟨_, rfl⟩
  dsimp only
  rw [if_pos rfl]
  split_ifs
  · exact ⟨_, rfl⟩
  · exact ⟨_, rfl⟩

theorem filters_of_noFailure (h : scan.NoFailure) : ∃ filters, scan.filters = (.success, filters) := by
  unfold IcdScan.filters
  obtain ⟨selectFilter, hselect⟩ := parseGenericFilter_granted scan.selectVar.2
  obtain ⟨disableFilter, hdisable⟩ := parseGenericFilter_granted scan.disableVar.2
  rw [h.selectVar, h.disableVar, hselect, hdisable]
  split_ifs
  · exact ⟨_, rfl⟩
  · exact ⟨_, rfl⟩

/-- The list that the insertions leave is looked at as a whole. -/
theorem loaderIcdScan_of_noFailure (h : scan.NoFailure) {out : StringList}
    (hadditional : loaderSettingsGetAdditionalDriverFiles scan.insertions scan.settings scan.dataFiles.2 =
      some (.success, out)) :
    ∃ trace, loaderIcdScan scan.toIcdScan = some trace ∧ trace.considered.map IcdManifest.fileStr = out.strings := by
  obtain ⟨filters, hfilters⟩ := filters_of_noFailure h
  have hfiles : scan.dataFiles = (.success, scan.dataFiles.2) := Prod.ext h.dataFiles rfl
  refine ⟨scanManifests scan.context filters (scan.manifestsAt out.strings), ?_, ?_⟩
  · unfold loaderIcdScan
    rw [h.driverList, hfilters, hfiles]
    dsimp only
    rw [hadditional]
    rfl
  · rw [considered_scanManifests]
    · unfold IcdScan.manifestsAt
      rw [List.map_map]
      exact List.zipIdx_map_fst 0 out.strings
    · intro m hm
      obtain ⟨entry, -, rfl⟩ := List.mem_map.1 hm
      obtain ⟨hjson, hprint, hfull, hadded⟩ := h.readings entry.2 entry.1
      exact ⟨loaderParseIcdManifest_of_granted hjson hprint hfull, hadded⟩

end Scan

/-- The additional drivers leave the others alone exactly if the last path tells how the insertions went. -/
theorem keepsOtherDrivers_iff (scan : SettingsScan) : KeepsOtherDrivers scan ↔ TellsLast scan := by
  have hkept : scan.kept.WellFormed := by
    unfold SettingsScan.kept LoaderSettings.keptDriverFiles
    split_ifs
    · exact StringList.wellFormed_zero
    · exact scan.wellFormed
  have hcall {results : List VkResult} {out : StringList}
      (h : prependDriverFiles scan.insertions 0 scan.paths scan.kept = some (results, out)) :
      loaderSettingsGetAdditionalDriverFiles scan.insertions scan.settings scan.dataFiles.2 =
        some (results.getLast?.getD .success, out) := by
    unfold loaderSettingsGetAdditionalDriverFiles
    rw [if_neg (by rw [scan.active]; simp)]
    exact congrArg (Option.map _) h
  constructor
  · rintro ⟨results, out, hinsert, ⟨added, hperm, hstrings⟩, hresult, -⟩
    have hroom : FindsRoom scan.insertions 0 scan.paths scan.kept.allocatedCount scan.kept.strings.length := by
      by_contra hno
      have hlt := length_prependDriverFiles_lt hkept hno hinsert
      rw [hstrings, List.length_append, hperm.length_eq] at hlt
      exact lt_irrefl _ hlt
    obtain ⟨out', hinsert', -⟩ := prependDriverFiles_of_room hkept hroom
    obtain ⟨rfl, rfl⟩ := Prod.mk.inj (Option.some.inj (hinsert'.symm.trans hinsert))
    have hlast := (Prod.mk.inj (Option.some.inj ((hcall hinsert).symm.trans hresult))).1
    obtain ⟨hjson, hmemory⟩ := getLast?_results.1 hlast
    exact ⟨hroom, hjson, hmemory⟩
  · rintro ⟨hroom, hjson, hmemory⟩
    obtain ⟨out, hinsert, hstrings⟩ := prependDriverFiles_of_room hkept hroom
    have hresult := hcall hinsert
    rw [getLast?_results.2 ⟨hjson, hmemory⟩] at hresult
    refine ⟨_, out, hinsert, ⟨_, List.reverse_perm _, hstrings⟩, hresult, fun hno => ?_⟩
    have hgranted : .errorOutOfHostMemory ∉ scan.paths.zipIdx.map (insertionResult scan.insertions) := by
      rw [outOfHostMemory_mem_results]
      rintro ⟨entry, -, -, hrefused⟩
      exact hrefused (hno.insertions entry.2).1
    rw [if_neg hgranted] at hresult
    exact loaderIcdScan_of_noFailure hno hresult

/-- One driver is found, and the settings add a path that is none of a manifest. -/
def strayPathScan : SettingsScan where
  context := ⟨8, none⟩
  settings := { LoaderSettings.zero with settingsActive := true, additionalDrivers := [⟨some "/opt/icd.txt"⟩] }
  driverList := true
  selectVar := (true, none)
  disableVar := (true, none)
  dataFiles := (.success, ⟨some ["/usr/share/icd.json"], 32⟩)
  insertions := fun _ => ⟨true, true⟩
  reading := fun _ _ => ⟨(.success, none), true, true, .success⟩
  active := rfl
  wellFormed := ⟨by decide, fun h => by cases h⟩

/-- The driver that is found is not looked at. -/
theorem not_keepsOtherDrivers : ¬ ∀ scan, KeepsOtherDrivers scan := by
  intro h
  obtain ⟨results, out, hinsert, hhides⟩ := h strayPathScan
  have hcall : loaderSettingsGetAdditionalDriverFiles strayPathScan.insertions strayPathScan.settings
      strayPathScan.dataFiles.2 = some (.incomplete, ⟨some ["/usr/share/icd.json"], 32⟩) := by decide
  have hresult := (Prod.mk.inj (Option.some.inj (hcall.symm.trans hhides.result))).1
  split_ifs at hresult

end VulkanLoader
