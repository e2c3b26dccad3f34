import VulkanLoader.Paths.DataFileInfo

/-!
# The search for manifests (`loader_get_data_files`)

The places to search come from the overriding paths, from a variable that overrides, or from a variable that adds to the
directories of the user and of the system.  Of each place the manifests are listed: the file itself, or the files of the
directory.

How each request for memory ends is an argument.  A string that is written to an array that is not there leaves the
search without a result, and so does a loop that turns too often.
-/

namespace VulkanLoader

open VulkanLoader.Lib

/-! ### Full paths -/

/-- What the search asks the file system: whether a path leads to something, and the names that `readdir` gives of a
directory that can be opened, up to the last one or to an error. -/
structure FileSystem where
  fileExists : String → Bool
  readdir : String → Option (List String)

/-- `loader_platform_is_path`. -/
def loaderPlatformIsPath (path : String) : Bool := directorySymbol ∈ path.toList

/-- `loader_get_next_path`: what is cut off, and what is left. -/
def loaderGetNextPath (path : List Char) : List Char × List Char :=
  (path.takeWhile (· ≠ pathSeparator), (path.dropWhile (· ≠ pathSeparator)).drop 1)

/-- `snprintf` into `full_path`. -/
def printFullPath (path : List Char) : String := String.ofList (path.take 2047)

/-- The loop of `loader_get_fullpath`: directories are tried up to an empty one. -/
def findInDirs (fs : FileSystem) (file : String) : ℕ → List Char → Option (Option String)
  | 0, _ => none
  | fuel + 1, dirs =>
    let (dir, nextDir) := loaderGetNextPath dirs
    if dir ≠ [] then
      let outFullpath := printFullPath (dir ++ directorySymbol :: file.toList)
      if fs.fileExists outFullpath then some (some outFullpath) else findInDirs fs file fuel nextDir
    else some none

/-- `loader_get_fullpath`. -/
def loaderGetFullpath (fs : FileSystem) (fuel : ℕ) (file : String) (inDirs : String) : Option String :=
  if !loaderPlatformIsPath file && inDirs ≠ "" then
    (findInDirs fs file fuel inDirs.toList).map fun found => found.getD (printFullPath file.toList)
  else some (printFullPath file.toList)

/-! ### The files of the places -/

/-- `add_if_manifest_file`. -/
def addIfManifestFile (req : InsertionRequests) (fileName : String) (outFiles : StringList) :
    Option (VkResult × StringList) :=
  if isJson fileName then copyStrToStringList req outFiles fileName else some (.incomplete, outFiles)

/-- The loop over the entries of a directory. -/
def addDirectoryEntries (fs : FileSystem) (fuel : ℕ) (curFile : String) :
    (ℕ → InsertionRequests) → List String → StringList → Option (VkResult × StringList)
  | _, [], outFiles => some (.success, outFiles)
  | requests, name :: names, outFiles => do
    let fullPath ← loaderGetFullpath fs fuel name curFile
    let (localRes, outFiles) ← addIfManifestFile (requests 0) fullPath outFiles
    if localRes = .incomplete ∨ localRes = .success then
      addDirectoryEntries fs fuel curFile (fun i => requests (i + 1)) names outFiles
    else some (localRes, outFiles)

/-- How a turn of the search through a place ends. -/
inductive SearchTurn where
  | goOn
  | nextPlace
  | out
  deriving DecidableEq

/-- One turn of the loop that cuts a place up: a file, or a directory. -/
def addCurFile (fs : FileSystem) (fuel : ℕ) (requests : ℕ → InsertionRequests) (curFile : String) (vkResult : VkResult)
    (outFiles : StringList) : Option (SearchTurn × VkResult × StringList) :=
  if isJson curFile then
    -- the path does not fit into `temp_path`
    if curFile.toList.length + 1 > 2048 then some (.goOn, vkResult, outFiles)
    else do
      let fullPath ← loaderGetFullpath fs fuel curFile curFile
      let (localRes, outFiles) ← addIfManifestFile (requests 0) fullPath outFiles
      if localRes = .incomplete ∨ localRes = .success then some (.goOn, vkResult, outFiles)
      else some (.nextPlace, localRes, outFiles)
  else
    match fs.readdir curFile with
    | none => some (.goOn, vkResult, outFiles)
    | some names => do
      let (localRes, outFiles) ← addDirectoryEntries fs fuel curFile requests names outFiles
      let vkResult := if localRes = .success then vkResult else localRes
      if vkResult ≠ .success then some (.out, vkResult, outFiles) else some (.goOn, vkResult, outFiles)

/-- The loop that cuts a place up; each turn has its requests. -/
def addPlace (fs : FileSystem) (inner : ℕ) : ℕ → (ℕ → ℕ → InsertionRequests) → List Char → VkResult → StringList →
    Option (SearchTurn × VkResult × StringList)
  | 0, _, _, _, _ => none
  | fuel + 1, requests, nextFile, vkResult, outFiles =>
    if nextFile = [] then some (.nextPlace, vkResult, outFiles)
    else
      let (curFile, nextFile) := loaderGetNextPath nextFile
      (addCurFile fs inner (requests 0) (String.ofList curFile) vkResult outFiles).bind fun
        | (.goOn, vkResult, outFiles) => addPlace fs inner fuel (fun i => requests (i + 1)) nextFile vkResult outFiles
        | stop => some stop

/-- `add_data_files`, from a place on. -/
def addDataFiles (fs : FileSystem) (fuel : ℕ) : (ℕ → ℕ → ℕ → InsertionRequests) → List String → VkResult → StringList →
    Option (VkResult × StringList)
  | _, [], vkResult, outFiles => some (vkResult, outFiles)
  | requests, path :: paths, vkResult, outFiles =>
    (addPlace fs fuel fuel (requests 0) path.toList vkResult outFiles).bind fun
      | (.out, vkResult, outFiles) => some (vkResult, outFiles)
      | (_, vkResult, outFiles) => addDataFiles fs fuel (fun i => requests (i + 1)) paths vkResult outFiles

/-! ### The places -/

/-- `enum loader_data_files_type`. -/
inductive DataFilesType where
  | manifestDriver
  | manifestImplicitLayer
  | manifestExplicitLayer
  deriving DecidableEq

/-- A string without a `NUL`, behind another one. -/
def CString.append (s t : CString) : CString where
  bytes := s.bytes ++ t.bytes
  noNul h := (List.mem_append.1 h).elim s.noNul t.noNul

/-- The empty string. -/
def CString.empty : CString := ⟨[], List.not_mem_nil⟩

/-- `VK_DRIVERS_INFO_RELATIVE_DIR`, `VK_ILAYERS_INFO_RELATIVE_DIR` and `VK_ELAYERS_INFO_RELATIVE_DIR`. -/
def DataFilesType.relativeLocation : DataFilesType → CString
  | .manifestDriver => ⟨"vulkansc/icd.d".toList, by decide⟩
  | .manifestImplicitLayer => ⟨"vulkansc/implicit_layer.d".toList, by decide⟩
  | .manifestExplicitLayer => ⟨"vulkansc/explicit_layer.d".toList, by decide⟩

/-- What the search is made for: the kind of manifests, the overriding paths, the settings, the environment, the
directories that the build sets, and the file system. -/
structure ManifestSearch where
  manifestType : DataFilesType
  pathOverrides : List CString
  settings : LoaderSettings
  getenv : String → Option CString
  fallbackConfigDirs : CString
  fallbackDataDirs : CString
  sysconfdir : CString
  extrasysconfdir : Option CString
  fs : FileSystem

/-- The answers to the requests of a search: for the two directories of the user, for the turns of each call that cuts a
variable up, and for the files of each turn through each place. -/
structure SearchRequests where
  configHome : Bool
  dataHome : Bool
  places : ℕ → ℕ → InsertionRequests
  files : ℕ → ℕ → ℕ → InsertionRequests

/-- The calls of `copy_data_file_info` for a few values, each followed by a check of its result. -/
def copyDataFileInfos (stops : VkResult → Bool) (fuel : ℕ) (relativePath : CString) :
    (ℕ → ℕ → InsertionRequests) → List (Option CString) → StringList → Option (VkResult ⊕ StringList)
  | _, [], searchPaths => some (.inr searchPaths)
  | requests, curPath :: rest, searchPaths => do
    let (res, searchPaths) ← copyDataFileInfo fuel fuel (requests 0) curPath relativePath searchPaths
    if stops res then some (.inl res)
    else copyDataFileInfos stops fuel relativePath (fun i => requests (i + 1)) rest searchPaths

namespace ManifestSearch

variable (search : ManifestSearch)

/-- A variable that is not set, or empty. -/
def unset (var : Option CString) : Bool := var.elim true fun value => value.bytes.isEmpty

/-- `xdg_config_dirs` and `xdg_data_dirs`. -/
def xdgDirs (name : String) (fallback : CString) : CString :=
  match search.getenv name with
  | some value => if value.bytes.isEmpty then fallback else value
  | none => fallback

/-- `home_config_dir` and `home_data_dir`, where `HOME` stands for a variable that is not set; none if there is no memory
for it. -/
def homeDir (granted : Bool) (name : String) (suffix : CString) : Option (Option CString) :=
  match search.getenv "HOME" with
  | some home =>
    if unset (search.getenv name) then if granted then some (some (home.append suffix)) else none
    else some (search.getenv name)
  | none => some (search.getenv name)

/-- `home_config_dir`. -/
def homeConfigDir (granted : Bool) : Option (Option CString) :=
  search.homeDir granted "XDG_CONFIG_HOME" ⟨"/.config".toList, by decide⟩

/-- `home_data_dir`. -/
def homeDataDir (granted : Bool) : Option (Option CString) :=
  search.homeDir granted "XDG_DATA_HOME" ⟨"/.local/share".toList, by decide⟩

/-- `override_env`. -/
def overrideEnv : Option CString :=
  match search.manifestType with
  | .manifestDriver =>
    if loaderSettingsShouldUseDriverEnvironmentVariables search.settings then
      match search.getenv "VK_DRIVER_FILES" with
      | some value => some value
      | none => search.getenv "VK_ICD_FILENAMES"
    else none
  | .manifestImplicitLayer => search.getenv "VK_IMPLICIT_LAYER_PATH"
  | .manifestExplicitLayer => search.getenv "VK_LAYER_PATH"

/-- `additional_env`. -/
def additionalEnv : Option CString :=
  match search.manifestType with
  | .manifestDriver =>
    if loaderSettingsShouldUseDriverEnvironmentVariables search.settings then search.getenv "VK_ADD_DRIVER_FILES"
    else none
  | .manifestImplicitLayer => search.getenv "VK_ADD_IMPLICIT_LAYER_PATH"
  | .manifestExplicitLayer => search.getenv "VK_ADD_LAYER_PATH"

/-- The directories of the user and of the system, in the order in which they are searched. -/
def standardDirs (homeConfigDir homeDataDir : Option CString) : List (Option CString) :=
  [homeConfigDir, some (search.xdgDirs "XDG_CONFIG_DIRS" search.fallbackConfigDirs), some search.sysconfdir] ++
    (if search.extrasysconfdir.isSome then [search.extrasysconfdir] else []) ++
      [homeDataDir, some (search.xdgDirs "XDG_DATA_DIRS" search.fallbackDataDirs)]

/-- The first part of `read_data_files_in_search_paths`: the list `search_paths`, or the error that ends the search. -/
def readSearchPaths (fuel : ℕ) (requests : SearchRequests) : Option (VkResult ⊕ StringList) :=
  match search.homeConfigDir requests.configHome with
  | none => some (.inl .errorOutOfHostMemory)
  | some homeConfigDir =>
    match search.homeDataDir requests.dataHome with
    | none => some (.inl .errorOutOfHostMemory)
    | some homeDataDir =>
      if 0 < search.pathOverrides.length then
        copyDataFileInfos (· = .errorOutOfHostMemory) fuel .empty requests.places (search.pathOverrides.map some) .zero
      else
        match search.overrideEnv with
        | some overrideEnv =>
          copyDataFileInfos (· = .errorOutOfHostMemory) fuel .empty requests.places [some overrideEnv] .zero
        | none =>
          (copyDataFileInfos (· = .errorOutOfHostMemory) fuel .empty requests.places [search.additionalEnv] .zero).bind
            fun
            | .inl res => some (.inl res)
            | .inr searchPaths =>
              if 0 < search.manifestType.relativeLocation.len then
                copyDataFileInfos (· ≠ .success) fuel search.manifestType.relativeLocation
                  (fun i => requests.places (i + 1)) (search.standardDirs homeConfigDir homeDataDir) searchPaths
              else some (.inr searchPaths)

end ManifestSearch

/-- `read_data_files_in_search_paths`, into a list of zeros: the result, `override_active` if it is set, and the list. -/
def readDataFilesInSearchPaths (fuel : ℕ) (search : ManifestSearch) (requests : SearchRequests) :
    Option (VkResult × Option Bool × StringList) :=
  (search.readSearchPaths fuel requests).bind fun
    | .inl res => some (res, none, .zero)
    | .inr searchPaths =>
      (addDataFiles search.fs fuel requests.files searchPaths.strings .success .zero).map fun (res, outFiles) =>
        (res, some (decide (0 < search.pathOverrides.length) || search.overrideEnv.isSome), outFiles)

/-- `loader_get_data_files`; the list that it is given is freed first. -/
def loaderGetDataFiles (fuel : ℕ) (search : ManifestSearch) (requests : SearchRequests) :
    Option (VkResult × StringList) :=
  (readDataFilesInSearchPaths fuel search requests).map fun (res, _, outFiles) =>
    (res, if res ≠ .success then .zero else outFiles)

/-! ### What is searched, and what is found -/

/-- The path at which a manifest of a directory, or a manifest that is named itself, is found. -/
def manifestPath (fs : FileSystem) (place name : String) : String :=
  let path := printFullPath (place.toList ++ directorySymbol :: name.toList)
  if directorySymbol ∉ name.toList ∧ fs.fileExists path then path else printFullPath name.toList

/-- The manifests of a place. -/
def manifestsOf (fs : FileSystem) (place : String) : List String :=
  (if isJson place then if place.toList.length + 1 > 2048 then [] else [manifestPath fs place place]
    else ((fs.readdir place).getD []).map (manifestPath fs place)).filter isJson

/-! ### One file -/

section Insertion

variable {fs : FileSystem} {fuel : ℕ} {place name : String} {req : InsertionRequests} {outFiles outFiles' : StringList}
  {res : VkResult}

theorem loaderGetNextPath_of_not_mem {path : List Char} (h : pathSeparator ∉ path) :
    loaderGetNextPath path = (path, []) := by
  have hne : ∀ c ∈ path, (decide (c ≠ pathSeparator)) = true := by
    intro c hc
    have hsep : c ≠ pathSeparator := fun h' => h (h' ▸ hc)
    simpa using hsep
  unfold loaderGetNextPath
  rw [List.takeWhile_eq_self_iff.2 hne, List.dropWhile_eq_nil_iff.2 hne]
  rfl

/-- There is one directory to try. -/
theorem loaderGetFullpath_eq (name : String) (hplace : pathSeparator ∉ place.toList) (hne : place ≠ "")
    (hfuel : 2 ≤ fuel) : loaderGetFullpath fs fuel name place = some (manifestPath fs place name) := by
  obtain ⟨fuel, rfl⟩ := Nat.exists_eq_add_of_le' hfuel
  have hlist : place.toList ≠ [] := fun h => hne (String.toList_eq_nil_iff.1 h)
  unfold loaderGetFullpath manifestPath
  by_cases hpath : directorySymbol ∈ name.toList
  · have hcond : (!loaderPlatformIsPath name && decide (place ≠ "")) = false := by
      simp [loaderPlatformIsPath, hpath]
    rw [hcond, if_neg Bool.false_ne_true, if_neg fun h => h.1 hpath]
  have hcond : (!loaderPlatformIsPath name && decide (place ≠ "")) = true := by
    simp [loaderPlatformIsPath, hpath, hne]
  rw [if_pos hcond, findInDirs, loaderGetNextPath_of_not_mem hplace]
  dsimp only
  rw [if_pos hlist]
  by_cases hexists : fs.fileExists (printFullPath (place.toList ++ directorySymbol :: name.toList))
  · rw [if_pos hexists, if_pos ⟨hpath, hexists⟩]
    rfl
  · rw [if_neg hexists, if_neg fun h => hexists h.2, findInDirs]
    rfl

/-- **A file that is found** is added if it is a manifest; if there is no memory for it, the list is left as it was, but
without its array where the first request for that was refused. -/
theorem addIfManifestFile_ends (name : String) (req : InsertionRequests) (hl : outFiles.WellFormed) :
    ∃ res outFiles', addIfManifestFile req name outFiles = some (res, outFiles') ∧
      ((res = .incomplete ∨ res = .success) ∧ outFiles'.WellFormed ∧
          outFiles'.strings = outFiles.strings ++ [name].filter isJson ∨
        res = .errorOutOfHostMemory ∧ ¬ (req.copy ∧ req.array) ∧ (req.array → outFiles'.WellFormed)) := by
  unfold addIfManifestFile copyStrToStringList
  by_cases hjson : isJson name
  · rw [if_pos hjson, List.filter_cons_of_pos hjson]
    by_cases hcopy : req.copy
    · rw [if_pos hcopy]
      by_cases harray : req.array
      · rw [StringList.appendStr_of_room hl fun _ => harray]
        exact ⟨_, _, rfl, .inl ⟨.inr rfl, StringList.wellFormed_grown hl List.length_append, rfl⟩⟩
      · by_cases hfull : StringList.IsFull outFiles.allocatedCount outFiles.strings.length
        · obtain ⟨outFiles', happend, -⟩ := StringList.appendStr_of_no_room name hl hfull
          rw [Bool.not_eq_true] at harray
          rw [harray, happend]
          exact ⟨_, _, rfl, .inr ⟨rfl, by simp, nofun⟩⟩
        · rw [StringList.appendStr_of_room hl fun h => absurd h hfull]
          exact ⟨_, _, rfl, .inl ⟨.inr rfl, StringList.wellFormed_grown hl List.length_append, rfl⟩⟩
    · rw [if_neg hcopy]
      exact ⟨_, _, rfl, .inr ⟨rfl, fun h => hcopy h.1, fun _ => hl⟩⟩
  · rw [if_neg hjson, List.filter_cons_of_neg hjson]
    exact ⟨_, _, rfl, .inl ⟨.inl rfl, hl, (List.append_nil _).symm⟩⟩

/-- An insertion ends in one of three ways, whatever the list is like. -/
theorem addIfManifestFile_result (h : addIfManifestFile req name outFiles = some (res, outFiles')) :
    res = .incomplete ∨ res = .success ∨ res = .errorOutOfHostMemory := by
  unfold addIfManifestFile copyStrToStringList at h
  split_ifs at h
  · unfold appendStrToStringList at h
    dsimp only at h
    split_ifs at h with hres
    · cases h
      exact .inr (.inr hres)
    · obtain ⟨strings, -, h⟩ := Option.map_eq_some_iff.1 h
      cases h
      exact .inr (.inl rfl)
  · cases h
    exact .inr (.inr rfl)
  · cases h
    exact .inl rfl

end Insertion

/-! ### The files of a place -/

section Place

variable {fs : FileSystem} {fuel : ℕ} {place : String} {names : List String} {requests : ℕ → InsertionRequests}
  {outFiles outFiles' : StringList} {vkResult res : VkResult} {turn : SearchTurn}

theorem addDirectoryEntries_ends (hplace : pathSeparator ∉ place.toList) (hne : place ≠ "") (hfuel : 2 ≤ fuel)
    (names : List String) (requests : ℕ → InsertionRequests) (hl : outFiles.WellFormed) :
    ∃ res outFiles', addDirectoryEntries fs fuel place requests names outFiles = some (res, outFiles') ∧
      (res = .success ∧ outFiles'.WellFormed ∧
          outFiles'.strings = outFiles.strings ++ (names.map (manifestPath fs place)).filter isJson ∨
        res = .errorOutOfHostMemory ∧ (∃ i, ¬ ((requests i).copy ∧ (requests i).array)) ∧
          ((∀ i, (requests i).array) → outFiles'.WellFormed)) := by
  induction names generalizing requests outFiles with
  | nil => exact ⟨_, _, rfl, .inl ⟨rfl, hl, (List.append_nil _).symm⟩⟩
  | cons name names ih =>
    obtain ⟨res, outFiles₁, hadd, hends⟩ := addIfManifestFile_ends (manifestPath fs place name) (requests 0) hl
    unfold addDirectoryEntries
    simp only [loaderGetFullpath_eq name hplace hne hfuel, hadd, Option.bind_eq_bind, Option.bind_some]
    rcases hends with ⟨hres, hl₁, hstrings⟩ | ⟨rfl, hrefused, harray⟩
    · obtain ⟨res', outFiles', hrun, hends⟩ := ih (fun i => requests (i + 1)) hl₁
      rw [if_pos hres]
      refine ⟨res', outFiles', hrun, hends.imp ?_ ?_⟩
      · rintro ⟨hres', hl', hstrings'⟩
        refine ⟨hres', hl', ?_⟩
        rw [hstrings', hstrings, List.append_assoc, ← List.filter_append, List.map_cons]
        rfl
      · rintro ⟨hres', ⟨i, hi⟩, harray⟩
        exact ⟨hres', ⟨i + 1, hi⟩, fun h => harray fun i => h (i + 1)⟩
    · rw [if_neg (by decide)]
      exact ⟨_, _, rfl, .inr ⟨rfl, ⟨0, hrefused⟩, fun h => harray (h 0)⟩⟩

theorem addDirectoryEntries_result (h : addDirectoryEntries fs fuel place requests names outFiles = some (res, outFiles')) :
    res = .success ∨ res = .errorOutOfHostMemory := by
  induction names generalizing requests outFiles with
  | nil =>
    cases h
    exact .inl rfl
  | cons name names ih =>
    unfold addDirectoryEntries at h
    obtain ⟨fullPath, -, h⟩ := Option.bind_eq_some_iff.1 h
    obtain ⟨⟨localRes, outFiles₁⟩, hadd, h⟩ := Option.bind_eq_some_iff.1 h
    dsimp only at h
    split_ifs at h with hgoes
    · exact ih h
    · cases h
      obtain hres | hres | hres := addIfManifestFile_result hadd
      · exact absurd (.inl hres) hgoes
      · exact absurd (.inr hres) hgoes
      · exact .inr hres

/-- What every insertion keeps, a directory keeps. -/
theorem addDirectoryEntries_keeps {P : StringList → Prop} (hplace : pathSeparator ∉ place.toList) (hne : place ≠ "")
    (hfuel : 2 ≤ fuel) (names : List String) (hkeeps : ∀ i name outFiles, P outFiles → ∃ res outFiles',
      addIfManifestFile (requests i) name outFiles = some (res, outFiles') ∧ P outFiles') (hP : P outFiles) :
    ∃ res outFiles', addDirectoryEntries fs fuel place requests names outFiles = some (res, outFiles') ∧
      P outFiles' := by
  induction names generalizing requests outFiles with
  | nil => exact ⟨_, _, rfl, hP⟩
  | cons name names ih =>
    obtain ⟨res, outFiles₁, hadd, hP₁⟩ := hkeeps 0 (manifestPath fs place name) outFiles hP
    unfold addDirectoryEntries
    simp only [loaderGetFullpath_eq name hplace hne hfuel, hadd, Option.bind_eq_bind, Option.bind_some]
    split_ifs
    · exact ih (fun i => hkeeps (i + 1)) hP₁
    · exact ⟨_, _, rfl, hP₁⟩

/-- **A place is searched**: its manifests are added, or the memory ran out.  A directory ends the search then; a file
that was named itself does not. -/
theorem addCurFile_ends (hplace : pathSeparator ∉ place.toList) (hne : place ≠ "") (hfuel : 2 ≤ fuel)
    (requests : ℕ → InsertionRequests) (hl : outFiles.WellFormed) :
    ∃ turn res outFiles', addCurFile fs fuel requests place .success outFiles = some (turn, res, outFiles') ∧
      (turn = .goOn ∧ res = .success ∧ outFiles'.WellFormed ∧
          outFiles'.strings = outFiles.strings ++ manifestsOf fs place ∨
        res = .errorOutOfHostMemory ∧ (∃ i, ¬ ((requests i).copy ∧ (requests i).array)) ∧
          ((∀ i, (requests i).array) → outFiles'.WellFormed) ∧ (¬ isJson place → turn = .out)) := by
  unfold addCurFile manifestsOf
  by_cases hjson : isJson place
  · rw [if_pos hjson, if_pos hjson]
    by_cases hlong : place.toList.length + 1 > 2048
    · rw [if_pos hlong, if_pos hlong]
      exact ⟨_, _, _, rfl, .inl ⟨rfl, rfl, hl, (List.append_nil _).symm⟩⟩
    obtain ⟨res, outFiles', hadd, hends⟩ := addIfManifestFile_ends (manifestPath fs place place) (requests 0) hl
    rw [if_neg hlong, if_neg hlong]
    simp only [loaderGetFullpath_eq place hplace hne hfuel, hadd, Option.bind_eq_bind, Option.bind_some]
    rcases hends with ⟨hres, hl', hstrings⟩ | ⟨rfl, hrefused, harray⟩
    · rw [if_pos hres]
      exact ⟨_, _, _, rfl, .inl ⟨rfl, rfl, hl', hstrings⟩⟩
    · rw [if_neg (by decide)]
      exact ⟨_, _, _, rfl, .inr ⟨rfl, ⟨0, hrefused⟩, fun h => harray (h 0), fun h => absurd hjson h⟩⟩
  · rw [if_neg hjson, if_neg hjson]
    rcases fs.readdir place with _ | names
    · exact ⟨_, _, _, rfl, .inl ⟨rfl, rfl, hl, (List.append_nil _).symm⟩⟩
    obtain ⟨res, outFiles', hrun, hends⟩ := @addDirectoryEntries_ends fs _ _ _ hplace hne hfuel names requests hl
    simp only [hrun, Option.bind_eq_bind, Option.bind_some]
    rcases hends with ⟨rfl, hl', hstrings⟩ | ⟨rfl, hrefused, harray⟩
    · exact ⟨_, _, _, rfl, .inl ⟨rfl, rfl, hl', hstrings⟩⟩
    · exact ⟨_, _, _, rfl, .inr ⟨rfl, hrefused, harray, fun _ => rfl⟩⟩

/-- Once the memory has run out, that stays the result. -/
theorem addCurFile_failed (h : addCurFile fs fuel requests place .errorOutOfHostMemory outFiles =
    some (turn, res, outFiles')) : res = .errorOutOfHostMemory := by
  unfold addCurFile at h
  split_ifs at h with hjson hlong
  · cases h
    rfl
  · obtain ⟨fullPath, -, h⟩ := Option.bind_eq_some_iff.1 h
    obtain ⟨⟨localRes, outFiles₁⟩, hadd, h⟩ := Option.bind_eq_some_iff.1 h
    dsimp only at h
    split_ifs at h with hgoes
    · cases h
      rfl
    · cases h
      obtain hres | hres | hres := addIfManifestFile_result hadd
      · exact absurd (.inl hres) hgoes
      · exact absurd (.inr hres) hgoes
      · exact hres
  · rcases hnames : fs.readdir place with _ | names
    · rw [hnames] at h
      cases h
      rfl
    · rw [hnames] at h
      obtain ⟨⟨localRes, outFiles₁⟩, hrun, h⟩ := Option.bind_eq_some_iff.1 h
      dsimp only at h
      obtain rfl | rfl := addDirectoryEntries_result hrun
      · cases h
        rfl
      · cases h
        rfl

/-- What every insertion keeps, a place keeps. -/
theorem addCurFile_keeps {P : StringList → Prop} (hplace : pathSeparator ∉ place.toList) (hne : place ≠ "")
    (hfuel : 2 ≤ fuel) (hkeeps : ∀ i name outFiles, P outFiles → ∃ res outFiles',
      addIfManifestFile (requests i) name outFiles = some (res, outFiles') ∧ P outFiles') (hP : P outFiles)
    (vkResult : VkResult) : ∃ turn res outFiles',
      addCurFile fs fuel requests place vkResult outFiles = some (turn, res, outFiles') ∧ P outFiles' := by
  unfold addCurFile
  split_ifs with hjson hlong
  · exact ⟨_, _, _, rfl, hP⟩
  · obtain ⟨res, outFiles', hadd, hP'⟩ := hkeeps 0 (manifestPath fs place place) outFiles hP
    simp only [loaderGetFullpath_eq place hplace hne hfuel, hadd, Option.bind_eq_bind, Option.bind_some]
    split_ifs
    · exact ⟨_, _, _, rfl, hP'⟩
    · exact ⟨_, _, _, rfl, hP'⟩
  · rcases fs.readdir place with _ | names
    · exact ⟨_, _, _, rfl, hP⟩
    obtain ⟨res, outFiles', hrun, hP'⟩ := @addDirectoryEntries_keeps fs _ _ _ _ P hplace hne hfuel names hkeeps hP
    simp only [hrun, Option.bind_eq_bind, Option.bind_some]
    split_ifs
    · exact ⟨_, _, _, rfl, hP'⟩
    · exact ⟨_, _, _, rfl, hP'⟩
    · exact ⟨_, _, _, rfl, hP'⟩

end Place

/-! ### The files of all places -/

section Places

variable {fs : FileSystem} {fuel : ℕ} {place : String} {places : List String}
  {requests : ℕ → ℕ → ℕ → InsertionRequests} {outFiles outFiles' : StringList} {vkResult res : VkResult}

/-- A place that no separator is in. -/
def IsPlace (place : String) : Prop := pathSeparator ∉ place.toList ∧ place ≠ ""

/-- Such a place is one turn. -/
theorem addDataFiles_cons (hplace : IsPlace place) (hfuel : 2 ≤ fuel) (requests : ℕ → ℕ → ℕ → InsertionRequests) :
    addDataFiles fs fuel requests (place :: places) vkResult outFiles =
      (addCurFile fs fuel (requests 0 0) place vkResult outFiles).bind fun
        | (.out, vkResult, outFiles) => some (vkResult, outFiles)
        | (_, vkResult, outFiles) =>
          addDataFiles fs fuel (fun i => requests (i + 1)) places vkResult outFiles := by
  obtain ⟨n, rfl⟩ := Nat.exists_eq_add_of_le' hfuel
  have hne : place.toList ≠ [] := fun h => hplace.2 (String.toList_eq_nil_iff.1 h)
  have hturn : addPlace fs (n + 2) (n + 2) (requests 0) place.toList vkResult outFiles =
      (addCurFile fs (n + 2) (requests 0 0) place vkResult outFiles).bind fun
        | (.goOn, vkResult, outFiles) => some (.nextPlace, vkResult, outFiles)
        | stop => some stop := by
    rw [addPlace, if_neg hne, loaderGetNextPath_of_not_mem hplace.1]
    dsimp only
    rw [String.ofList_toList]
    congr 1
  rw [addDataFiles, hturn, Option.bind_assoc]
  congr 1
  funext r
  obtain ⟨turn, vkResult, outFiles⟩ := r
  cases turn
  · rfl
  · rfl
  · rfl

/-- Once the memory has run out, that is how the search ends. -/
theorem addDataFiles_failed (hplaces : ∀ place ∈ places, IsPlace place) (hfuel : 2 ≤ fuel)
    (h : addDataFiles fs fuel requests places .errorOutOfHostMemory outFiles = some (res, outFiles')) :
    res = .errorOutOfHostMemory := by
  induction places generalizing requests outFiles with
  | nil =>
    cases h
    rfl
  | cons place places ih =>
    rw [addDataFiles_cons (hplaces place List.mem_cons_self) hfuel] at h
    obtain ⟨⟨turn, vkResult, outFiles₁⟩, hturn, h⟩ := Option.bind_eq_some_iff.1 h
    obtain rfl := addCurFile_failed hturn
    have hnext := fun place hmem => hplaces place (List.mem_cons_of_mem _ hmem)
    cases turn
    · exact ih hnext h
    · exact ih hnext h
    · cases h
      rfl

/-- **What the search leaves**: the manifests of the places, in order, or the memory ran out, a request having been
refused. -/
theorem addDataFiles_ends (hplaces : ∀ place ∈ places, IsPlace place) (hfuel : 2 ≤ fuel) (hl : outFiles.WellFormed)
    (h : addDataFiles fs fuel requests places .success outFiles = some (res, outFiles')) :
    res = .success ∧ outFiles'.strings = outFiles.strings ++ places.flatMap (manifestsOf fs) ∨
      res = .errorOutOfHostMemory ∧ ∃ i j k, ¬ ((requests i j k).copy ∧ (requests i j k).array) := by
  induction places generalizing requests outFiles with
  | nil =>
    cases h
    exact .inl ⟨rfl, (List.append_nil _).symm⟩
  | cons place places ih =>
    have hfirst := hplaces place List.mem_cons_self
    have hnext := fun place hmem => hplaces place (List.mem_cons_of_mem _ hmem)
    obtain ⟨turn, vkResult, outFiles₁, hturn, hends⟩ :=
      @addCurFile_ends fs _ _ _ hfirst.1 hfirst.2 hfuel (requests 0 0) hl
    rw [addDataFiles_cons hfirst hfuel, hturn, Option.bind_some] at h
    rcases hends with ⟨rfl, rfl, hl₁, hstrings⟩ | ⟨rfl, ⟨k, hk⟩, -⟩
    · refine (ih hnext hl₁ h).imp ?_ ?_
      · rintro ⟨hres, hstrings'⟩
        exact ⟨hres, by rw [hstrings', hstrings, List.append_assoc, List.flatMap_cons]⟩
      · rintro ⟨hres, i, j, k, hijk⟩
        exact ⟨hres, i + 1, j, k, hijk⟩
    · refine .inr ⟨?_, 0, 0, k, hk⟩
      cases turn
      · exact addDataFiles_failed hnext hfuel h
      · exact addDataFiles_failed hnext hfuel h
      · cases h
        rfl

/-- The search ends if no insertion fails to. -/
theorem isSome_addDataFiles {P : StringList → Prop} (hplaces : ∀ place ∈ places, IsPlace place) (hfuel : 2 ≤ fuel)
    (hkeeps : ∀ i j k name outFiles, P outFiles → ∃ res outFiles',
      addIfManifestFile (requests i j k) name outFiles = some (res, outFiles') ∧ P outFiles') (hP : P outFiles) :
    (addDataFiles fs fuel requests places vkResult outFiles).isSome := by
  induction places generalizing requests outFiles vkResult with
  | nil => rfl
  | cons place places ih =>
    have hfirst := hplaces place List.mem_cons_self
    have hnext := fun place hmem => hplaces place (List.mem_cons_of_mem _ hmem)
    obtain ⟨turn, res, outFiles₁, hturn, hP₁⟩ :=
      @addCurFile_keeps fs _ _ _ _ P hfirst.1 hfirst.2 hfuel (hkeeps 0 0) hP vkResult
    rw [addDataFiles_cons hfirst hfuel, hturn, Option.bind_some]
    cases turn
    · exact ih hnext (fun i => hkeeps (i + 1)) hP₁
    · exact ih hnext (fun i => hkeeps (i + 1)) hP₁
    · rfl

end Places

/-! ### Requests that are refused on the way to the places -/

section Refused

variable {curPath relativePath : CString} {inner fuel start : ℕ} {requests : ℕ → InsertionRequests}
  {searchPaths : StringList}

theorem appendStrIfUnique_refused (granted : Bool) (str : String) (hl : searchPaths.WellFormed) :
    appendStrIfUnique granted searchPaths str = appendStrIfUnique true searchPaths str ∨
      granted = false ∧ ∃ searchPaths', appendStrIfUnique granted searchPaths str =
        some (.errorOutOfHostMemory, searchPaths') := by
  unfold appendStrIfUnique
  by_cases hmem : str ∈ searchPaths.strings
  · rw [if_pos hmem, if_pos hmem]
    exact .inl rfl
  rw [if_neg hmem, if_neg hmem]
  rcases granted with _ | _
  · by_cases hfull : StringList.IsFull searchPaths.allocatedCount searchPaths.strings.length
    · obtain ⟨searchPaths', happend, -⟩ := StringList.appendStr_of_no_room str hl hfull
      exact .inr ⟨rfl, _, happend⟩
    · rw [StringList.appendStr_of_room hl fun h => absurd h hfull, StringList.appendStr_of_room hl fun _ => rfl]
      exact .inl rfl
  · exact .inl rfl

/-- A loop that is refused something ends as the one that is refused nothing, or reports that the memory ran out. -/
theorem copySegments_refused (requests : ℕ → InsertionRequests) (hl : searchPaths.WellFormed) :
    copySegments curPath relativePath inner fuel requests start searchPaths =
        copySegments curPath relativePath inner fuel grantsAll start searchPaths ∨
      (∃ i, ¬ ((requests i).copy ∧ (requests i).array)) ∧ ∃ searchPaths',
        copySegments curPath relativePath inner fuel requests start searchPaths =
          some (.errorOutOfHostMemory, searchPaths') := by
  induction fuel generalizing start searchPaths requests with
  | zero => exact .inl rfl
  | succ fuel ih =>
    have hshift : (fun i => grantsAll (i + 1)) = grantsAll := rfl
    have hlater : ∀ {start searchPaths}, searchPaths.WellFormed →
        copySegments curPath relativePath inner fuel (fun i => requests (i + 1)) start searchPaths =
            copySegments curPath relativePath inner fuel grantsAll start searchPaths ∨
          (∃ i, ¬ ((requests i).copy ∧ (requests i).array)) ∧ ∃ searchPaths',
            copySegments curPath relativePath inner fuel (fun i => requests (i + 1)) start searchPaths =
              some (.errorOutOfHostMemory, searchPaths') := by
      intro start searchPaths hl
      exact (ih (fun i => requests (i + 1)) hl).imp_right fun ⟨⟨i, hi⟩, hrun⟩ => ⟨⟨i + 1, hi⟩, hrun⟩
    unfold copySegments
    rw [hshift]
    rcases curPath.readByte start with _ | c
    · simp only [Option.bind_eq_bind, Option.bind_none, true_or]
    simp only [Option.bind_eq_bind, Option.bind_some]
    by_cases hnul : c ≠ '\x00'
    · rw [if_pos hnul, if_pos hnul]
      rcases skipSeparators curPath inner start with _ | start₁
      · simp only [Option.bind_none, true_or]
      rw [Option.bind_some, Option.bind_some]
      rcases findSegmentEnd curPath inner start₁ with _ | stop
      · simp only [Option.bind_none, true_or]
      rw [Option.bind_some, Option.bind_some]
      by_cases hs : segmentLen start₁ stop ≠ 0
      · have hgranted : ¬ (!(grantsAll 0).copy) = true := by decide
        rw [if_pos hs, if_pos hs, if_neg hgranted]
        by_cases hcopy : (requests 0).copy
        · rw [if_neg (by simp [hcopy])]
          rcases dataFileBuffer curPath relativePath start₁ (segmentLen start₁ stop) with _ | buffer
          · simp only [Option.bind_none, true_or]
          simp only [Option.bind_some]
          obtain happend | ⟨hgranted, searchPaths', happend⟩ :=
            appendStrIfUnique_refused (requests 0).array (bufferString buffer) hl
          · obtain ⟨searchPaths₁, hgranted, hl₁, -⟩ := appendStrIfUnique_granted hl (bufferString buffer)
            have hadded : appendStrIfUnique (grantsAll 0).array searchPaths (bufferString buffer) =
              some (.success, searchPaths₁) := hgranted
            rw [happend, hgranted, hadded]
            simp only [Option.bind_some, ne_eq, not_true_eq_false, if_false]
            exact hlater hl₁
          · rw [happend]
            simp only [Option.bind_some]
            refine .inr ⟨⟨0, fun h => ?_⟩, searchPaths', if_pos (by decide)⟩
            rw [hgranted] at h
            cases h.2
        · rw [Bool.not_eq_true] at hcopy
          refine .inr ⟨⟨0, fun h => ?_⟩, searchPaths, ?_⟩
          · rw [hcopy] at h
            cases h.1
          · rw [if_pos (by simp [hcopy])]
      · rw [if_neg hs, if_neg hs]
        exact hlater hl
    · rw [if_neg hnul, if_neg hnul]
      exact .inl rfl

/-- A value is cut up: the places that it names are added to the list, or the memory ran out. -/
theorem copyDataFileInfo_ends (relativePath : CString) (requests : ℕ → InsertionRequests) (hlen : curPath.len < 2 ^ 32)
    (hfuel : curPath.len + 2 ≤ fuel) (hl : searchPaths.WellFormed) :
    ∃ res searchPaths', copyDataFileInfo fuel fuel requests (some curPath) relativePath searchPaths =
        some (res, searchPaths') ∧
      (res = .success ∧ searchPaths'.WellFormed ∧
          searchPaths'.strings = addMissing (dataFilePaths curPath relativePath) searchPaths.strings ∨
        res = .errorOutOfHostMemory ∧ ∃ i, ¬ ((requests i).copy ∧ (requests i).array)) := by
  obtain ⟨searchPaths', hrun, hl', hstrings⟩ :=
    @copySegments_spec curPath curPath.bytes 0 fuel fuel searchPaths relativePath ⟨rfl, Nat.zero_add _⟩ hlen
      (by omega) hfuel hl
  unfold copyDataFileInfo
  obtain hsame | ⟨hrefused, searchPaths₁, hrun₁⟩ := @copySegments_refused curPath relativePath fuel fuel 0 _ requests hl
  · exact ⟨_, _, hsame.trans hrun, .inl ⟨rfl, hl', hstrings⟩⟩
  · exact ⟨_, _, hrun₁, .inr ⟨rfl, hrefused⟩⟩

/-- The places that a few values name. -/
def placesOf (relativePath : CString) (values : List (Option CString)) : List String :=
  (values.filterMap id).flatMap fun value => dataFilePaths value relativePath

theorem copyDataFileInfos_ends {stops : VkResult → Bool} {values : List (Option CString)} (relativePath : CString)
    (requests : ℕ → ℕ → InsertionRequests) (hsuccess : stops .success = false)
    (hmemory : stops .errorOutOfHostMemory = true)
    (hvalues : ∀ value ∈ values.filterMap id, value.len < 2 ^ 32 ∧ value.len + 2 ≤ fuel) (hl : searchPaths.WellFormed) :
    (∃ searchPaths', copyDataFileInfos stops fuel relativePath requests values searchPaths =
        some (.inr searchPaths') ∧ searchPaths'.WellFormed ∧
        searchPaths'.strings = addMissing (placesOf relativePath values) searchPaths.strings) ∨
      copyDataFileInfos stops fuel relativePath requests values searchPaths = some (.inl .errorOutOfHostMemory) ∧
        ∃ i j, ¬ ((requests i j).copy ∧ (requests i j).array) := by
  induction values generalizing requests searchPaths with
  | nil => exact .inl ⟨searchPaths, rfl, hl, rfl⟩
  | cons value values ih =>
    unfold copyDataFileInfos
    rcases value with _ | value
    · rw [copyDataFileInfo, Option.bind_eq_bind, Option.bind_some]
      dsimp only
      rw [hsuccess, if_neg Bool.false_ne_true]
      refine (ih (fun i => requests (i + 1)) hvalues hl).imp_right ?_
      rintro ⟨hrun, i, j, hij⟩
      exact ⟨hrun, i + 1, j, hij⟩
    · have hvalue := hvalues value List.mem_cons_self
      have hrest := fun v hv => hvalues v (List.mem_cons_of_mem _ hv)
      obtain ⟨res, searchPaths₁, hrun, hends⟩ :=
        copyDataFileInfo_ends relativePath (requests 0) hvalue.1 hvalue.2 hl
      rw [hrun, Option.bind_eq_bind, Option.bind_some]
      dsimp only
      rcases hends with ⟨rfl, hl₁, hstrings⟩ | ⟨rfl, j, hj⟩
      · rw [hsuccess, if_neg Bool.false_ne_true]
        refine (ih (fun i => requests (i + 1)) hrest hl₁).imp ?_ ?_
        · rintro ⟨searchPaths', hrun', hl', hstrings'⟩
          refine ⟨searchPaths', hrun', hl', ?_⟩
          rw [hstrings', hstrings, ← addMissing_append]
          rfl
        · rintro ⟨hrun, i, j, hij⟩
          exact ⟨hrun, i + 1, j, hij⟩
      · rw [if_pos hmemory]
        exact .inr ⟨rfl, 0, j, hj⟩

end Refused

/-! ### The order of the places -/

namespace ManifestSearch

variable (search : ManifestSearch)

/-- A directory of the user: the value of the variable, or the one below `HOME` where that says nothing. -/
def userDir (name : String) (suffix : CString) : Option CString :=
  if unset (search.getenv name) then (search.getenv "HOME").map fun home => home.append suffix else search.getenv name

/-- The directories of the user and of the system, where every request is granted. -/
def allStandardDirs : List (Option CString) :=
  search.standardDirs (search.userDir "XDG_CONFIG_HOME" ⟨"/.config".toList, by decide⟩)
    (search.userDir "XDG_DATA_HOME" ⟨"/.local/share".toList, by decide⟩)

/-- The values that say where to search, each with the directory that is looked for below it.  The overriding paths come
before the variable that overrides, and this one before all others. -/
def locations : List (CString × CString) :=
  if search.pathOverrides ≠ [] then search.pathOverrides.map fun value => (value, .empty)
  else
    match search.overrideEnv with
    | some value => [(value, .empty)]
    | none =>
      search.additionalEnv.toList.map (fun value => (value, .empty)) ++
        (search.allStandardDirs.filterMap id).map fun value => (value, search.manifestType.relativeLocation)

/-- The places that are searched, each once. -/
def places : List String :=
  addMissing (search.locations.flatMap fun location => dataFilePaths location.1 location.2) []

/-- The manifests that there are, in the order of the places. -/
def manifests : List String := search.places.flatMap (manifestsOf search.fs)

end ManifestSearch

/-- Nothing is refused on the way to the places. -/
structure SearchRequests.PlacesGranted (requests : SearchRequests) : Prop where
  configHome : requests.configHome
  dataHome : requests.dataHome
  places : ∀ i j, (requests.places i j).copy ∧ (requests.places i j).array

/-- Nothing is refused. -/
structure SearchRequests.Granted (requests : SearchRequests) : Prop extends requests.PlacesGranted where
  files : ∀ i j k, (requests.files i j k).copy ∧ (requests.files i j k).array

section Search

variable {search : ManifestSearch} {requests : SearchRequests} {fuel : ℕ} {place : String}

/-- No place has a separator in it. -/
theorem isPlace_of_mem_dataFilePaths {curPath relativePath : CString} (hrelative : pathSeparator ∉ relativePath.bytes)
    (h : place ∈ dataFilePaths curPath relativePath) : IsPlace place := by
  obtain ⟨segment, hsegment, rfl⟩ := List.mem_map.1 h
  have hsep := not_mem_of_mem_segments hsegment
  have hne := ne_nil_of_mem_segments hsegment
  have hpath : pathSeparator ∉ dataFilePath relativePath segment ∧ dataFilePath relativePath segment ≠ [] := by
    unfold dataFilePath
    split_ifs
    · exact ⟨hsep, hne⟩
    · rw [List.mem_append, not_or]
      exact ⟨⟨hsep, hrelative⟩, List.append_ne_nil_of_left_ne_nil hne _⟩
    · rw [List.mem_append, List.mem_cons, not_or, not_or]
      exact ⟨⟨hsep, by decide, hrelative⟩, List.append_ne_nil_of_left_ne_nil hne _⟩
  rw [IsPlace, String.toList_ofList]
  refine ⟨hpath.1, fun h => hpath.2 ?_⟩
  rw [← String.toList_ofList (l := dataFilePath relativePath segment), h]
  rfl

theorem pathSeparator_not_mem_relativeLocation (manifestType : DataFilesType) :
    pathSeparator ∉ manifestType.relativeLocation.bytes := by
  cases manifestType
  · decide
  · decide
  · decide

theorem isPlace_of_mem_places (h : place ∈ search.places) : IsPlace place := by
  obtain ⟨⟨value, dir⟩, hlocation, hplace⟩ := List.mem_flatMap.1 ((mem_addMissing.1 h).resolve_left List.not_mem_nil)
  refine isPlace_of_mem_dataFilePaths ?_ hplace
  have hdir : dir = .empty ∨ dir = search.manifestType.relativeLocation := by
    unfold ManifestSearch.locations at hlocation
    split_ifs at hlocation
    · obtain ⟨v, -, heq⟩ := List.mem_map.1 hlocation
      exact .inl (Prod.mk.inj heq).2.symm
    · rcases hoverride : search.overrideEnv with _ | v
      · rw [hoverride] at hlocation
        rcases List.mem_append.1 hlocation with hlocation | hlocation
        · obtain ⟨v, -, heq⟩ := List.mem_map.1 hlocation
          exact .inl (Prod.mk.inj heq).2.symm
        · obtain ⟨v, -, heq⟩ := List.mem_map.1 hlocation
          exact .inr (Prod.mk.inj heq).2.symm
      · rw [hoverride] at hlocation
        exact .inl (Prod.mk.inj (List.mem_singleton.1 hlocation)).2
  rcases hdir with rfl | rfl
  · exact List.not_mem_nil
  · exact pathSeparator_not_mem_relativeLocation _

theorem placesOf_append (relativePath : CString) (values values' : List (Option CString)) :
    placesOf relativePath (values ++ values') = placesOf relativePath values ++ placesOf relativePath values' := by
  rw [placesOf, List.filterMap_append, List.flatMap_append]
  rfl

/-- What the code takes for a directory of the user names the places that this directory names. -/
theorem homeDir_ends (granted : Bool) (name : String) (suffix : CString) :
    search.homeDir granted name suffix = none ∧ granted = false ∨
      ∃ dir, search.homeDir granted name suffix = some dir ∧
        (∀ relativePath, placesOf relativePath [dir] = placesOf relativePath [search.userDir name suffix]) ∧
        ∀ value, dir = some value → search.userDir name suffix = some value ∨ value.len = 0 := by
  unfold ManifestSearch.homeDir ManifestSearch.userDir
  by_cases hunset : ManifestSearch.unset (search.getenv name)
  · rw [if_pos hunset]
    rcases search.getenv "HOME" with _ | home
    · refine .inr ⟨_, rfl, ?_⟩
      rcases hvalue : search.getenv name with _ | value
      · exact ⟨fun _ => rfl, nofun⟩
      · rw [hvalue] at hunset
        have hnil : value.bytes = [] := List.isEmpty_iff.1 hunset
        refine ⟨fun relativePath => ?_, ?_⟩
        · simp [placesOf, dataFilePaths, hnil]
        · rintro _ ⟨⟩
          exact .inr (by rw [CString.len, hnil, List.length_nil])
    · dsimp only
      rw [if_pos hunset]
      rcases granted with _ | _
      · exact .inl ⟨rfl, rfl⟩
      · exact .inr ⟨_, rfl, fun _ => rfl, fun value h => .inl h⟩
  · rw [if_neg hunset]
    refine .inr ⟨search.getenv name, ?_, fun _ => rfl, fun value h => .inl h⟩
    rcases search.getenv "HOME" with _ | home
    · rfl
    · exact if_neg hunset

theorem flatMap_locations (relativePath : CString) (values : List (Option CString)) :
    ((values.filterMap id).map fun value => (value, relativePath)).flatMap
        (fun location => dataFilePaths location.1 location.2) = placesOf relativePath values := List.flatMap_map ..

theorem filterMap_map_some (values : List CString) : (values.map some).filterMap id = values := by
  rw [List.filterMap_map]
  exact List.filterMap_some

theorem standardDirs_eq (search : ManifestSearch) : ∃ middle last,
    ∀ configDir dataDir, search.standardDirs configDir dataDir = [configDir] ++ middle ++ [dataDir] ++ last := by
  refine ⟨[some (search.xdgDirs "XDG_CONFIG_DIRS" search.fallbackConfigDirs), some search.sysconfdir] ++
    (if search.extrasysconfdir.isSome then [search.extrasysconfdir] else []),
    [some (search.xdgDirs "XDG_DATA_DIRS" search.fallbackDataDirs)], fun configDir dataDir => ?_⟩
  simp [ManifestSearch.standardDirs]

/-- With what the code takes for the directories of the user the same places are searched. -/
theorem placesOf_standardDirs {homeConfigDir homeDataDir : Option CString}
    (hconfig : ∀ relativePath, placesOf relativePath [homeConfigDir] =
      placesOf relativePath [search.userDir "XDG_CONFIG_HOME" ⟨"/.config".toList, by decide⟩])
    (hdata : ∀ relativePath, placesOf relativePath [homeDataDir] =
      placesOf relativePath [search.userDir "XDG_DATA_HOME" ⟨"/.local/share".toList, by decide⟩])
    (relativePath : CString) : placesOf relativePath (search.standardDirs homeConfigDir homeDataDir) =
      placesOf relativePath search.allStandardDirs := by
  obtain ⟨middle, last, hdirs⟩ := standardDirs_eq search
  rw [ManifestSearch.allStandardDirs, hdirs, hdirs]
  simp only [placesOf_append, hconfig, hdata]

theorem mem_standardDirs {homeConfigDir homeDataDir : Option CString}
    (hconfig : ∀ value, homeConfigDir = some value →
      search.userDir "XDG_CONFIG_HOME" ⟨"/.config".toList, by decide⟩ = some value ∨ value.len = 0)
    (hdata : ∀ value, homeDataDir = some value →
      search.userDir "XDG_DATA_HOME" ⟨"/.local/share".toList, by decide⟩ = some value ∨ value.len = 0)
    {value : CString} (hvalue : some value ∈ search.standardDirs homeConfigDir homeDataDir) :
    some value ∈ search.allStandardDirs ∨ value.len = 0 := by
  obtain ⟨middle, last, hdirs⟩ := standardDirs_eq search
  rw [hdirs] at hvalue
  rw [ManifestSearch.allStandardDirs, hdirs]
  simp only [List.mem_append, List.mem_singleton] at hvalue ⊢
  obtain ((hdir | hdir) | hdir) | hdir := hvalue
  · exact (hconfig value hdir.symm).imp_left fun h => .inl (.inl (.inl h.symm))
  · exact .inl (.inl (.inl (.inr hdir)))
  · exact (hdata value hdir.symm).imp_left fun h => .inl (.inr h.symm)
  · exact .inl (.inr hdir)

/-- Every value that says where to search has an end that the cursors reach. -/
def ManifestSearch.Fits (search : ManifestSearch) (fuel : ℕ) : Prop :=
  ∀ location ∈ search.locations, location.1.len < 2 ^ 32 ∧ location.1.len + 2 ≤ fuel

/-- **The places are listed**, or the memory ran out. -/
theorem readSearchPaths_ends (hfits : search.Fits fuel) (hfuel : 2 ≤ fuel) (requests : SearchRequests) :
    (∃ searchPaths, search.readSearchPaths fuel requests = some (.inr searchPaths) ∧
        searchPaths.strings = search.places) ∨
      search.readSearchPaths fuel requests = some (.inl .errorOutOfHostMemory) ∧ ¬ requests.PlacesGranted := by
  unfold ManifestSearch.readSearchPaths
  obtain ⟨hconfig, hrefused⟩ | ⟨homeConfigDir, hconfig, hconfigPlaces, hconfigFits⟩ :=
    @homeDir_ends search requests.configHome "XDG_CONFIG_HOME" ⟨"/.config".toList, by decide⟩
  · refine .inr ⟨?_, fun h => absurd h.configHome (by simp [hrefused])⟩
    rw [ManifestSearch.homeConfigDir, hconfig]
  obtain ⟨hdata, hrefused⟩ | ⟨homeDataDir, hdata, hdataPlaces, hdataFits⟩ :=
    @homeDir_ends search requests.dataHome "XDG_DATA_HOME" ⟨"/.local/share".toList, by decide⟩
  · refine .inr ⟨?_, fun h => absurd h.dataHome (by simp [hrefused])⟩
    rw [ManifestSearch.homeConfigDir, hconfig, ManifestSearch.homeDataDir, hdata]
  rw [ManifestSearch.homeConfigDir, hconfig, ManifestSearch.homeDataDir, hdata]
  dsimp only
  have hrefused : (∃ i j, ¬ ((requests.places i j).copy ∧ (requests.places i j).array)) → ¬ requests.PlacesGranted := by
    rintro ⟨i, j, hij⟩ h
    exact hij (h.places i j)
  have hplaces : search.places = addMissing (search.locations.flatMap fun l => dataFilePaths l.1 l.2) [] := rfl
  unfold ManifestSearch.Fits at hfits
  unfold ManifestSearch.locations at hplaces hfits
  by_cases hoverrides : search.pathOverrides = []
  · rw [if_neg (by simp [hoverrides])]
    rw [if_neg (not_not_intro hoverrides)] at hplaces hfits
    rcases henv : search.overrideEnv with _ | overrideEnv
    · rw [henv] at hplaces hfits
      dsimp only at hplaces hfits ⊢
      have hadditional : ∀ value ∈ [search.additionalEnv].filterMap id, value.len < 2 ^ 32 ∧ value.len + 2 ≤ fuel := by
        intro value hvalue
        refine hfits (value, .empty) (List.mem_append_left _ (List.mem_map.2 ⟨value, ?_, rfl⟩))
        simpa [eq_comm] using hvalue
      have hstandard : ∀ value ∈ (search.standardDirs homeConfigDir homeDataDir).filterMap id,
          value.len < 2 ^ 32 ∧ value.len + 2 ≤ fuel := by
        intro value hvalue
        obtain ⟨dir, hdir, rfl : dir = some value⟩ := List.mem_filterMap.1 hvalue
        rcases mem_standardDirs hconfigFits hdataFits hdir with hdir | hlen
        · exact hfits (value, _) (List.mem_append_right _
            (List.mem_map.2 ⟨value, List.mem_filterMap.2 ⟨some value, hdir, rfl⟩, rfl⟩))
        · omega
      have hstandardPlaces := placesOf_standardDirs hconfigPlaces hdataPlaces search.manifestType.relativeLocation
      have hrelative : 0 < search.manifestType.relativeLocation.len := by
        cases search.manifestType
        · decide
        · decide
        · decide
      obtain ⟨searchPaths, hrun, hl, hstrings⟩ | ⟨hrun, hij⟩ :=
        @copyDataFileInfos_ends fuel .zero (· = .errorOutOfHostMemory) [search.additionalEnv] .empty requests.places rfl
          rfl hadditional StringList.wellFormed_zero
      · rw [hrun, Option.bind_some]
        dsimp only
        rw [if_pos hrelative]
        refine (@copyDataFileInfos_ends fuel searchPaths (· ≠ .success) _
          search.manifestType.relativeLocation (fun i => requests.places (i + 1)) rfl rfl hstandard hl).imp ?_ ?_
        · rintro ⟨searchPaths', hrun', -, hstrings'⟩
          refine ⟨searchPaths', hrun', ?_⟩
          rw [hstrings', hstrings, hstandardPlaces, ← addMissing_append, hplaces, List.flatMap_append, flatMap_locations]
          congr 2
          rcases search.additionalEnv with _ | value
          · rfl
          · rfl
        · rintro ⟨hrun, i, j, hij⟩
          exact ⟨hrun, hrefused ⟨i + 1, j, hij⟩⟩
      · rw [hrun, Option.bind_some]
        exact .inr ⟨rfl, hrefused hij⟩
    · rw [henv] at hplaces hfits
      dsimp only at hplaces hfits ⊢
      refine (@copyDataFileInfos_ends fuel .zero (· = .errorOutOfHostMemory) [some overrideEnv] .empty requests.places rfl
        rfl ?_ StringList.wellFormed_zero).imp ?_ (And.imp_right hrefused)
      · intro value hvalue
        obtain rfl : value = overrideEnv := by simpa using hvalue
        exact hfits _ List.mem_cons_self
      · rintro ⟨searchPaths, hrun, -, hstrings⟩
        exact ⟨searchPaths, hrun, hstrings.trans hplaces.symm⟩
  · rw [if_pos (List.length_pos_iff.2 hoverrides)]
    rw [if_pos hoverrides] at hplaces hfits
    refine (@copyDataFileInfos_ends fuel .zero (· = .errorOutOfHostMemory) (search.pathOverrides.map some) .empty
      requests.places rfl rfl ?_ StringList.wellFormed_zero).imp ?_ (And.imp_right hrefused)
    · intro value hvalue
      rw [filterMap_map_some] at hvalue
      exact hfits (value, .empty) (List.mem_map.2 ⟨value, hvalue, rfl⟩)
    · rintro ⟨searchPaths, hrun, -, hstrings⟩
      refine ⟨searchPaths, hrun, hstrings.trans ?_⟩
      rw [hplaces, ← flatMap_locations, filterMap_map_some]
      rfl

/-- A bound on the lengths of the values. -/
theorem exists_fits (hlen : ∀ location ∈ search.locations, location.1.len < 2 ^ 32) :
    ∃ bound, 2 ≤ bound ∧ ∀ fuel, bound ≤ fuel → search.Fits fuel := by
  obtain ⟨n, hn⟩ : ∃ n, ∀ location ∈ search.locations, location.1.len ≤ n := by
    induction search.locations with
    | nil => exact ⟨0, nofun⟩
    | cons location locations ih =>
      obtain ⟨n, hn⟩ := ih
      refine ⟨max location.1.len n, fun l hl => ?_⟩
      rcases List.mem_cons.1 hl with rfl | hl
      · exact le_max_left _ _
      · exact (hn l hl).trans (le_max_right _ _)
  refine ⟨n + 2, Nat.le_add_left 2 n, fun fuel hfuel location hlocation => ⟨hlen location hlocation, ?_⟩⟩
  have hle := hn location hlocation
  omega

end Search

/-- **What a search leaves**, whatever is refused: success and the manifests of the places in order, or no file at all
and the error, if something was refused.  It ends if the array of the list is granted. -/
theorem loaderGetDataFiles_ends (search : ManifestSearch)
    (hlen : ∀ location ∈ search.locations, location.1.len < 2 ^ 32) :
    ∃ bound, ∀ fuel, bound ≤ fuel → ∀ requests : SearchRequests,
      (∀ res outFiles, loaderGetDataFiles fuel search requests = some (res, outFiles) →
        res = .success ∧ outFiles.strings = search.manifests ∨
          res = .errorOutOfHostMemory ∧ outFiles = .zero ∧ ¬ requests.Granted) ∧
      ((∀ i j k, (requests.files i j k).array) → (loaderGetDataFiles fuel search requests).isSome) := by
  obtain ⟨bound, htwo, hfits⟩ := exists_fits hlen
  refine ⟨bound, fun fuel hbound requests => ?_⟩
  have hfuel := htwo.trans hbound
  unfold loaderGetDataFiles readDataFilesInSearchPaths
  obtain ⟨searchPaths, hplaces, hstrings⟩ | ⟨hplaces, hrefused⟩ :=
    readSearchPaths_ends (hfits fuel hbound) hfuel requests
  · rw [hplaces, Option.bind_some]
    dsimp only
    rw [hstrings]
    have hplace : ∀ place ∈ search.places, IsPlace place := fun place hmem => isPlace_of_mem_places hmem
    refine ⟨fun res outFiles hrun => ?_, ?_⟩
    · obtain ⟨⟨res₁, active, outFiles₁⟩, hread, heq⟩ := Option.map_eq_some_iff.1 hrun
      obtain ⟨⟨res₂, outFiles₂⟩, hadd, heq'⟩ := Option.map_eq_some_iff.1 hread
      cases heq'
      obtain ⟨rfl, hout⟩ := Prod.mk.inj heq
      rcases addDataFiles_ends hplace hfuel StringList.wellFormed_zero hadd with ⟨rfl, hfiles⟩ | ⟨rfl, i, j, k, hijk⟩
      · rw [if_neg (not_not_intro rfl)] at hout
        exact .inl ⟨rfl, hout ▸ hfiles⟩
      · rw [if_pos (show VkResult.errorOutOfHostMemory ≠ .success by decide)] at hout
        exact .inr ⟨rfl, hout.symm, fun h => hijk (h.files i j k)⟩
    · intro harray
      rw [Option.isSome_map, Option.isSome_map]
      refine isSome_addDataFiles hplace hfuel (fun i j k name outFiles hl => ?_) StringList.wellFormed_zero
      obtain ⟨res, outFiles', hadd, hends⟩ := addIfManifestFile_ends name (requests.files i j k) hl
      exact ⟨res, outFiles', hadd, hends.elim (fun h => h.2.1) fun h => h.2.2 (harray i j k)⟩
  · rw [hplaces, Option.bind_some]
    refine ⟨fun res outFiles hrun => ?_, fun _ => rfl⟩
    obtain ⟨rfl, rfl⟩ := Prod.mk.inj (Option.some.inj hrun)
    exact .inr ⟨rfl, rfl, fun h => hrefused h.toPlacesGranted⟩

/-- A search for two files that a variable names. -/
def driverFilesSearch : ManifestSearch where
  manifestType := .manifestDriver
  pathOverrides := []
  settings := .zero
  getenv name := if name = "VK_DRIVER_FILES" then some ⟨"/a.json:/b.json".toList, by decide⟩ else none
  fallbackConfigDirs := ⟨"/etc/xdg".toList, by decide⟩
  fallbackDataDirs := ⟨"/usr/local/share:/usr/share".toList, by decide⟩
  sysconfdir := ⟨"/etc".toList, by decide⟩
  extrasysconfdir := none
  fs := ⟨fun _ => true, fun _ => none⟩

/-- Two files. -/
theorem loaderGetDataFiles_ends_driverFiles :
    ∃ bound, ∀ fuel, bound ≤ fuel → ∀ requests : SearchRequests,
      (∀ res outFiles, loaderGetDataFiles fuel driverFilesSearch requests = some (res, outFiles) →
        res = .success ∧ outFiles.strings = driverFilesSearch.manifests ∨
          res = .errorOutOfHostMemory ∧ outFiles = .zero ∧ ¬ requests.Granted) ∧
      ((∀ i j k, (requests.files i j k).array) → (loaderGetDataFiles fuel driverFilesSearch requests).isSome) :=
  loaderGetDataFiles_ends driverFilesSearch (by decide)

end VulkanLoader
