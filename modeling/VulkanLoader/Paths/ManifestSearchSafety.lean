import VulkanLoader.Paths.ManifestSearch

/-!
# Searches that write to an array that is not there

Where the array of the list of files is refused, the list says nevertheless that it has room, and a file that was named
itself does not end the search.  The next file that is found is then written through a null pointer.
-/

namespace VulkanLoader

open VulkanLoader.Lib

/-- The places after one that failed lead to a manifest before a directory that can be opened ends the search. -/
def ReachesManifest (fs : FileSystem) (places : List String) : Prop :=
  ∃ between place after, places = between ++ place :: after ∧
    (∀ p ∈ between, manifestsOf fs p = [] ∧ (isJson p ∨ fs.readdir p = none)) ∧ manifestsOf fs place ≠ []

/-- The first manifest is one that was named itself, and the search reaches another one after it. -/
def TrapsSearch (fs : FileSystem) (places : List String) : Prop :=
  ∃ before file after, places = before ++ file :: after ∧ (∀ p ∈ before, manifestsOf fs p = []) ∧ isJson file ∧
    manifestsOf fs file ≠ [] ∧ ReachesManifest fs after

section Search

variable {fs : FileSystem} {fuel : ℕ} {place : String} {places : List String} {outFiles : StringList}
  {vkResult : VkResult} {requests : ℕ → InsertionRequests}

/-! ### Places without a manifest -/

theorem addDirectoryEntries_of_nil {names : List String} (hplace : IsPlace place) (hfuel : 2 ≤ fuel)
    (hnil : (names.map (manifestPath fs place)).filter isJson = []) (requests : ℕ → InsertionRequests)
    (outFiles : StringList) :
    addDirectoryEntries fs fuel place requests names outFiles = some (.success, outFiles) := by
  induction names generalizing requests with
  | nil => rfl
  | cons name names ih =>
    have hjson : ¬ isJson (manifestPath fs place name) := by
      intro h
      rw [List.map_cons, List.filter_cons_of_pos h] at hnil
      cases hnil
    rw [List.map_cons, List.filter_cons_of_neg hjson] at hnil
    unfold addDirectoryEntries addIfManifestFile
    simp only [loaderGetFullpath_eq name hplace.1 hplace.2 hfuel, if_neg hjson, Option.bind_eq_bind, Option.bind_some]
    exact ih hnil _

/-- A place without a manifest leaves the list alone; a directory notices that the memory ran out before. -/
theorem addCurFile_of_nil (hplace : IsPlace place) (hfuel : 2 ≤ fuel) (hnil : manifestsOf fs place = [])
    (requests : ℕ → InsertionRequests) (vkResult : VkResult) (outFiles : StringList) :
    addCurFile fs fuel requests place vkResult outFiles =
      some (if ¬ isJson place ∧ fs.readdir place ≠ none ∧ vkResult ≠ .success then .out else .goOn, vkResult,
        outFiles) := by
  unfold manifestsOf at hnil
  unfold addCurFile
  by_cases hjson : isJson place
  · rw [if_pos hjson] at hnil ⊢
    have hturn : (if ¬ isJson place ∧ fs.readdir place ≠ none ∧ vkResult ≠ .success then SearchTurn.out else .goOn) =
        .goOn := if_neg fun h => h.1 hjson
    rw [hturn]
    by_cases hlong : place.toList.length + 1 > 2048
    · rw [if_pos hlong]
    · rw [if_neg hlong] at hnil ⊢
      have hpath : ¬ isJson (manifestPath fs place place) := by
        intro h
        rw [List.filter_cons_of_pos h] at hnil
        cases hnil
      unfold addIfManifestFile
      simp only [loaderGetFullpath_eq place hplace.1 hplace.2 hfuel, if_neg hpath, Option.bind_eq_bind, Option.bind_some]
      exact if_pos (.inl trivial)
  · rw [if_neg hjson] at hnil ⊢
    rcases hnames : fs.readdir place with _ | names
    · rw [if_neg fun h => h.2.1 rfl]
    · rw [hnames, Option.getD_some] at hnil
      simp only [addDirectoryEntries_of_nil hplace hfuel hnil, Option.bind_eq_bind, Option.bind_some, if_true]
      by_cases hres : vkResult = .success
      · rw [if_neg (not_not_intro hres), if_neg fun h => h.2.2 hres]
      · rw [if_pos hres, if_pos ⟨hjson, Option.some_ne_none _, hres⟩]

/-! ### A list without its array -/

/-- A list that believes to have an array. -/
def StringList.trap : StringList := ⟨none, 32⟩

theorem addIfManifestFile_trap {name : String} {req : InsertionRequests} (hjson : isJson name) (hcopy : req.copy) :
    addIfManifestFile req name .trap = none := by
  unfold addIfManifestFile copyStrToStringList
  rw [if_pos hjson, if_pos hcopy]
  rfl

theorem addDirectoryEntries_trap {names : List String} (hplace : IsPlace place) (hfuel : 2 ≤ fuel)
    (hcopy : ∀ i, (requests i).copy) (hne : (names.map (manifestPath fs place)).filter isJson ≠ []) :
    addDirectoryEntries fs fuel place requests names .trap = none := by
  induction names generalizing requests with
  | nil => exact absurd rfl hne
  | cons name names ih =>
    unfold addDirectoryEntries
    rw [loaderGetFullpath_eq name hplace.1 hplace.2 hfuel, Option.bind_eq_bind, Option.bind_some]
    by_cases hjson : isJson (manifestPath fs place name)
    · rw [addIfManifestFile_trap hjson (hcopy 0)]
      rfl
    · rw [List.map_cons, List.filter_cons_of_neg hjson] at hne
      unfold addIfManifestFile
      rw [if_neg hjson]
      exact ih (fun i => hcopy (i + 1)) hne

/-- **A manifest is written through the null pointer.** -/
theorem addCurFile_trap (hplace : IsPlace place) (hfuel : 2 ≤ fuel) (hcopy : ∀ i, (requests i).copy)
    (hne : manifestsOf fs place ≠ []) (vkResult : VkResult) :
    addCurFile fs fuel requests place vkResult .trap = none := by
  unfold manifestsOf at hne
  unfold addCurFile
  by_cases hjson : isJson place
  · rw [if_pos hjson] at hne ⊢
    by_cases hlong : place.toList.length + 1 > 2048
    · rw [if_pos hlong] at hne
      exact absurd rfl hne
    · rw [if_neg hlong] at hne ⊢
      have hpath : isJson (manifestPath fs place place) := by
        by_contra h
        rw [List.filter_cons_of_neg h] at hne
        exact hne rfl
      rw [loaderGetFullpath_eq place hplace.1 hplace.2 hfuel, Option.bind_eq_bind, Option.bind_some,
        addIfManifestFile_trap hpath (hcopy 0)]
      rfl
  · rw [if_neg hjson] at hne ⊢
    rcases hnames : fs.readdir place with _ | names
    · rw [hnames] at hne
      exact absurd rfl hne
    · rw [hnames, Option.getD_some] at hne
      dsimp only
      rw [addDirectoryEntries_trap hplace hfuel hcopy hne]
      rfl

/-- The one file whose array is refused leaves the list without it, and the search goes on. -/
theorem addCurFile_refused_array (hplace : IsPlace place) (hfuel : 2 ≤ fuel) (hjson : isJson place)
    (hne : manifestsOf fs place ≠ []) (hrequests : requests 0 = ⟨true, false⟩) (vkResult : VkResult) :
    addCurFile fs fuel requests place vkResult .zero = some (.nextPlace, .errorOutOfHostMemory, .trap) := by
  unfold manifestsOf at hne
  unfold addCurFile
  rw [if_pos hjson] at hne ⊢
  by_cases hlong : place.toList.length + 1 > 2048
  · rw [if_pos hlong] at hne
    exact absurd rfl hne
  rw [if_neg hlong] at hne ⊢
  have hpath : isJson (manifestPath fs place place) := by
    by_contra h
    rw [List.filter_cons_of_neg h] at hne
    exact hne rfl
  unfold addIfManifestFile
  rw [loaderGetFullpath_eq place hplace.1 hplace.2 hfuel, Option.bind_eq_bind, Option.bind_some, if_pos hpath, hrequests]
  rfl

end Search

/-! ### Runs through the places -/

section Places

variable {fs : FileSystem} {fuel : ℕ} {before places : List String} {outFiles : StringList} {vkResult : VkResult}
  {requests : ℕ → ℕ → ℕ → InsertionRequests}

/-- Places without a manifest are passed, directories as long as there is memory. -/
theorem addDataFiles_of_nil (hbefore : ∀ p ∈ before, IsPlace p) (hfuel : 2 ≤ fuel)
    (hnil : ∀ p ∈ before, manifestsOf fs p = [])
    (hpass : vkResult = .success ∨ ∀ p ∈ before, isJson p ∨ fs.readdir p = none) :
    addDataFiles fs fuel requests (before ++ places) vkResult outFiles =
      addDataFiles fs fuel (fun i => requests (i + before.length)) places vkResult outFiles := by
  induction before generalizing requests with
  | nil => rfl
  | cons p before ih =>
    have hturn : (if ¬ isJson p ∧ fs.readdir p ≠ none ∧ vkResult ≠ .success then SearchTurn.out else .goOn) = .goOn := by
      refine if_neg ?_
      rintro ⟨hjson, hdirectory, hres⟩
      exact (hpass.resolve_left hres p List.mem_cons_self).elim hjson hdirectory
    rw [List.cons_append, addDataFiles_cons (hbefore p List.mem_cons_self) hfuel,
      addCurFile_of_nil (hbefore p List.mem_cons_self) hfuel (hnil p List.mem_cons_self), hturn, Option.bind_some]
    refine (ih (fun q hq => hbefore q (List.mem_cons_of_mem _ hq)) (fun q hq => hnil q (List.mem_cons_of_mem _ hq))
      (hpass.imp_right fun h q hq => h q (List.mem_cons_of_mem _ hq))).trans ?_
    congr 1

/-- A search that has run out of memory and writes through the null pointer has reached another manifest. -/
theorem reachesManifest_of_none (hplaces : ∀ p ∈ places, IsPlace p) (hfuel : 2 ≤ fuel)
    (h : addDataFiles fs fuel requests places .errorOutOfHostMemory outFiles = none) : ReachesManifest fs places := by
  induction places generalizing requests with
  | nil => cases h
  | cons p places ih =>
    by_cases hnil : manifestsOf fs p = []
    · have hfirst := hplaces p List.mem_cons_self
      rw [addDataFiles_cons hfirst hfuel, addCurFile_of_nil hfirst hfuel hnil, Option.bind_some] at h
      by_cases hends : ¬ isJson p ∧ fs.readdir p ≠ none ∧ VkResult.errorOutOfHostMemory ≠ .success
      · rw [if_pos hends] at h
        cases h
      · rw [if_neg hends] at h
        obtain ⟨between, place, after, rfl, hbetween, hne⟩ := ih (fun q hq => hplaces q (List.mem_cons_of_mem _ hq)) h
        refine ⟨p :: between, place, after, rfl, List.forall_mem_cons.2 ⟨⟨hnil, ?_⟩, hbetween⟩, hne⟩
        by_contra hopen
        rw [not_or] at hopen
        exact hends ⟨hopen.1, hopen.2, by decide⟩
    · exact ⟨[], p, places, rfl, nofun, hnil⟩

/-- A list that has an array is never written to without one. -/
theorem addIfManifestFile_list (name : String) (req : InsertionRequests) (hl : outFiles.WellFormed)
    (harray : outFiles.strings ≠ []) : ∃ res outFiles', addIfManifestFile req name outFiles = some (res, outFiles') ∧
      outFiles'.WellFormed ∧ outFiles'.strings ≠ [] := by
  obtain ⟨contents, hlist⟩ : ∃ contents, outFiles.list = some contents := by
    refine Option.ne_none_iff_exists'.1 fun hnone => harray ?_
    rw [StringList.strings, hnone, Option.getD_none]
  have hcount : outFiles.allocatedCount ≠ 0 := by
    intro h
    have hfits := hl.fits
    exact harray (List.length_eq_zero_iff.1 (by omega))
  obtain ⟨res, outFiles', hadd, hends⟩ := addIfManifestFile_ends name req hl
  refine ⟨res, outFiles', hadd, ?_⟩
  rcases hends with ⟨-, hl', hstrings⟩ | ⟨rfl, -, -⟩
  · exact ⟨hl', hstrings ▸ List.append_ne_nil_of_left_ne_nil harray _⟩
  -- what fails leaves the list as it was
  · suffices hsame : outFiles' = outFiles from hsame ▸ ⟨hl, harray⟩
    unfold addIfManifestFile copyStrToStringList appendStrToStringList increaseStrCapacityByAtLeastOne at hadd
    rw [if_neg hcount] at hadd
    split_ifs at hadd
    · simp [hlist] at hadd
    · exact (Prod.mk.inj (Option.some.inj hadd)).2.symm
    · simp [hlist] at hadd
    · exact (Prod.mk.inj (Option.some.inj hadd)).2.symm
    · cases hadd

/-- **Where the search writes through the null pointer, it was trapped.** -/
theorem trapsSearch_of_none (hplaces : ∀ p ∈ places, IsPlace p) (hfuel : 2 ≤ fuel)
    (h : addDataFiles fs fuel requests places .success .zero = none) : TrapsSearch fs places := by
  induction places generalizing requests with
  | nil => cases h
  | cons p places ih =>
    have hfirst := hplaces p List.mem_cons_self
    have hrest := fun q hq => hplaces q (List.mem_cons_of_mem p hq)
    by_cases hnil : manifestsOf fs p = []
    · rw [addDataFiles_cons hfirst hfuel, addCurFile_of_nil hfirst hfuel hnil, Option.bind_some,
        if_neg fun h => h.2.2 rfl] at h
      obtain ⟨before, file, after, rfl, hbefore, hfile⟩ := ih hrest h
      exact ⟨p :: before, file, after, rfl, List.forall_mem_cons.2 ⟨hnil, hbefore⟩, hfile⟩
    obtain ⟨turn, res, outFiles', hturn, hends⟩ :=
      @addCurFile_ends fs _ _ _ hfirst.1 hfirst.2 hfuel (requests 0 0) StringList.wellFormed_zero
    rw [addDataFiles_cons hfirst hfuel, hturn, Option.bind_some] at h
    rcases hends with ⟨rfl, rfl, hl, hstrings⟩ | ⟨rfl, -, -, hout⟩
    · have hsome : (addDataFiles fs fuel (fun i => requests (i + 1)) places .success outFiles').isSome :=
        isSome_addDataFiles (P := fun outFiles => outFiles.WellFormed ∧ outFiles.strings ≠ []) hrest hfuel
          (fun i j k name outFiles hl => addIfManifestFile_list name _ hl.1 hl.2) ⟨hl, hstrings ▸ hnil⟩
      dsimp only at h
      rw [h] at hsome
      cases hsome
    · by_cases hjson : isJson p
      · refine ⟨[], p, places, rfl, nofun, hjson, hnil, ?_⟩
        cases turn
        · exact reachesManifest_of_none hrest hfuel h
        · exact reachesManifest_of_none hrest hfuel h
        · cases h
      · obtain rfl := hout hjson
        cases h

/-- The requests of a search that is refused the array at one place only. -/
def SearchRequests.refusing (n : ℕ) : SearchRequests :=
  ⟨true, true, fun _ => grantsAll, fun i _ _ => ⟨true, i ≠ n⟩⟩

theorem addDataFiles_of_trapsSearch (hplaces : ∀ p ∈ places, IsPlace p) (hfuel : 2 ≤ fuel)
    (htraps : TrapsSearch fs places) :
    ∃ n, addDataFiles fs fuel (SearchRequests.refusing n).files places .success .zero = none := by
  obtain ⟨before, file, _, rfl, hbefore, hjson, hfile, between, place, after, rfl, hbetween, hne⟩ := htraps
  have hbefore' : ∀ p ∈ before, IsPlace p := fun p hp => hplaces p (List.mem_append_left _ hp)
  have hfile' : IsPlace file := hplaces file (by simp)
  have hbetween' : ∀ p ∈ between, IsPlace p := fun p hp => hplaces p (by simp [hp])
  have hplace' : IsPlace place := hplaces place (by simp)
  refine ⟨before.length, ?_⟩
  rw [addDataFiles_of_nil hbefore' hfuel hbefore (.inl rfl), addDataFiles_cons hfile' hfuel,
    addCurFile_refused_array hfile' hfuel hjson hfile (by simp [SearchRequests.refusing]), Option.bind_some]
  dsimp only
  rw [addDataFiles_of_nil hbetween' hfuel (fun p hp => (hbetween p hp).1) (.inr fun p hp => (hbetween p hp).2),
    addDataFiles_cons hplace' hfuel, addCurFile_trap hplace' hfuel (fun _ => rfl) hne]
  rfl

end Places

/-- **A search can be made to write to an array that is not there**, by refusing it memory, exactly if the first manifest
is one that was named itself and another one is reached after it. -/
theorem loaderGetDataFiles_eq_none_iff (search : ManifestSearch)
    (hlen : ∀ location ∈ search.locations, location.1.len < 2 ^ 32) :
    ∃ bound, ∀ fuel, bound ≤ fuel →
      ((∃ requests, loaderGetDataFiles fuel search requests = none) ↔ TrapsSearch search.fs search.places) := by
  obtain ⟨bound, htwo, hfits⟩ := exists_fits hlen
  refine ⟨bound, fun fuel hbound => ?_⟩
  have hfuel := htwo.trans hbound
  have hplaces : ∀ place ∈ search.places, IsPlace place := fun place hmem => isPlace_of_mem_places hmem
  constructor
  · rintro ⟨requests, hnone⟩
    unfold loaderGetDataFiles readDataFilesInSearchPaths at hnone
    rw [Option.map_eq_none_iff] at hnone
    obtain ⟨searchPaths, hread, hstrings⟩ | ⟨hread, -⟩ := readSearchPaths_ends (hfits fuel hbound) hfuel requests
    · rw [hread, Option.bind_some] at hnone
      dsimp only at hnone
      rw [hstrings, Option.map_eq_none_iff] at hnone
      exact trapsSearch_of_none hplaces hfuel hnone
    · rw [hread, Option.bind_some] at hnone
      cases hnone
  · intro htraps
    obtain ⟨n, hnone⟩ := addDataFiles_of_trapsSearch hplaces hfuel htraps
    have hgranted : (SearchRequests.refusing n).PlacesGranted := ⟨rfl, rfl, fun _ _ => ⟨rfl, rfl⟩⟩
    refine ⟨.refusing n, ?_⟩
    unfold loaderGetDataFiles readDataFilesInSearchPaths
    obtain ⟨searchPaths, hread, hstrings⟩ | ⟨-, hrefused⟩ :=
      readSearchPaths_ends (hfits fuel hbound) hfuel (SearchRequests.refusing n)
    · rw [hread, Option.bind_some]
      dsimp only
      rw [hstrings, hnone]
      rfl
    · exact absurd hgranted hrefused

/-- With two files it can. -/
theorem loaderGetDataFiles_eq_none_driverFiles :
    ∃ bound, ∀ fuel, bound ≤ fuel → ∃ requests, loaderGetDataFiles fuel driverFilesSearch requests = none := by
  obtain ⟨bound, hbound⟩ := loaderGetDataFiles_eq_none_iff driverFilesSearch (by decide)
  refine ⟨bound, fun fuel hfuel => (hbound fuel hfuel).2 ⟨[], "/a.json", ["/b.json"], by decide, nofun, by decide,
    by decide, [], "/b.json", [], rfl, nofun, by decide⟩⟩

end VulkanLoader
