import VulkanLoader.PhysDev.UnloadSafety

/-!
# What the unloading leaves of the drivers and of the preloaded ones

Each driver that is unloaded takes the entry of its library out of `preloaded_icds`: the last entry is moved to its
place, and the count goes down by one, but not if the place is the first one.  From then on the list has an empty entry.
-/

namespace VulkanLoader

open Lib

/-- `preloaded_icds`: its array and its count. -/
abbrev PreloadedIcds := List ScannedLibrary × ℕ

/-- The entries below the count. -/
def PreloadedIcds.entries (l : PreloadedIcds) : List ScannedLibrary := l.1.take l.2

/-- The preloaded drivers. -/
def Drivers.preloaded (s : Drivers) : PreloadedIcds := (s.preloadedIcds, s.preloadedCount)

/-- `Drivers.unloadPreloaded`, on the list alone. -/
def removePreloaded (l : PreloadedIcds) (libName : Option String) : PreloadedIcds :=
  match l.entries.findIdx? fun p => p.libName.isSome && p.libName == libName with
  | none => l
  | some i =>
    let list := l.1.set i ⟨none, none⟩
    (if i < l.2 - 1 then (list.set i (list.getD (l.2 - 1) ⟨none, none⟩)).set (l.2 - 1) ⟨none, none⟩ else list,
      if i > 0 then l.2 - 1 else l.2)

theorem preloaded_unloadPreloaded (s : Drivers) (libName : Option String) :
    (s.unloadPreloaded libName).preloaded = removePreloaded s.preloaded libName := by
  unfold Drivers.unloadPreloaded removePreloaded PreloadedIcds.entries
  dsimp only [Drivers.preloaded]
  generalize (s.preloadedIcds.take s.preloadedCount).findIdx? _ = found
  rcases found with _ | i
  · rfl
  · rfl

/-- The library of the driver. -/
def Drivers.libName (s : Drivers) (t : DeviceIcdTerm) : Option String := s.scannedList[t.scannedIcd]?.bind (·.libName)

/-- The drivers that the unloading removes. -/
def Drivers.withoutDevices (s : Drivers) : List DeviceIcdTerm := s.icdTerms.filter (·.physicalDeviceCount = 0)

/-- The names of their libraries. -/
def Drivers.removedNames (s : Drivers) : List (Option String) := s.withoutDevices.map s.libName

/-- The entries have names of their own, and room in the array. -/
structure PreloadedIcds.Distinct (l : PreloadedIcds) : Prop where
  room : l.2 ≤ l.1.length
  named : ∀ p ∈ l.entries, p.libName.isSome
  nodup : (l.entries.map (·.libName)).Nodup

/-- **The drivers and their libraries**: each driver has its own entry of the scanned list and its own library, and so
have the preloaded drivers. -/
structure Drivers.OwnLibraries (s : Drivers) : Prop where
  wellFormed : s.WellFormed
  named : ∀ t ∈ s.icdTerms, (s.libName t).isSome
  nodup : (s.icdTerms.map s.libName).Nodup
  preloaded : s.preloaded.Distinct

/-- **The drivers are partitioned**: those with devices stay, and are counted; the instance of each other one is
destroyed once; the preloaded drivers are those of before but for the removed ones. -/
structure PartitionsDrivers (s s' : Drivers) : Prop where
  icdTerms : s'.icdTerms = s.icdTerms.filter (·.physicalDeviceCount ≠ 0)
  icdTermsCount : s'.icdTermsCount = s'.icdTerms.length
  destroyed : ∃ log, s'.log = s.log ++ log ∧
    (∀ t ∈ s.withoutDevices, t.icdInstance ≠ nullHandle →
      log.count (.destroyInstance t.scannedIcd t.icdInstance) = 1) ∧
    ∀ icd icdInstance, .destroyInstance icd icdInstance ∈ log →
      ∃ t ∈ s.withoutDevices, t.scannedIcd = icd ∧ t.icdInstance = icdInstance
  preloaded : s'.preloaded.entries.Perm (s.preloaded.entries.filter fun p => p.libName ∉ s.removedNames)
  preloadedCount : s'.preloadedCount = (s.preloaded.entries.filter fun p => p.libName ∉ s.removedNames).length

/-- The library of the first preloaded driver is not among those that are unloaded. -/
def Drivers.KeepsFirstPreloaded (s : Drivers) : Prop :=
  ∀ p, s.preloaded.entries.head? = some p → p.libName ∉ s.removedNames

/-! ### One removal -/

section Removal

variable {l : PreloadedIcds} {libName : Option String}

/-- An entry below the count is empty. -/
def PreloadedIcds.HasEmpty (l : PreloadedIcds) : Prop := ∃ i < l.2, l.1[i]? = some ⟨none, none⟩

theorem length_entries (h : l.2 ≤ l.1.length) : l.entries.length = l.2 := by
  rw [PreloadedIcds.entries, List.length_take]
  omega

theorem entries_getElem? {i : ℕ} (hi : i < l.2) : l.entries[i]? = l.1[i]? := List.getElem?_take_of_lt hi

/-- The entries with the last one moved to place `i`, and without the last one. -/
theorem take_moved {α : Type*} {list : List α} {i n : ℕ} (hi : i < n) (hn : n < list.length) (e : α) :
    ((((list.set i e).set i ((list.set i e).getD n e)).set n e).take n).Perm ((list.take (n + 1)).eraseIdx i) := by
  have hlast : (list.set i e).getD n e = list[n] := by
    rw [List.getD_eq_getElem?_getD, List.getElem?_set_ne (by omega), List.getElem?_eq_getElem hn, Option.getD_some]
  have hmoved : (((list.set i e).set i list[n]).set n e).take n = (list.take n).set i list[n] := by
    rw [List.take_set_of_le le_rfl, List.set_set, List.take_set]
  have herase : (list.take (n + 1)).eraseIdx i = (list.take n).eraseIdx i ++ [list[n]] := by
    rw [List.take_succ_eq_append_getElem hn, List.eraseIdx_append_of_lt_length]
    rw [List.length_take]
    omega
  rw [hlast, hmoved, herase]
  refine (List.set_perm_cons_eraseIdx ?_ _).trans (List.perm_append_singleton _ _).symm
  rw [List.length_take]
  omega

/-- What the search finds. -/
theorem findIdx?_libName {i : ℕ}
    (h : l.entries.findIdx? (fun p => p.libName.isSome && p.libName == libName) = some i) :
    ∃ hi : i < l.entries.length, l.entries[i].libName.isSome ∧ l.entries[i].libName = libName := by
  obtain ⟨hi, hfound, -⟩ := List.findIdx?_eq_some_iff_getElem.1 h
  exact ⟨hi, by simpa using hfound⟩

/-- A name that no entry has. -/
theorem removePreloaded_of_not_mem (h : libName ∉ l.entries.map (·.libName)) : removePreloaded l libName = l := by
  have hfind : l.entries.findIdx? (fun p => p.libName.isSome && p.libName == libName) = none := by
    rw [List.findIdx?_eq_none_iff]
    intro p hp
    have hne : p.libName ≠ libName := fun heq => h (heq ▸ List.mem_map_of_mem hp)
    simp [hne]
  rw [removePreloaded, hfind]

/-- The entries with another name than the one at a place. -/
theorem eraseIdx_perm_filter {entries : List ScannedLibrary} {i : ℕ} (hi : i < entries.length)
    (hnodup : (entries.map (·.libName)).Nodup) :
    (entries.eraseIdx i).Perm (entries.filter fun p => p.libName ≠ entries[i].libName) := by
  have hperm := List.getElem_cons_eraseIdx_perm hi
  have hnew := (List.nodup_cons.1 (((hperm.map (·.libName)).nodup_iff).2 hnodup)).1
  have hfilter := hperm.filter fun p => decide (p.libName ≠ entries[i].libName)
  rw [List.filter_cons_of_neg (by simp), List.filter_eq_self.2 fun p hp => ?_] at hfilter
  · exact hfilter
  · exact decide_eq_true fun heq => hnew (List.mem_map.2 ⟨p, hp, heq⟩)

theorem findIdx?_isSome (h : l.Distinct) (hmem : libName ∈ l.entries.map (·.libName)) :
    ∃ i, l.entries.findIdx? (fun p => p.libName.isSome && p.libName == libName) = some i := by
  refine Option.ne_none_iff_exists'.1 fun hnone => ?_
  obtain ⟨p, hp, rfl⟩ := List.mem_map.1 hmem
  have hp' := List.findIdx?_eq_none_iff.1 hnone p hp
  simp [h.named p hp] at hp'

/-- **A removal behind the first entry** takes out the entry of the name. -/
theorem removePreloaded_of_tail (h : l.Distinct) (hmem : libName ∈ l.entries.map (·.libName))
    (hfirst : ∀ p, l.entries.head? = some p → p.libName ≠ libName) :
    (removePreloaded l libName).Distinct ∧
      (removePreloaded l libName).entries.Perm (l.entries.filter fun p => p.libName ≠ libName) ∧
      (removePreloaded l libName).entries.head? = l.entries.head? := by
  have hroom := h.room
  have hlen := length_entries hroom
  obtain ⟨i, hfind⟩ := findIdx?_isSome h hmem
  obtain ⟨hi, -, hname⟩ := findIdx?_libName hfind
  have hpos : 0 < i := by
    refine Nat.pos_of_ne_zero fun hzero => hfirst _ ?_ hname
    subst hzero
    rw [List.head?_eq_getElem?, List.getElem?_eq_getElem hi]
  have hcount : l.2 - 1 + 1 = l.2 := by omega
  have hperm : (removePreloaded l libName).entries.Perm (l.entries.eraseIdx i) := by
    unfold removePreloaded PreloadedIcds.entries at *
    simp only [hfind, if_pos hpos]
    by_cases hlast : i < l.2 - 1
    · rw [if_pos hlast]
      have hmoved := @take_moved _ l.1 i (l.2 - 1) hlast (by omega) ⟨none, none⟩
      rwa [hcount] at hmoved
    · have hi' : i = l.2 - 1 := by omega
      have hdrop : (l.1.take (l.2 - 1 + 1)).drop (l.2 - 1 + 1) = [] :=
        List.drop_eq_nil_of_le (List.length_take_le _ _)
      rw [if_neg hlast, hi', List.take_set_of_le le_rfl, ← hcount, Nat.add_sub_cancel,
        List.eraseIdx_eq_take_drop_succ, hdrop, List.append_nil, List.take_take, Nat.min_eq_left (Nat.le_succ _)]
  have hfilter : (removePreloaded l libName).entries.Perm (l.entries.filter fun p => p.libName ≠ libName) := by
    have herase := eraseIdx_perm_filter hi h.nodup
    rw [hname] at herase
    exact hperm.trans herase
  refine ⟨⟨?_, fun p hp => h.named p (List.mem_filter.1 (hfilter.mem_iff.1 hp)).1, ?_⟩, hfilter, ?_⟩
  · unfold removePreloaded
    simp only [hfind, if_pos hpos]
    split_ifs
    · simp only [List.length_set]
      omega
    · simp only [List.length_set]
      omega
  · exact ((hfilter.map (·.libName)).nodup_iff).2 (h.nodup.sublist (List.filter_sublist.map _))
  · have hcount' : (removePreloaded l libName).2 = l.2 - 1 := by
      unfold removePreloaded
      simp only [hfind, if_pos hpos]
    rw [List.head?_eq_getElem?, List.head?_eq_getElem?, entries_getElem? (by omega), entries_getElem? (by omega)]
    unfold removePreloaded
    simp only [hfind]
    split_ifs
    · rw [List.getElem?_set_ne (by omega), List.getElem?_set_ne (by omega), List.getElem?_set_ne (by omega)]
    · rw [List.getElem?_set_ne (by omega)]

/-- **A removal of the first entry** leaves an empty entry. -/
theorem removePreloaded_of_head (h : l.Distinct) {p : ScannedLibrary} (hp : l.entries.head? = some p)
    (hname : p.libName = libName) : (removePreloaded l libName).HasEmpty := by
  have hroom := h.room
  have hlen := length_entries hroom
  obtain ⟨rest, hentries⟩ := List.head?_eq_some_iff.1 hp
  have hfind : l.entries.findIdx? (fun p => p.libName.isSome && p.libName == libName) = some 0 := by
    have hsome : libName.isSome := hname ▸ h.named p (by rw [hentries]; exact List.mem_cons_self)
    rw [hentries, List.findIdx?_cons, if_pos (by simp [hsome, hname])]
  have hpos : 0 < l.2 := by
    rw [hentries, List.length_cons] at hlen
    omega
  refine ⟨l.2 - 1, ?_, ?_⟩
  · simp only [removePreloaded, hfind, Nat.lt_irrefl, if_false, gt_iff_lt]
    omega
  · simp only [removePreloaded, hfind]
    split_ifs
    · rw [List.getElem?_set_self]
      simp only [List.length_set]
      omega
    · have hlast : l.2 - 1 = 0 := by omega
      rw [hlast, List.getElem?_set_self (by omega)]

/-- An empty entry stays. -/
theorem removePreloaded_hasEmpty (h : l.HasEmpty) : (removePreloaded l libName).HasEmpty := by
  obtain ⟨k, hk, hempty⟩ := h
  rcases hfind : l.entries.findIdx? (fun p => p.libName.isSome && p.libName == libName) with _ | i
  · rw [removePreloaded, hfind]
    exact ⟨k, hk, hempty⟩
  obtain ⟨hi, hsome, -⟩ := findIdx?_libName hfind
  have hi' : i < l.2 ∧ i < l.1.length := by
    rw [PreloadedIcds.entries, List.length_take] at hi
    omega
  have hne : i ≠ k := by
    rintro rfl
    rw [← entries_getElem? hk, List.getElem?_eq_getElem hi] at hempty
    rw [Option.some.inj hempty] at hsome
    cases hsome
  have hcount : l.2 - 1 ≤ (removePreloaded l libName).2 := by
    simp only [removePreloaded, hfind]
    split_ifs <;> omega
  by_cases hmoves : i < l.2 - 1
  · by_cases hlast : k = l.2 - 1
    · -- the empty entry is moved
      refine ⟨i, by omega, ?_⟩
      simp only [removePreloaded, hfind, if_pos hmoves]
      rw [List.getElem?_set_ne (by omega), List.getElem?_set_self (by rw [List.length_set]; omega),
        List.getD_eq_getElem?_getD, List.getElem?_set_ne (by omega), ← hlast, hempty, Option.getD_some]
    · refine ⟨k, by omega, ?_⟩
      simp only [removePreloaded, hfind, if_pos hmoves]
      rw [List.getElem?_set_ne (by omega), List.getElem?_set_ne hne, List.getElem?_set_ne hne, hempty]
  · refine ⟨k, by omega, ?_⟩
    simp only [removePreloaded, hfind, if_neg hmoves]
    rw [List.getElem?_set_ne hne, hempty]

/-- **The removals**: none of the first entry leaves the entries with other names, and one of it an empty entry. -/
theorem foldl_removePreloaded (names : List (Option String)) (h : l.Distinct) :
    ((∀ p, l.entries.head? = some p → p.libName ∉ names) →
      (names.foldl removePreloaded l).Distinct ∧
        (names.foldl removePreloaded l).entries.Perm (l.entries.filter fun p => p.libName ∉ names)) ∧
      ((∃ p, l.entries.head? = some p ∧ p.libName ∈ names) → (names.foldl removePreloaded l).HasEmpty) := by
  induction names generalizing l with
  | nil =>
    refine ⟨fun _ => ⟨h, ?_⟩, fun ⟨_, _, hp⟩ => absurd hp List.not_mem_nil⟩
    rw [List.filter_eq_self.2 fun p _ => by simp]
    exact .refl _
  | cons name names ih =>
    have hempty : ∀ (names : List (Option String)) (l : PreloadedIcds), l.HasEmpty →
        (names.foldl removePreloaded l).HasEmpty := by
      intro names
      induction names with
      | nil => exact fun _ hl => hl
      | cons name names ih => exact fun l hl => ih _ (removePreloaded_hasEmpty hl)
    rw [List.foldl_cons]
    by_cases hmem : name ∈ l.entries.map (·.libName)
    · by_cases hhead : ∃ p, l.entries.head? = some p ∧ p.libName = name
      · obtain ⟨p, hp, hname⟩ := hhead
        refine ⟨fun hfirst => absurd ?_ (hfirst p hp), fun _ => ?_⟩
        · rw [hname]
          exact List.mem_cons_self
        · exact hempty names _ (removePreloaded_of_head h hp hname)
      · have hfirst : ∀ p, l.entries.head? = some p → p.libName ≠ name := fun p hp heq => hhead ⟨p, hp, heq⟩
        obtain ⟨hdistinct, hperm, hsame⟩ := removePreloaded_of_tail h hmem hfirst
        obtain ⟨hkeeps, hleaves⟩ := ih hdistinct
        rw [hsame] at hkeeps hleaves
        constructor
        · intro hall
          obtain ⟨hd, hp⟩ := hkeeps fun p hp hin => hall p hp (List.mem_cons_of_mem _ hin)
          refine ⟨hd, hp.trans ?_⟩
          have hfilter := hperm.filter fun p => decide (p.libName ∉ names)
          rw [List.filter_filter] at hfilter
          refine hfilter.trans (List.Perm.of_eq (List.filter_congr fun p _ => ?_))
          by_cases hname : p.libName = name <;> simp [hname]
        · rintro ⟨p, hp, hin⟩
          exact hleaves ⟨p, hp, (List.mem_cons.1 hin).resolve_left (hfirst p hp)⟩
    · rw [removePreloaded_of_not_mem hmem]
      have hne : ∀ p ∈ l.entries, p.libName ≠ name := fun p hp heq => hmem (List.mem_map.2 ⟨p, hp, heq⟩)
      obtain ⟨hkeeps, hleaves⟩ := ih h
      constructor
      · intro hall
        obtain ⟨hd, hp⟩ := hkeeps fun p hp hin => hall p hp (List.mem_cons_of_mem _ hin)
        refine ⟨hd, hp.trans (List.Perm.of_eq (List.filter_congr fun p hp => ?_))⟩
        simp [hne p hp]
      · rintro ⟨p, hp, hin⟩
        exact hleaves ⟨p, hp, (List.mem_cons.1 hin).resolve_left (hne p (List.mem_of_mem_head? hp))⟩

end Removal

/-! ### The loop over the drivers -/

section Loop

variable {s : Drivers}

/-- What one driver that is unloaded takes out of the list. -/
theorem preloaded_unloadDriver {t : DeviceIcdTerm} (ht : t.scannedIcd < s.scannedList.length) :
    (s.unloadDriver t).preloaded = removePreloaded s.preloaded (s.libName t) := by
  obtain ⟨scanned, hscanned⟩ : ∃ scanned, s.scannedList[t.scannedIcd]? = some scanned :=
    ⟨_, List.getElem?_eq_getElem ht⟩
  unfold Drivers.unloadDriver Drivers.libName
  rw [hscanned]
  dsimp only [Option.bind_some]
  generalize hs₁ : (if t.icdInstance ≠ nullHandle then
      { s with log := s.log ++ [.destroyInstance t.scannedIcd t.icdInstance] } else s : Drivers) = s₁
  have hsame : s₁.preloaded = s.preloaded := by
    subst hs₁
    split_ifs <;> rfl
  rw [← hsame]
  exact preloaded_unloadPreloaded (s₁.loaderIcdDestroy t) scanned.libName

/-- The loop removes the libraries of the drivers without devices, in order. -/
theorem preloaded_unloadDrivers (ts : List DeviceIcdTerm) (hnodup : (ts.map (·.scannedIcd)).Nodup)
    (hscanned : ∀ t ∈ ts, t.scannedIcd < s.scannedList.length) :
    (unloadDrivers ts s).2.preloaded =
      ((ts.filter (·.physicalDeviceCount = 0)).map s.libName).foldl removePreloaded s.preloaded := by
  induction ts generalizing s with
  | nil => rfl
  | cons t ts ih =>
    obtain ⟨hnew, hnodup⟩ := List.nodup_cons.1 hnodup
    have htail := fun u hu => hscanned u (List.mem_cons_of_mem t hu)
    unfold unloadDrivers
    by_cases ht : t.physicalDeviceCount = 0
    · obtain ⟨hdestroys, -⟩ := unloadDriver_spec s t
      have hnames : ∀ u ∈ ts.filter (·.physicalDeviceCount = 0), (s.unloadDriver t).libName u = s.libName u := by
        intro u hu
        have hne : u.scannedIcd ≠ t.scannedIcd := fun heq =>
          hnew (List.mem_map.2 ⟨u, (List.mem_filter.1 hu).1, heq⟩)
        rw [Drivers.libName, Drivers.libName, hdestroys.scannedList _ hne]
      rw [if_pos ht, ih hnodup fun u hu => by rw [hdestroys.scannedLength]; exact htail u hu,
        List.map_congr_left hnames, List.filter_cons_of_pos (by simpa using ht), List.map_cons, List.foldl_cons,
        preloaded_unloadDriver (hscanned t List.mem_cons_self)]
    · rw [if_neg ht, List.filter_cons_of_neg (by simpa using ht)]
      exact ih hnodup htail

/-- What one driver that is unloaded adds to the log of destroyed instances. -/
theorem count_log_unloadDriver {t : DeviceIcdTerm} (ht : t.scannedIcd < s.scannedList.length) (icd : ℕ)
    (icdInstance : Handle) :
    (s.unloadDriver t).log.count (.destroyInstance icd icdInstance) = s.log.count (.destroyInstance icd icdInstance) +
      if t.scannedIcd = icd ∧ t.icdInstance = icdInstance ∧ t.icdInstance ≠ nullHandle then 1 else 0 := by
  obtain ⟨scanned, hscanned⟩ : ∃ scanned, s.scannedList[t.scannedIcd]? = some scanned :=
    ⟨_, List.getElem?_eq_getElem ht⟩
  have hpreloaded : ∀ (s : Drivers) (libName : Option String),
      (s.unloadPreloaded libName).log.count (.destroyInstance icd icdInstance) =
        s.log.count (.destroyInstance icd icdInstance) := by
    intro s libName
    unfold Drivers.unloadPreloaded
    split
    · rfl
    · simp [List.count_append, List.count_eq_zero]
  unfold Drivers.unloadDriver
  rw [hscanned]
  dsimp only
  rw [List.count_append, hpreloaded]
  have hclosed : ((loaderUnloadScannedIcd scanned).1.toList.map (.closeLibrary t.scannedIcd)).count
      (TearDown.destroyInstance icd icdInstance) = 0 := by simp [List.count_eq_zero]
  rw [hclosed]
  simp only [Drivers.loaderIcdDestroy, List.count_append, List.count_singleton]
  have hdevices : (t.logicalDeviceList.map (.freeDevice t.scannedIcd)).count
      (TearDown.destroyInstance icd icdInstance) = 0 := by simp [List.count_eq_zero]
  rw [hdevices]
  by_cases hnull : t.icdInstance = nullHandle
  · simp [hnull]
  · rw [if_pos hnull]
    simp only [List.count_append, List.count_singleton]
    by_cases hsame : t.scannedIcd = icd ∧ t.icdInstance = icdInstance
    · obtain ⟨rfl, rfl⟩ := hsame
      simp [hnull]
    · have hnot : ¬ (t.scannedIcd = icd ∧ t.icdInstance = icdInstance ∧ t.icdInstance ≠ nullHandle) :=
        fun h => hsame ⟨h.1, h.2.1⟩
      rw [if_neg hnot]
      simp [hsame]

/-- The instances that the loop destroys. -/
theorem count_log_unloadDrivers (ts : List DeviceIcdTerm) (hscanned : ∀ t ∈ ts, t.scannedIcd < s.scannedList.length)
    (icd : ℕ) (icdInstance : Handle) :
    (unloadDrivers ts s).2.log.count (.destroyInstance icd icdInstance) =
      s.log.count (.destroyInstance icd icdInstance) + (ts.filter (·.physicalDeviceCount = 0)).countP fun t =>
        t.scannedIcd = icd ∧ t.icdInstance = icdInstance ∧ t.icdInstance ≠ nullHandle := by
  induction ts generalizing s with
  | nil => rfl
  | cons t ts ih =>
    have htail := fun u hu => hscanned u (List.mem_cons_of_mem t hu)
    unfold unloadDrivers
    by_cases ht : t.physicalDeviceCount = 0
    · obtain ⟨hdestroys, -⟩ := unloadDriver_spec s t
      rw [if_pos ht, ih fun u hu => by rw [hdestroys.scannedLength]; exact htail u hu,
        count_log_unloadDriver (hscanned t List.mem_cons_self), List.filter_cons_of_pos (by simpa using ht),
        List.countP_cons, Nat.add_assoc]
      congr 1
      rw [Nat.add_comm]
      simp only [decide_eq_true_eq]
    · rw [if_neg ht, List.filter_cons_of_neg (by simpa using ht)]
      exact ih htail

end Loop

/-- **The unloading partitions the drivers** exactly if the library of the first preloaded driver is kept. -/
theorem partitionsDrivers_iff (s : Drivers) (hs : s.OwnLibraries) :
    PartitionsDrivers s s.unloadDriversWithoutPhysicalDevices ↔ s.KeepsFirstPreloaded := by
  have hscanned := hs.wellFormed.scanned
  have hpreloaded : s.unloadDriversWithoutPhysicalDevices.preloaded = s.removedNames.foldl removePreloaded s.preloaded :=
    preloaded_unloadDrivers s.icdTerms hs.wellFormed.nodup hscanned
  obtain ⟨hkeeps, hleaves⟩ := foldl_removePreloaded s.removedNames hs.preloaded
  constructor
  · rintro ⟨-, -, -, hperm, hcount⟩ p hp hin
    -- else there is an empty entry below the count
    obtain ⟨i, hi, hempty⟩ := hleaves ⟨p, hp, hin⟩
    rw [hpreloaded] at hperm
    rw [← entries_getElem? hi] at hempty
    have hmem := hperm.mem_iff.1 (List.mem_of_getElem? hempty)
    have hsome := hs.preloaded.named _ (List.mem_filter.1 hmem).1
    cases hsome
  · intro hfirst
    obtain ⟨hdistinct, hperm⟩ := hkeeps hfirst
    obtain ⟨hkept, hdestroys⟩ := unloadDrivers_spec s.icdTerms s
    obtain ⟨log, hlog, hgone⟩ := hdestroys.log
    have hlog' : ∀ icd icdInstance, log.count (.destroyInstance icd icdInstance) = s.withoutDevices.countP fun t =>
        t.scannedIcd = icd ∧ t.icdInstance = icdInstance ∧ t.icdInstance ≠ nullHandle := by
      intro icd icdInstance
      have hcount := count_log_unloadDrivers s.icdTerms hscanned icd icdInstance
      rw [hlog, List.count_append] at hcount
      exact Nat.add_left_cancel hcount
    refine ⟨hkept, (unloadDriversWithoutPhysicalDevices_wellFormed hs.wellFormed).count, ⟨log, hlog, ?_, ?_⟩, ?_, ?_⟩
    · intro t ht hnull
      have hnodup : (s.withoutDevices.map (·.scannedIcd)).Nodup :=
        hs.wellFormed.nodup.sublist (List.filter_sublist.map _)
      have hle : (s.withoutDevices.countP fun u =>
          u.scannedIcd = t.scannedIcd ∧ u.icdInstance = t.icdInstance ∧ u.icdInstance ≠ nullHandle) ≤
          (s.withoutDevices.map (·.scannedIcd)).count t.scannedIcd := by
        rw [List.count, List.countP_map]
        exact List.countP_mono_left fun u _ hu => beq_iff_eq.2 (of_decide_eq_true hu).1
      have hpos : 0 < s.withoutDevices.countP fun u =>
          u.scannedIcd = t.scannedIcd ∧ u.icdInstance = t.icdInstance ∧ u.icdInstance ≠ nullHandle :=
        List.countP_pos_iff.2 ⟨t, ht, decide_eq_true ⟨rfl, rfl, hnull⟩⟩
      rw [hlog']
      have hone := List.nodup_iff_count_le_one.1 hnodup t.scannedIcd
      omega
    · intro icd icdInstance hmem
      have hpos := List.count_pos_iff.2 hmem
      rw [hlog'] at hpos
      obtain ⟨t, ht, hproperty⟩ := List.countP_pos_iff.1 hpos
      obtain ⟨hicd, hinst, -⟩ := of_decide_eq_true hproperty
      exact ⟨t, ht, hicd, hinst⟩
    · rwa [hpreloaded]
    · have hlen := length_entries hdistinct.room
      rw [← hpreloaded] at hlen hperm
      exact hlen.symm.trans hperm.length_eq

/-- Two drivers, of which the last has a device, and the list of preloaded drivers. -/
def driversOf (preloaded : List ScannedLibrary) : Drivers where
  icdTerms := [⟨⟨1, {}, 11, true⟩, 0, []⟩, ⟨⟨0, {}, 10, true⟩, 1, []⟩]
  icdTermsCount := 2
  scannedList := [⟨some "libA.so", some 20⟩, ⟨some "libB.so", some 21⟩]
  preloadedIcds := preloaded
  preloadedCount := preloaded.length
  term := .init
  devicesMade := 0
  log := []

theorem driversOf_ownLibraries {preloaded : List ScannedLibrary} (hnamed : ∀ p ∈ preloaded, p.libName.isSome)
    (hnodup : (preloaded.map (·.libName)).Nodup) : (driversOf preloaded).OwnLibraries where
  wellFormed := ⟨(by decide : ((driversOf []).icdTerms.map (·.scannedIcd)).Nodup),
    (by decide : ∀ t ∈ (driversOf []).icdTerms, t.scannedIcd < (driversOf []).scannedList.length), rfl⟩
  named := (by decide : ∀ t ∈ (driversOf []).icdTerms, ((driversOf []).libName t).isSome)
  nodup := (by decide : ((driversOf []).icdTerms.map (driversOf []).libName).Nodup)
  preloaded := by
    have hall : (driversOf preloaded).preloaded.entries = preloaded := List.take_length
    exact ⟨le_rfl, fun p hp => hnamed p (hall ▸ hp), by rwa [hall]⟩

/-- The driver that goes was preloaded second. -/
theorem partitionsDrivers_iff_second :
    PartitionsDrivers (driversOf [⟨some "libA.so", some 1⟩, ⟨some "libB.so", some 2⟩, ⟨some "libC.so", some 3⟩])
      (driversOf [⟨some "libA.so", some 1⟩, ⟨some "libB.so", some 2⟩,
        ⟨some "libC.so", some 3⟩]).unloadDriversWithoutPhysicalDevices :=
  (partitionsDrivers_iff _ (driversOf_ownLibraries (by decide) (by decide))).2 (by
    rintro p hp
    obtain rfl := Option.some.inj hp
    decide)

/-- The driver that goes was preloaded first: the list has an empty entry. -/
theorem not_partitionsDrivers :
    ¬ ∀ s : Drivers, s.OwnLibraries → PartitionsDrivers s s.unloadDriversWithoutPhysicalDevices := by
  intro h
  have hs := h (driversOf [⟨some "libB.so", some 2⟩, ⟨some "libA.so", some 1⟩])
    (driversOf_ownLibraries (by decide) (by decide))
  exact absurd hs.preloadedCount (by decide)

end VulkanLoader
