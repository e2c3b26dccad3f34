import VulkanLoader.Handles.Surface
import VulkanLoader.Lib.Lists

/-!
# When surfaces are kept track of

`allocate_icd_surface_struct` takes an index before it makes the `VkIcdSurface` and grows the tables.  If one of these
requests fails, the index stays in use, and no surface has it; and entries that grow with the application's callbacks
may hold anything.  `SurfaceSafe` excludes both, and a driver that leaves a handle behind when it fails.  Along every
run of safe calls the table of surfaces is sound.
-/

namespace VulkanLoader

/-- Every table of a driver that uses surfaces grows, and the entries it gains are null. -/
def GrowsClean (callbacks : Option VkAllocationCallbacks) (nextIndex : ℕ) :
    (ℕ → Request Handle) → List SurfaceIcd → Prop
  | _, [] => True
  | r, icd :: icds =>
    (icd.usesSurfaces = true →
      match growHandleTable callbacks nextIndex icd.surfaceList (r 0) with
      | none => False
      | some l => ∀ h ∈ l.drop (icd.surfaceList.getD []).length, h = nullHandle) ∧
    GrowsClean callbacks nextIndex (fun i => r (i + 1)) icds

/-- The extension of the platform is enabled on the instance. -/
def SurfaceInstance.enabled (s : SurfaceInstance) : SurfacePlatform → Bool
  | .display => s.khrDisplay
  | .headless => s.extHeadlessSurface

/-- **The call loses no index and leaves no handle behind.** -/
def SurfaceSafe (s : SurfaceInstance) : SurfaceCall → Prop
  | .create platform pAllocator a => s.enabled platform = true →
      match loaderGetNextAvailableEntry s.allocCallbacks s.surfacesList pAllocator a.usedListRequest with
      | (_, _, none) => True
      | (_, _, some nextIndex) =>
        a.icdSurfaceAllocated = true ∧ GrowsClean s.allocCallbacks nextIndex a.listRequest s.icdTerms
  | .unwrap _ _ driver =>
    match driver with
    | .created _ _ => True
    | .failed _ _ left => left.getD nullHandle = nullHandle
  | .destroy _ => True

instance decidableGrowsClean (callbacks : Option VkAllocationCallbacks) (nextIndex : ℕ) :
    ∀ (r : ℕ → Request Handle) (icds : List SurfaceIcd), Decidable (GrowsClean callbacks nextIndex r icds)
  | _, [] => isTrue trivial
  | r, icd :: icds => by
    haveI := decidableGrowsClean callbacks nextIndex (fun i => r (i + 1)) icds
    unfold GrowsClean
    split <;> infer_instance

instance (s : SurfaceInstance) (c : SurfaceCall) : Decidable (SurfaceSafe s c) := by
  unfold SurfaceSafe
  split
  · split <;> infer_instance
  · split <;> infer_instance
  · infer_instance

instance (s : SurfaceInstance) (c : SurfaceCall) : Decidable (SurfaceCallable s c) := by
  unfold SurfaceCallable
  split <;> infer_instance

/-! ### One driver -/

namespace SurfaceIcd

/-- The driver's surfaces, by index. -/
def table (icd : SurfaceIcd) : List Handle := icd.surfaceList.getD []

/-- What holds of a driver between two calls, the indices `live` being in use. -/
structure Inv (live : List ℕ) (icd : SurfaceIcd) : Prop where
  balanced : Lib.Balanced live icd.table icd.log
  inBounds : icd.inBounds
  nonempty : icd.surfaceList ≠ some []
  covers : icd.usesSurfaces = true → ∀ n ∈ live, ∃ l, icd.surfaceList = some l ∧ n < l.length
  unused : icd.usesSurfaces = false → icd.surfaceList = none
  clean : ∀ n ∉ live, ∀ h ≠ nullHandle, icd.table[n]? ≠ some h
  empty : icd.destroySurface = false → ∀ n : ℕ, ∀ h ≠ nullHandle, icd.table[n]? ≠ some h

variable {live : List ℕ} {icd : SurfaceIcd} {nextIndex : ℕ}

theorem Inv.perm {live' : List ℕ} (h : Inv live icd) (hp : live.Perm live') : Inv live' icd where
  balanced := h.balanced.perm hp
  inBounds := h.inBounds
  nonempty := h.nonempty
  covers := fun hu n hn => h.covers hu n (hp.mem_iff.2 hn)
  unused := h.unused
  clean := fun n hn => h.clean n fun hl => hn (hp.mem_iff.1 hl)
  empty := h.empty

theorem table_of_some {l : List Handle} (h : icd.surfaceList = some l) : icd.table = l := by
  rw [table, h, Option.getD_some]

/-- An index inside the tables becomes live. -/
theorem Inv.acquire (h : Inv live icd) (hnew : nextIndex ∉ live)
    (hcover : icd.usesSurfaces = true → ∃ l, icd.surfaceList = some l ∧ nextIndex < l.length) :
    Inv (nextIndex :: live) icd where
  balanced := (Lib.balanced_cons_iff (h.clean nextIndex hnew)).2 h.balanced
  inBounds := h.inBounds
  nonempty := h.nonempty
  covers := by
    intro hu n hn
    rcases List.mem_cons.1 hn with rfl | hn
    · exact hcover hu
    · exact h.covers hu n hn
  unused := h.unused
  clean := fun n hn => h.clean n fun hl => hn (List.mem_cons_of_mem _ hl)
  empty := h.empty

/-- **A table that grows by null entries** is as good as before, and covers the index. -/
theorem Inv.grow {callbacks : Option VkAllocationCallbacks} {r : Request Handle} {l : List Handle} (h : Inv live icd)
    (hused : ∀ m < nextIndex, m ∈ live) (hu : icd.usesSurfaces = true)
    (hgrow : growHandleTable callbacks nextIndex icd.surfaceList r = some l)
    (hclean : ∀ x ∈ l.drop (icd.surfaceList.getD []).length, x = nullHandle) :
    Inv live { icd with surfaceList := some l } ∧ nextIndex < l.length := by
  obtain ⟨hlt, added, hl⟩ := growHandleTable_eq_some h.nonempty (fun n hn => h.covers hu n (hused n hn)) hgrow
  have hnull : ∀ x ∈ added, x = nullHandle := by
    intro x hx
    refine hclean x ?_
    rw [hl, List.drop_left]
    exact hx
  have hlive : ∀ n ∈ live, n < icd.table.length := by
    intro n hn
    obtain ⟨l₀, hl₀, hlt₀⟩ := h.covers hu n hn
    rwa [table_of_some hl₀]
  have hl' : l = icd.table ++ added := hl
  have hentry : ∀ n : ℕ, ∀ x ≠ nullHandle, icd.table[n]? ≠ some x → l[n]? ≠ some x := by
    intro n x hx hn
    rw [hl']
    by_cases hn' : n < icd.table.length
    · rwa [List.getElem?_append_left hn']
    · rw [List.getElem?_append_right (by omega)]
      exact fun hget => hx (hnull x (List.mem_of_getElem? hget))
  refine ⟨?_, hlt⟩
  refine { balanced := ?_, inBounds := h.inBounds, nonempty := ?_, covers := ?_, unused := ?_, clean := ?_, empty := ?_ }
  · refine h.balanced.congr fun n hn => ?_
    show icd.table[n]? = l[n]?
    rw [hl', List.getElem?_append_left (hlive n hn)]
  · rw [Ne, Option.some.injEq]
    exact List.ne_nil_of_length_pos (by omega)
  · intro _ n hn
    refine ⟨l, rfl, ?_⟩
    have := hlive n hn
    rw [hl', List.length_append]
    omega
  · intro hu'
    rw [show icd.usesSurfaces = false from hu'] at hu
    cases hu
  · exact fun n hn x hx => hentry n x hx (h.clean n hn x hx)
  · exact fun hd n x hx => hentry n x hx (h.empty hd n x hx)

/-- The clean-up of a creation finds nothing at an index that no surface had yet. -/
theorem cleanupSurfaceOnIcd_eq (h : Inv live icd) (hnew : nextIndex ∉ live) :
    cleanupSurfaceOnIcd nextIndex icd = icd := by
  unfold cleanupSurfaceOnIcd
  rcases hlist : icd.surfaceList with _ | l
  · rfl
  · have hnot : ¬ (icd.khrSurface ∧ nextIndex < l.length ∧ l.getD nextIndex nullHandle ≠ nullHandle ∧
        icd.destroySurface) := by
      rintro ⟨-, hlt, hne, -⟩
      refine h.clean nextIndex hnew _ hne ?_
      rw [table_of_some hlist, List.getD_eq_getElem?_getD, List.getElem?_eq_getElem hlt, Option.getD_some]
    simp only
    rw [if_neg hnot]

/-- A write to the entry of a live index. -/
theorem Inv.write {l l' : List Handle} {n : ℕ} {log : List (Lib.HandleEvent Handle)} (h : Inv live icd)
    (hlist : icd.surfaceList = some l) (hn : n ∈ live) (hlen : l'.length = l.length)
    (hsame : ∀ k ≠ n, l'[k]? = l[k]?) (hdestroy : icd.destroySurface = true) (hbalanced : Lib.Balanced live l' log) :
    Inv live { icd with surfaceList := some l', log := log } where
  balanced := hbalanced
  inBounds := h.inBounds
  nonempty := by
    rw [Ne, Option.some.injEq]
    intro h0
    rw [h0] at hlen
    exact h.nonempty (by rw [hlist, List.length_eq_zero_iff.1 hlen.symm])
  covers := by
    intro hu k hk
    obtain ⟨l₀, hl₀, hlt⟩ := h.covers hu k hk
    obtain rfl := Option.some.inj (hlist.symm.trans hl₀)
    exact ⟨l', rfl, hlen ▸ hlt⟩
  unused := by
    intro hu
    have hnone := h.unused hu
    rw [hlist] at hnone
    cases hnone
  clean := by
    intro k hk x hx
    show l'[k]? ≠ some x
    rw [hsame k fun he => hk (he ▸ hn), ← table_of_some hlist]
    exact h.clean k hk x hx
  empty := by
    intro hd
    rw [show icd.destroySurface = false from hd] at hdestroy
    cases hdestroy

/-- **A surface that is unwrapped** is made at its index if the driver had none. -/
theorem wsiUnwrapIcdSurface_inv {surface : IcdSurface} {driver : DriverHandle} (h : Inv live icd) (hnodup : live.Nodup)
    (hlive : surface.surfaceIndex ∈ live)
    (hclean : ∀ res error left, driver = .failed res error left → left.getD nullHandle = nullHandle) :
    Inv live (wsiUnwrapIcdSurface icd surface driver).2.1 := by
  unfold wsiUnwrapIcdSurface
  rcases hlist : icd.surfaceList with _ | l
  · exact h
  simp only
  split_ifs with hshort hversion hmade hcreate
  · exact h
  · exact h
  · exact h
  · exact h
  set n := surface.surfaceIndex with hn
  have hlt : n < l.length := by omega
  have hnull : l.getD n nullHandle = nullHandle := by simpa using hmade
  have hget : l[n]? = some nullHandle := by
    rw [List.getD_eq_getElem?_getD, List.getElem?_eq_getElem hlt, Option.getD_some] at hnull
    rw [List.getElem?_eq_getElem hlt, hnull]
  have hdestroy : icd.destroySurface = true := by
    refine icd.destroys ?_
    rcases hp : surface.platform <;> simp [canCreate, hp] at hcreate <;> simp [hcreate]
  rcases driver with ⟨x, hx⟩ | ⟨res, error, left⟩
  · -- the index is live and had no surface yet
    have hperm := List.perm_cons_erase hlive
    have hnew : n ∉ live.erase n := fun hmem => (hnodup.mem_erase_iff.1 hmem).1 rfl
    have hb : Lib.Balanced (live.erase n) l icd.log := by
      rw [← Lib.balanced_cons_iff (n := n) (fun y hy => by rw [hget]; exact fun he => hy (Option.some.inj he).symm)]
      rw [← table_of_some hlist]
      exact h.balanced.perm hperm
    have hself := getElem?_writeEntry_self hlt (some x)
    refine h.write hlist hlive (length_writeEntry _ _ _) (fun k hk => getElem?_writeEntry_of_ne hk _) hdestroy ?_
    refine Lib.Balanced.perm (Lib.Balanced.made (hb.congr fun k hk => ?_) hself) hperm.symm
    exact (getElem?_writeEntry_of_ne (ne_of_mem_of_not_mem hk hnew) _).symm
  · have hleft := hclean res error left rfl
    have hself : (writeEntry l n left)[n]? = some nullHandle := by
      rw [getElem?_writeEntry_self hlt, hnull, hleft]
    refine h.write hlist hlive (length_writeEntry _ _ _) (fun k hk => getElem?_writeEntry_of_ne hk _) hdestroy ?_
    refine h.balanced.congr fun k _ => ?_
    rw [table_of_some hlist]
    by_cases hk : k = n
    · rw [hk, hself, hget]
    · rw [getElem?_writeEntry_of_ne hk]

/-- An index is live no more, and its entry is null. -/
theorem Inv.retire {l l' : List Handle} {n : ℕ} {log : List (Lib.HandleEvent Handle)} {inBounds : Bool}
    (h : Inv (n :: live) icd) (hlist : icd.surfaceList = some l) (hlen : l'.length = l.length)
    (hsame : ∀ k ≠ n, l'[k]? = l[k]?) (hnull : ∀ x ≠ nullHandle, l'[n]? ≠ some x) (hin : inBounds = true)
    (hbalanced : Lib.Balanced live l' log) :
    Inv live { icd with surfaceList := some l', log := log, inBounds := inBounds } where
  balanced := hbalanced
  inBounds := hin
  nonempty := by
    rw [Ne, Option.some.injEq]
    intro h0
    rw [h0] at hlen
    exact h.nonempty (by rw [hlist, List.length_eq_zero_iff.1 hlen.symm])
  covers := by
    intro hu k hk
    obtain ⟨l₀, hl₀, hlt⟩ := h.covers hu k (List.mem_cons_of_mem _ hk)
    obtain rfl := Option.some.inj (hlist.symm.trans hl₀)
    exact ⟨l', rfl, hlen ▸ hlt⟩
  unused := by
    intro hu
    have hnone := h.unused hu
    rw [hlist] at hnone
    cases hnone
  clean := by
    intro k hk x hx
    show l'[k]? ≠ some x
    by_cases hkn : k = n
    · exact hkn ▸ hnull x hx
    · rw [hsame k hkn, ← table_of_some hlist]
      exact h.clean k (fun hmem => (List.mem_cons.1 hmem).elim hkn hk) x hx
  empty := by
    intro hd k x hx
    show l'[k]? ≠ some x
    by_cases hkn : k = n
    · exact hkn ▸ hnull x hx
    · rw [hsame k hkn, ← table_of_some hlist]
      exact h.empty hd k x hx

/-- **A surface that is destroyed** is destroyed by every driver that made its own. -/
theorem destroySurfaceOnIcd_inv (h : Inv (nextIndex :: live) icd) (hnew : nextIndex ∉ live) :
    Inv live (destroySurfaceOnIcd nextIndex icd) := by
  unfold destroySurfaceOnIcd
  by_cases hu : icd.usesSurfaces
  · obtain ⟨l, hlist, hlt⟩ := h.covers hu nextIndex List.mem_cons_self
    have hbalanced : Lib.Balanced (nextIndex :: live) l icd.log := table_of_some hlist ▸ h.balanced
    have hget : l[nextIndex]? = some l[nextIndex] := List.getElem?_eq_getElem hlt
    have hgetD : l.getD nextIndex nullHandle = l[nextIndex] := by
      rw [List.getD_eq_getElem?_getD, hget, Option.getD_some]
    rw [if_pos hu]
    simp only [hlist, Option.getD_some, hgetD]
    have hin : (icd.inBounds && decide (nextIndex < l.length)) = true := by simp [h.inBounds, hlt]
    split_ifs with hd
    · -- the driver's surface is destroyed and its entry cleared
      have hsame : ∀ k ≠ nextIndex, (writeEntry l nextIndex (some nullHandle))[k]? = l[k]? := fun k hk =>
        getElem?_writeEntry_of_ne hk _
      refine h.retire hlist (length_writeEntry _ _ _) hsame (fun x hx => ?_) hin ?_
      · rw [getElem?_writeEntry_self hlt]
        exact fun he => hx (Option.some.inj he).symm
      · refine (hbalanced.givenBack hget).congr fun k hk => ?_
        exact (hsame k (ne_of_mem_of_not_mem hk hnew)).symm
    · have hnull : ∀ x ≠ nullHandle, l[nextIndex]? ≠ some x := by
        intro x hx hx'
        obtain rfl : l[nextIndex] = x := Option.some.inj (hget.symm.trans hx')
        have hd' : icd.destroySurface = false := by
          rcases hdestroy : icd.destroySurface with _ | _
          · rfl
          · exact absurd ⟨hdestroy, hx⟩ hd
        exact h.empty hd' nextIndex _ hx (by rw [table_of_some hlist, hget])
      have hretire := h.retire hlist rfl (fun _ _ => rfl) hnull hin ((Lib.balanced_cons_iff hnull).1 hbalanced)
      simpa only [hlist] using hretire
  · -- a driver without surfaces has no table
    rw [if_neg hu]
    have hnone := h.unused (by simpa using hu)
    have htable : ∀ k : ℕ, ∀ x, icd.table[k]? ≠ some x := by
      intro k x
      simp [table, hnone]
    exact ⟨(Lib.balanced_cons_iff fun x _ => htable nextIndex x).1 h.balanced, h.inBounds, h.nonempty,
      fun hu' => absurd hu' hu, h.unused, fun k _ x _ => htable k x, fun _ k x _ => htable k x⟩

end SurfaceIcd

/-! ### The instance -/

/-- The loop over the drivers, where every table grows cleanly. -/
theorem growSurfaceLists_spec {callbacks : Option VkAllocationCallbacks} {nextIndex : ℕ} {live : List ℕ}
    {r : ℕ → Request Handle} {icds : List SurfaceIcd} (hinv : ∀ icd ∈ icds, icd.Inv live)
    (hused : ∀ m < nextIndex, m ∈ live) (hclean : GrowsClean callbacks nextIndex r icds) :
    (growSurfaceLists callbacks nextIndex r icds).1 = .success ∧
      ∀ icd ∈ (growSurfaceLists callbacks nextIndex r icds).2, icd.Inv live ∧
        (icd.usesSurfaces = true → ∃ l, icd.surfaceList = some l ∧ nextIndex < l.length) := by
  induction icds generalizing r with
  | nil => exact ⟨rfl, fun icd hicd => absurd hicd List.not_mem_nil⟩
  | cons icd icds ih =>
    obtain ⟨hicd, hrest⟩ := hclean
    obtain ⟨hres, hicds⟩ := ih (fun icd hicd => hinv icd (List.mem_cons_of_mem _ hicd)) hrest
    have hinv₀ := hinv icd List.mem_cons_self
    by_cases hu : icd.usesSurfaces
    · have hicd := hicd hu
      rcases hgrow : growHandleTable callbacks nextIndex icd.surfaceList (r 0) with _ | l
      · rw [hgrow] at hicd
        exact hicd.elim
      · rw [hgrow] at hicd
        obtain ⟨hinv', hlt⟩ := hinv₀.grow hused hu hgrow hicd
        simp only [growSurfaceLists, if_pos hu, hgrow]
        refine ⟨hres, fun icd' hicd' => ?_⟩
        rcases List.mem_cons.1 hicd' with rfl | hicd'
        · exact ⟨hinv', fun _ => ⟨l, rfl, hlt⟩⟩
        · exact hicds icd' hicd'
    · simp only [growSurfaceLists, if_neg hu]
      refine ⟨hres, fun icd' hicd' => ?_⟩
      rcases List.mem_cons.1 hicd' with rfl | hicd'
      · exact ⟨hinv₀, fun hu' => absurd hu' hu⟩
      · exact hicds icd' hicd'

/-- **The invariant.** -/
structure SurfaceInstance.Inv (s : SurfaceInstance) : Prop where
  icds : ∀ icd ∈ s.icdTerms, icd.Inv s.indices
  nodup : s.indices.Nodup
  inUse : ∀ n, InUse s.surfacesList n ↔ n ∈ s.indices
  nonempty : s.surfacesList ≠ some []
  handles : (s.surfaces.map IcdSurface.handle).Nodup
  fresh : ∀ h ∈ s.surfaces.map IcdSurface.handle, h < s.nextHandle

theorem SurfaceInstance.Inv.sound {s : SurfaceInstance} (hs : s.Inv) : SurfacesSound s where
  nodup := hs.nodup
  inUse := hs.inUse
  inBounds := fun icd hicd => (hs.icds icd hicd).inBounds
  balanced := fun icd hicd => (hs.icds icd hicd).balanced

/-- **A safe creation** keeps the invariant, and the indices in use if it fails. -/
theorem createSurface_spec {s : SurfaceInstance} (hs : s.Inv) {platform : SurfacePlatform} {enabled : Bool}
    {notEnabled : VkResult} {ciTypes : List String} {pAllocator : Option VkAllocationCallbacks} {a : SurfaceAnswers}
    (henabled : s.enabled platform = enabled) (hsafe : SurfaceSafe s (.create platform pAllocator a)) :
    (createSurface platform enabled notEnabled ciTypes s pAllocator a).2.Inv ∧
      ((createSurface platform enabled notEnabled ciTypes s pAllocator a).1 ≠ .success →
        ∀ n, InUse (createSurface platform enabled notEnabled ciTypes s pAllocator a).2.surfacesList n ↔
          InUse s.surfacesList n) := by
  unfold createSurface
  rcases enabled with _ | _
  · exact ⟨hs, fun _ _ => Iff.rfl⟩
  have hsafe' := hsafe henabled
  simp only [Bool.not_true, Bool.false_eq_true, if_false]
  unfold allocateIcdSurfaceStruct
  rcases hget : loaderGetNextAvailableEntry s.allocCallbacks s.surfacesList pAllocator a.usedListRequest
    with ⟨res, list, _ | nextIndex⟩
  · -- no index was taken
    obtain ⟨-, rfl⟩ := loaderGetNextAvailableEntry_failure hget
    exact ⟨hs, fun _ _ => Iff.rfl⟩
  · rw [hget] at hsafe'
    obtain ⟨halloc, hclean⟩ := hsafe'
    obtain ⟨-, -, hne, hfree, hused, hlist⟩ := loaderGetNextAvailableEntry_success hs.nonempty hget
    have hnew : nextIndex ∉ s.indices := fun h => hfree ((hs.inUse nextIndex).2 h)
    have hbelow : ∀ m < nextIndex, m ∈ s.indices := fun m hm => (hs.inUse m).1 (hused m hm)
    obtain ⟨hres, hicds⟩ := growSurfaceLists_spec hs.icds hbelow hclean
    simp only [halloc, Bool.not_true, Bool.false_eq_true, if_false, hres, if_true]
    by_cases hcopy : copySurfaceCreateInfo ciTypes a.createInfoChain a.createInfoAllocated = .success
    · rw [if_neg (by simpa using hcopy)]
      refine ⟨⟨fun icd hicd => ?_, List.nodup_cons.2 ⟨hnew, hs.nodup⟩, fun n => ?_, hne, ?_, ?_⟩,
        fun h => absurd rfl h⟩
      · obtain ⟨hinv, hcover⟩ := hicds icd hicd
        exact hinv.acquire hnew hcover
      · rw [hlist, hs.inUse]
        exact List.mem_cons.symm
      · exact List.nodup_cons.2 ⟨fun h => Nat.lt_irrefl _ (hs.fresh _ h), hs.handles⟩
      · intro h hh
        rcases List.mem_cons.1 hh with rfl | hh
        · exact Nat.lt_succ_self _
        · exact Nat.lt_succ_of_lt (hs.fresh h hh)
    · -- the index is given back, and no driver has a surface at it
      rw [if_pos hcopy]
      simp only [cleanupSurfaceCreation, if_neg hcopy]
      have hrestored : ∀ n, InUse (clearObjectStatus list nextIndex pAllocator) n ↔ InUse s.surfacesList n :=
        inUse_restored hfree hlist fun _ => inUse_clearObjectStatus
      refine ⟨⟨fun icd hicd => ?_, hs.nodup, fun n => (hrestored n).trans (hs.inUse n),
        clearObjectStatus_nonempty hne, hs.handles, hs.fresh⟩, fun _ => hrestored⟩
      obtain ⟨icd₀, hicd₀, rfl⟩ := List.mem_map.1 hicd
      rw [SurfaceIcd.cleanupSurfaceOnIcd_eq (hicds icd₀ hicd₀).1 hnew]
      exact (hicds icd₀ hicd₀).1

theorem createOn_spec {s : SurfaceInstance} (hs : s.Inv) {platform : SurfacePlatform}
    {pAllocator : Option VkAllocationCallbacks} {a : SurfaceAnswers}
    (hsafe : SurfaceSafe s (.create platform pAllocator a)) :
    (createOn platform s pAllocator a).2.Inv ∧ FailureKeepsIndices s (.create platform pAllocator a) := by
  cases platform with
  | display => exact createSurface_spec hs rfl hsafe
  | headless => exact createSurface_spec hs rfl hsafe

theorem terminatorDestroySurfaceKHR_inv {s : SurfaceInstance} (hs : s.Inv) {t : IcdSurface} (ht : t ∈ s.surfaces) :
    (terminatorDestroySurfaceKHR s t).Inv := by
  have hperm := Lib.perm_cons_filter_ne hs.handles ht
  have hindices : s.indices.Perm (t.surfaceIndex :: (terminatorDestroySurfaceKHR s t).indices) :=
    hperm.map IcdSurface.surfaceIndex
  have hhandles := hperm.map IcdSurface.handle
  obtain ⟨hnew, hnodup⟩ := List.nodup_cons.1 (hindices.nodup_iff.1 hs.nodup)
  refine ⟨?_, hnodup, fun n => ?_, loaderReleaseObjectFromList_nonempty hs.nonempty,
    (List.nodup_cons.1 (hhandles.nodup_iff.1 hs.handles)).2, fun h hh => ?_⟩
  · intro icd hicd
    obtain ⟨icd₀, hicd₀, rfl⟩ := List.mem_map.1 hicd
    exact SurfaceIcd.destroySurfaceOnIcd_inv ((hs.icds icd₀ hicd₀).perm hindices) hnew
  · show InUse (loaderReleaseObjectFromList s.surfacesList t.surfaceIndex) n ↔ _
    rw [inUse_loaderReleaseObjectFromList, hs.inUse, hindices.mem_iff, List.mem_cons]
    constructor
    · rintro ⟨h | h, hn⟩
      · exact absurd h hn
      · exact h
    · exact fun h => ⟨Or.inr h, fun hn => hnew (hn ▸ h)⟩
  · exact hs.fresh h (hhandles.mem_iff.2 (List.mem_cons_of_mem _ hh))

theorem surfaceStep_inv {s : SurfaceInstance} {c : SurfaceCall} (hs : s.Inv)
    (hc : SurfaceCallable s c ∧ SurfaceSafe s c) : (surfaceStep s c).Inv := by
  obtain ⟨hcall, hsafe⟩ := hc
  rcases c with ⟨platform, pAllocator, a⟩ | ⟨i, h, driver⟩ | h
  · exact (createOn_spec hs hsafe).1
  · obtain ⟨t, ht, -, hfind⟩ := Lib.exists_find?_key hcall
    simp only [surfaceStep, hfind]
    refine ⟨fun icd hicd => ?_, hs.nodup, hs.inUse, hs.nonempty, hs.handles, hs.fresh⟩
    rcases Lib.mem_modify hicd with hicd | ⟨icd₀, hicd₀, rfl⟩
    · exact hs.icds icd hicd
    · refine SurfaceIcd.wsiUnwrapIcdSurface_inv (hs.icds icd₀ hicd₀) hs.nodup (List.mem_map.2 ⟨t, ht, rfl⟩) ?_
      rintro res error left rfl
      exact hsafe
  · obtain ⟨t, ht, -, hfind⟩ := Lib.exists_find?_key hcall
    simp only [surfaceStep, hfind]
    exact terminatorDestroySurfaceKHR_inv hs ht

/-! ### Runs -/

/-- An instance whose drivers have no surfaces yet. -/
structure FreshSurfaceInstance where
  toInstance : SurfaceInstance
  surfacesList : toInstance.surfacesList = none
  surfaces : toInstance.surfaces = []
  icdTerms : ∀ icd ∈ toInstance.icdTerms, icd.surfaceList = none ∧ icd.log = [] ∧ icd.inBounds = true

theorem FreshSurfaceInstance.inv (s : FreshSurfaceInstance) : s.toInstance.Inv where
  icds := by
    intro icd hicd
    obtain ⟨hlist, hlog, hin⟩ := s.icdTerms icd hicd
    have htable : icd.table = [] := by rw [SurfaceIcd.table, hlist, Option.getD_none]
    refine ⟨?_, hin, by simp [hlist], ?_, fun _ => hlist, by simp [htable], by simp [htable]⟩
    · rw [SurfaceInstance.indices, s.surfaces, htable, hlog]
      exact Lib.balanced_nil
    · simp [SurfaceInstance.indices, s.surfaces]
  nodup := by simp [SurfaceInstance.indices, s.surfaces]
  inUse := by simp [SurfaceInstance.indices, s.surfaces, s.surfacesList]
  nonempty := by simp [s.surfacesList]
  handles := by simp [s.surfaces]
  fresh := by simp [s.surfaces]

/-- **Runs of safe calls.**  Whatever the drivers do, as long as no creation fails between taking its index and handing
over its struct, tables grow by null entries, and drivers that fail leave no handle, the table of surfaces is sound and
failures keep the indices in use. -/
theorem surfaces_of_surfaceSafe (s : FreshSurfaceInstance) (calls : List SurfaceCall)
    (h : Lib.AllSteps surfaceStep (fun s c => SurfaceCallable s c ∧ SurfaceSafe s c) s.toInstance calls) :
    SurfacesSound (Lib.run surfaceStep s.toInstance calls) ∧
      Lib.AllSteps surfaceStep FailureKeepsIndices s.toInstance calls := by
  constructor
  · exact (Lib.run_invariant surfaceStep (fun s c hs hc => surfaceStep_inv hs hc) s.inv h).sound
  · refine Lib.run_step_invariant surfaceStep (fun s c hs hc => surfaceStep_inv hs hc) ?_ s.inv calls h
    rintro s (⟨platform, pAllocator, a⟩ | ⟨i, handle, driver⟩ | handle) hs hc
    · exact (createOn_spec hs hc.2).2
    · trivial
    · trivial

/-- One driver that makes headless surfaces. -/
def headlessInstance : FreshSurfaceInstance where
  toInstance :=
    { allocCallbacks := none, khrDisplay := false, extHeadlessSurface := true
      icdTerms := [{
        interfaceVersion := 7, khrSurface := true, khrDisplay := false, extHeadlessSurface := true
        createDisplayPlaneSurface := false, createHeadlessSurface := true, destroySurface := true
        destroys := fun _ => rfl }] }
  surfacesList := rfl
  surfaces := rfl
  icdTerms := by
    intro icd hicd
    obtain rfl := List.mem_singleton.1 hicd
    exact ⟨rfl, rfl, rfl⟩

/-- A creation of a headless surface whose other requests succeed. -/
def createHeadless (icdSurfaceAllocated : Bool) : SurfaceCall :=
  .create .headless none
    ⟨.grants fun _ => 0, icdSurfaceAllocated, fun _ => .grants fun _ => 0, ["VkHeadlessSurfaceCreateInfoEXT"], true⟩

theorem surfaces_of_surfaceSafe_run :
    Lib.AllSteps surfaceStep (fun s c => SurfaceCallable s c ∧ SurfaceSafe s c) headlessInstance.toInstance
        [createHeadless true, .unwrap 0 1 (.created 5 (by decide)), .destroy 1] ∧
      SurfacesSound (Lib.run surfaceStep headlessInstance.toInstance
        [createHeadless true, .unwrap 0 1 (.created 5 (by decide)), .destroy 1]) :=
  have h : Lib.AllSteps surfaceStep (fun s c => SurfaceCallable s c ∧ SurfaceSafe s c) headlessInstance.toInstance
      [createHeadless true, .unwrap 0 1 (.created 5 (by decide)), .destroy 1] := by decide
  ⟨h, (surfaces_of_surfaceSafe headlessInstance _ h).1⟩

/-- The index of a creation that fails for want of its struct stays in use. -/
theorem not_surfacesSound :
    ¬ ∀ (s : FreshSurfaceInstance) (calls : List SurfaceCall),
      Lib.AllSteps surfaceStep SurfaceCallable s.toInstance calls →
      SurfacesSound (Lib.run surfaceStep s.toInstance calls) := by
  intro h
  have hsound := h headlessInstance [createHeadless false] (by decide)
  have hindices : (Lib.run surfaceStep headlessInstance.toInstance [createHeadless false]).indices = [] := by decide
  have huse : InUse (Lib.run surfaceStep headlessInstance.toInstance [createHeadless false]).surfacesList 0 :=
    ⟨_, _, rfl, rfl, rfl⟩
  have hmem := (hsound.inUse 0).1 huse
  rw [hindices] at hmem
  cases hmem

end VulkanLoader
