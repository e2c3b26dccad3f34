import VulkanLoader.PhysDev.Groups
import VulkanLoader.PhysDev.TermObjects

/-!
# The new list of groups

What `terminator_EnumeratePhysicalDeviceGroups` has at `out:`: the list of devices that it finds or makes, the answers of
the drivers in terms of that list, and the array of groups, whose entries are groups of the old list or new ones.
-/

namespace VulkanLoader

open Lib

/-! ### The enumeration of the devices -/

section Setup

theorem checkAndAddToNewPhysDevs_length {old : List Handle} {object : ℕ → Option Handle} {t : PhysicalDeviceTerm}
    {n : NewPhysDevs} {r : VkResult × NewPhysDevs} (h : checkAndAddToNewPhysDevs old object t n = some r) :
    r.2.newPhysDevs.length = n.newPhysDevs.length := by
  unfold checkAndAddToNewPhysDevs at h
  obtain ⟨found, -, h⟩ := Option.bind_eq_some_iff.1 h
  cases found with
  | some _ =>
    obtain rfl := Option.some.inj h
    rfl
  | none =>
    obtain ⟨was, -, h⟩ := Option.bind_eq_some_iff.1 h
    obtain ⟨entry, -, h⟩ := Option.bind_eq_some_iff.1 h
    cases was with
    | some p =>
      obtain rfl := Option.some.inj h
      exact List.length_set
    | none =>
      dsimp only at h
      split_ifs at h
      · obtain rfl := Option.some.inj h
        rfl
      · split at h
        · obtain rfl := Option.some.inj h
          rfl
        · obtain rfl := Option.some.inj h
          exact List.length_set

theorem addPhysDevs_length {old : List Handle} {object : ℕ → Option Handle} {ts : List PhysicalDeviceTerm}
    {n : NewPhysDevs} {r : VkResult × NewPhysDevs} (h : addPhysDevs old object ts n = some r) :
    r.2.newPhysDevs.length = n.newPhysDevs.length := by
  induction ts generalizing n with
  | nil =>
    obtain rfl := Option.some.inj h
    rfl
  | cons t ts ih =>
    obtain ⟨q, hq, h⟩ := Option.bind_eq_some_iff.1 h
    have hlen := checkAndAddToNewPhysDevs_length hq
    split_ifs at h
    · obtain rfl := Option.some.inj h
      exact hlen
    · rw [ih h, hlen]

theorem keepOldPhysDevs_length {old : List Handle} {ps : List Handle} {h : Heap PhysicalDeviceTerm}
    {r : List Handle × Heap PhysicalDeviceTerm} (hr : keepOldPhysDevs old ps h = some r) : r.1.length = ps.length := by
  induction ps generalizing h r with
  | nil =>
    obtain rfl := Option.some.inj hr
    rfl
  | cons p ps ih =>
    unfold keepOldPhysDevs at hr
    obtain ⟨t, -, hr⟩ := Option.bind_eq_some_iff.1 hr
    obtain ⟨found, -, hr⟩ := Option.bind_eq_some_iff.1 hr
    cases found with
    | some q =>
      obtain ⟨g, -, hr⟩ := Option.bind_eq_some_iff.1 hr
      obtain ⟨k, hk, rfl⟩ := Option.map_eq_some_iff.1 hr
      exact congrArg (· + 1) (ih hk)
    | none =>
      obtain ⟨k, hk, rfl⟩ := Option.map_eq_some_iff.1 hr
      exact congrArg (· + 1) (ih hk)

theorem sortedPhysDevs_length {old : List Handle} {order : DeviceOrder} {req : TermRequests}
    {devices : List PhysicalDeviceTerm} {h : Heap PhysicalDeviceTerm} {r : VkResult × NewPhysDevs}
    (hr : sortedPhysDevs old order req devices h = some r) (hres : r.1 = .success) :
    r.2.newPhysDevs.length = devices.length := by
  obtain ⟨new, h', done, hmake, -, -, -, hlen⟩ := allocObjects_spec req devices.length 0 h
  unfold sortedPhysDevs at hr
  rw [hmake] at hr
  cases done with
  | false =>
    obtain rfl := Option.some.inj hr
    cases hres
  | true =>
    obtain ⟨q, -, hr⟩ := Option.bind_eq_some_iff.1 hr
    split_ifs at hr with hoom
    · obtain rfl := Option.some.inj hr
      rw [hres] at hoom
      cases hoom
    · obtain ⟨k, hk, rfl⟩ := Option.map_eq_some_iff.1 hr
      rw [← hlen rfl, ← List.length_map Prod.fst]
      exact keepOldPhysDevs_length hk

theorem swapPhysDevs_array {s : TermState} {res : VkResult} {n : NewPhysDevs} {r : VkResult × TermState}
    (h : swapPhysDevs s res n = some r) : r.1 = res ∧ (res = .success → r.2.physDevsTerm = n.newPhysDevs) ∧
      (res ≠ .success → r.2.physDevsTerm = s.physDevsTerm ∧ r.2.totalGpuCount = 0) := by
  unfold swapPhysDevs at h
  split_ifs at h with hres
  · obtain ⟨heap, -, rfl⟩ := Option.map_eq_some_iff.1 h
    exact ⟨rfl, fun hok => absurd hok hres, fun _ => ⟨rfl, rfl⟩⟩
  · obtain ⟨heap, -, rfl⟩ := Option.map_eq_some_iff.1 h
    exact ⟨rfl, fun _ => rfl, fun hne => absurd hne hres⟩

/-- After an enumeration there is a list, or the number of devices is not known. -/
theorem setupLoaderTermPhysDevs_array {s : TermState} {c : TermEnumeration} {r : VkResult × TermState}
    (h : setupLoaderTermPhysDevs s c = some r) : (r.1 = .success → r.2.physDevsTerm ≠ []) ∧
      (r.1 ≠ .success → r.2.physDevsTerm = s.physDevsTerm ∧ r.2.totalGpuCount = 0) := by
  have hswap : ∀ q : VkResult × NewPhysDevs, (q.1 = .success → q.2.newPhysDevs ≠ []) →
      swapPhysDevs s q.1 q.2 = some r → (r.1 = .success → r.2.physDevsTerm ≠ []) ∧
        (r.1 ≠ .success → r.2.physDevsTerm = s.physDevsTerm ∧ r.2.totalGpuCount = 0) := by
    intro q hq h
    obtain ⟨hres, hok, hfail⟩ := swapPhysDevs_array h
    rw [hres]
    refine ⟨fun hsuccess => ?_, hfail⟩
    rw [hok hsuccess]
    exact hq hsuccess
  unfold setupLoaderTermPhysDevs at h
  dsimp only at h
  split_ifs at h with hoom hnone hrefused
  · obtain rfl := Option.some.inj h
    refine ⟨fun hok => ?_, fun _ => ⟨rfl, rfl⟩⟩
    rw [hoom] at hok
    cases hok
  · obtain rfl := Option.some.inj h
    exact ⟨nofun, fun _ => ⟨rfl, rfl⟩⟩
  · obtain rfl := Option.some.inj h
    exact ⟨nofun, fun _ => ⟨rfl, rfl⟩⟩
  · split at h
    · obtain ⟨q, hq, h⟩ := Option.bind_eq_some_iff.1 h
      refine hswap q (fun hok hnil => hnone ?_) h
      rw [← sortedPhysDevs_length hq hok, hnil]
      rfl
    · obtain ⟨q, hq, h⟩ := Option.bind_eq_some_iff.1 h
      refine hswap q (fun hok hnil => hnone ?_) h
      have hlen := addPhysDevs_length hq
      rw [hnil, List.length_replicate] at hlen
      exact hlen.symm

end Setup

/-! ### The answers of the drivers -/

section Answers

variable {totalCount : ℕ} {term : TermState}

theorem guardCount_le (count space : ℕ) : guardCount count space ≤ space := by
  unfold guardCount
  split_ifs <;> omega

theorem collectGroups_length {icds : List IcdGroups} {cur : ℕ} {r : Collected}
    (h : collectGroups totalCount icds cur = some r) (hcur : cur ≤ totalCount) :
    cur + r.groups.length ≤ totalCount := by
  induction icds generalizing cur r with
  | nil =>
    obtain rfl := Option.some.inj h
    exact hcur
  | cons icd icds ih =>
    unfold collectGroups at h
    dsimp only at h
    split at h
    · rename_i count _
      have hguard := guardCount_le count (totalCount - cur)
      split at h
      · split_ifs at h with hover
        obtain ⟨q, hq, rfl⟩ := Option.map_eq_some_iff.1 h
        have hrest := ih hq (by omega)
        simp only [List.length_append, List.length_map, List.length_range]
        omega
      · obtain rfl := Option.some.inj h
        exact hcur
    · obtain rfl := Option.some.inj h
      exact hcur

theorem localGroups_length {groups : List GroupProperties} (h : groups.length ≤ totalCount) :
    (localGroups totalCount groups).length = totalCount := by
  unfold localGroups
  rw [List.length_append, List.length_replicate]
  omega

theorem GroupOrder.sort_length (order : GroupOrder) (l : List GroupProperties) : (order.sort l).length = l.length := by
  obtain ⟨l', hdevices, hperm⟩ := order.perm l
  rw [hperm.length_eq, hdevices.length_eq]

theorem mem_of_oldPhysDev {h : Heap PhysicalDeviceTerm} {d p : Handle} {ps : List Handle}
    (hp : oldPhysDev h d ps = some (some p)) : p ∈ ps ∧ (h.get p).isSome := by
  induction ps with
  | nil => cases hp
  | cons q ps ih =>
    unfold oldPhysDev at hp
    obtain ⟨t, ht, hp⟩ := Option.bind_eq_some_iff.1 hp
    split_ifs at hp
    · obtain rfl := Option.some.inj (Option.some.inj hp)
      exact ⟨List.mem_cons_self, by rw [ht]; rfl⟩
    · exact ⟨List.mem_cons_of_mem _ (ih hp).1, (ih hp).2⟩

/-- The terminator's objects are live. -/
theorem termDevices_live {ds ps : List Handle} (h : termDevices term ds = some (some ps)) :
    ps.length = ds.length ∧ ∀ p ∈ ps, p ∈ term.stored ∧ (term.heap.get p).isSome := by
  induction ds generalizing ps with
  | nil =>
    obtain rfl := Option.some.inj (Option.some.inj h)
    exact ⟨rfl, by simp⟩
  | cons d ds ih =>
    unfold termDevices at h
    obtain ⟨found, hfound, h⟩ := Option.bind_eq_some_iff.1 h
    cases found with
    | none => cases h
    | some p =>
      obtain ⟨r, hr, h⟩ := Option.map_eq_some_iff.1 h
      obtain ⟨qs, rfl, rfl⟩ := Option.map_eq_some_iff.1 h
      obtain ⟨hlen, hlive⟩ := ih hr
      refine ⟨congrArg (· + 1) hlen, fun q hq => ?_⟩
      rcases List.mem_cons.1 hq with rfl | hq
      · exact mem_of_oldPhysDev hfound
      · exact hlive q hq

theorem termGroups_live {gs gs' : List GroupProperties} (h : termGroups term gs = some (some gs')) :
    gs'.length = gs.length ∧
      ∀ g ∈ gs', ∀ d ∈ g.physicalDevices, d ∈ term.stored ∧ (term.heap.get d).isSome := by
  induction gs generalizing gs' with
  | nil =>
    obtain rfl := Option.some.inj (Option.some.inj h)
    exact ⟨rfl, by simp⟩
  | cons g gs ih =>
    unfold termGroups at h
    obtain ⟨found, hfound, h⟩ := Option.bind_eq_some_iff.1 h
    cases found with
    | none => cases h
    | some ds =>
      obtain ⟨r, hr, h⟩ := Option.map_eq_some_iff.1 h
      obtain ⟨rest, rfl, rfl⟩ := Option.map_eq_some_iff.1 h
      obtain ⟨hlen, hlive⟩ := ih hr
      refine ⟨congrArg (· + 1) hlen, fun q hq => ?_⟩
      rcases List.mem_cons.1 hq with rfl | hq
      · exact (termDevices_live hfound).2
      · exact hlive q hq

/-- Where the terminator has its list, the groups are as many as were counted and have live devices. -/
theorem answeredGroups_live {c : GroupsCall} {q : VkResult × List GroupProperties}
    (h : answeredGroups c totalCount term = some q) (hterm : term.physDevsTerm ≠ []) (hok : q.1 = .success) :
    q.2.length = totalCount ∧
      ∀ g ∈ q.2, ∀ d ∈ g.physicalDevices, d ∈ term.stored ∧ (term.heap.get d).isSome := by
  unfold answeredGroups at h
  obtain ⟨r, hr, h⟩ := Option.bind_eq_some_iff.1 h
  have hcollected := collectGroups_length hr (Nat.zero_le _)
  rw [Nat.zero_add] at hcollected
  dsimp only at h
  split_ifs at h with hres
  · obtain rfl := Option.some.inj h
    exact absurd hok hres
  · obtain ⟨found, hfound, rfl⟩ := Option.map_eq_some_iff.1 h
    cases found with
    | none => cases hok
    | some groups =>
      obtain ⟨hlen, hlive⟩ := termGroups_live hfound
      refine ⟨hlen.trans ?_, hlive⟩
      split
      · exact localGroups_length hcollected
      · rw [GroupOrder.sort_length]
        exact localGroups_length hcollected

end Answers

/-! ### The new array -/

/-- The memory refuses an object for a group with devices that the old list does not have; `k` is the index of the
first one. -/
def groupRefused (h : Heap GroupProperties) (old : List Handle) (object : ℕ → Option Handle) :
    List GroupProperties → ℕ → Bool
  | [], _ => false
  | g :: gs, k =>
    if g.physicalDevices = [] then groupRefused h old object gs k
    else (oldGroup h g old == some none && (object k).isNone) || groupRefused h old object gs (k + 1)

/-- The group `p` of the old list is taken over for one of the new ones. -/
def TakenOver (h : Heap GroupProperties) (old : List Handle) (gs : List GroupProperties) (p : Handle) : Prop :=
  ∃ g ∈ gs, g.physicalDevices ≠ [] ∧ oldGroup h g old = some (some p)

section Fill

variable {h h' : Heap GroupProperties} {old : List Handle} {object : ℕ → Option Handle} {gs : List GroupProperties}

/-- The entries in use are groups or null. -/
def Allocated (h : Heap GroupProperties) (old : List Handle) : Prop := ∀ p ∈ old, p ≠ nullHandle → (h.get p).isSome

/-- A group of the old list that is taken over has devices of the new one only, and as many. -/
theorem oldGroup_some {g : GroupProperties} {p : Handle} (hp : oldGroup h g old = some (some p)) :
    p ∈ old ∧ ∃ g', h.get p = some g' ∧ g.physicalDevices.length = g'.physicalDevices.length ∧
      ∀ d ∈ g'.physicalDevices, d ∈ g.physicalDevices := by
  induction old with
  | nil => cases hp
  | cons q old ih =>
    unfold oldGroup at hp
    split_ifs at hp with hnull
    · obtain ⟨hmem, hrest⟩ := ih hp
      exact ⟨List.mem_cons_of_mem _ hmem, hrest⟩
    · obtain ⟨g', hget, hp⟩ := Option.bind_eq_some_iff.1 hp
      split_ifs at hp with hsame
      · obtain rfl := Option.some.inj (Option.some.inj hp)
        obtain ⟨hlen, hall⟩ := Bool.and_eq_true_iff.1 hsame
        refine ⟨List.mem_cons_self, g', hget, beq_iff_eq.1 hlen, fun d hd => ?_⟩
        simpa using List.all_eq_true.1 hall d hd
      · obtain ⟨hmem, hrest⟩ := ih hp
        exact ⟨List.mem_cons_of_mem _ hmem, hrest⟩

/-- The old groups can be compared, and new ones do not change what comes out. -/
theorem oldGroup_congr {g : GroupProperties} (hold : Allocated h old)
    (hsub : ∀ p v, h.get p = some v → h'.get p = some v) : oldGroup h' g old = oldGroup h g old := by
  induction old with
  | nil => rfl
  | cons q old ih =>
    have htail := ih fun p hp => hold p (List.mem_cons_of_mem _ hp)
    unfold oldGroup
    split_ifs with hnull
    · exact htail
    · obtain ⟨v, hv⟩ := Option.isSome_iff_exists.1 (hold q List.mem_cons_self hnull)
      rw [hv, hsub q v hv, htail]

/-- The entries that a run of the loop adds for the groups `gs`, and the heap after it. -/
structure Filled (h : Heap GroupProperties) (gs : List GroupProperties) (res : VkResult) (h' : Heap GroupProperties)
    (added : List Handle) : Prop where
  old : ∀ p v, h.get p = some v → h'.get p = some v
  groups : ∀ p ∈ added, ∃ g ∈ gs, g.physicalDevices ≠ [] ∧ ∃ g', h'.get p = some g' ∧ g'.physicalDevices ≠ [] ∧
    ∀ d ∈ g'.physicalDevices, d ∈ g.physicalDevices
  result : res = .success ∨ res = .errorOutOfHostMemory
  complete : res = .success → added.length = (gs.filter (·.physicalDevices ≠ [])).length

/-- **The loop that fills the new array.** -/
theorem fillGroups_filled {new : List Handle} {r : VkResult × Heap GroupProperties × List Handle}
    (hr : fillGroups old object gs h new = some r) : ∃ added, r.2.2 = new ++ added ∧ Filled h gs r.1 r.2.1 added := by
  induction gs generalizing h new with
  | nil =>
    obtain rfl := Option.some.inj hr
    exact ⟨[], (List.append_nil new).symm, fun _ _ hv => hv, by simp, Or.inl rfl, fun _ => rfl⟩
  | cons g gs ih =>
    unfold fillGroups at hr
    split_ifs at hr with hnone
    · obtain ⟨added, hadd, hfilled⟩ := ih hr
      refine ⟨added, hadd, hfilled.old, fun p hp => ?_, hfilled.result, fun hok => ?_⟩
      · obtain ⟨g', hg', hrest⟩ := hfilled.groups p hp
        exact ⟨g', List.mem_cons_of_mem _ hg', hrest⟩
      · rw [List.filter_cons_of_neg (by simpa using hnone)]
        exact hfilled.complete hok
    · -- the group has an entry `p`, and its devices are those of `g` and some more
      have hentry : ∀ p g₁, g₁.physicalDevices ≠ [] → (∀ d ∈ g₁.physicalDevices, d ∈ g.physicalDevices) →
          ∀ h₁ : Heap GroupProperties, (∀ q v, h.get q = some v → h₁.get q = some v) → h₁.get p = some g₁ →
          fillGroups old object gs h₁ (new ++ [p]) = some r →
          ∃ added, r.2.2 = new ++ added ∧ Filled h (g :: gs) r.1 r.2.1 added := by
        intro p g₁ hne hdevices h₁ hsub hget hr
        obtain ⟨added, hadd, hfilled⟩ := ih hr
        refine ⟨p :: added, by rw [hadd, List.append_assoc]; rfl, fun q v hv => hfilled.old q v (hsub q v hv),
          fun q hq => ?_, hfilled.result, fun hok => ?_⟩
        · rcases List.mem_cons.1 hq with rfl | hq
          · exact ⟨g, List.mem_cons_self, hnone, g₁, hfilled.old q g₁ hget, hne, hdevices⟩
          · obtain ⟨g', hg', hrest⟩ := hfilled.groups q hq
            exact ⟨g', List.mem_cons_of_mem _ hg', hrest⟩
        · rw [List.filter_cons_of_pos (by simpa using hnone)]
          exact congrArg (· + 1) (hfilled.complete hok)
      obtain ⟨found, hfound, hr⟩ := Option.bind_eq_some_iff.1 hr
      cases found with
      | some p =>
        obtain ⟨-, g', hget, hlen, hdevices⟩ := oldGroup_some hfound
        refine hentry p g' (fun hnil => hnone ?_) hdevices h (fun _ _ hv => hv) hget hr
        rw [hnil] at hlen
        exact List.length_eq_zero_iff.1 hlen
      | none =>
        dsimp only at hr
        split at hr
        · obtain rfl := Option.some.inj hr
          exact ⟨[], (List.append_nil new).symm, fun _ _ hv => hv, by simp, Or.inr rfl, nofun⟩
        · rename_i wish _
          exact hentry (h.place wish) g hnone (fun _ hd => hd) (h.alloc wish g) (fun _ _ hv => Heap.alloc_get_of_get hv)
            (Heap.alloc_get_self h wish g) hr

/-- The groups that the loop makes are distinct, and were not there. -/
theorem fillGroups_fresh {new : List Handle} {r : VkResult × Heap GroupProperties × List Handle}
    (hr : fillGroups old object gs h new = some r) : ∃ added, r.2.2 = new ++ added ∧
      (added.filter (· ∉ old)).Nodup ∧ ∀ p ∈ added, p ∉ old → h.get p = none := by
  induction gs generalizing h new with
  | nil =>
    obtain rfl := Option.some.inj hr
    exact ⟨[], (List.append_nil new).symm, List.nodup_nil, by simp⟩
  | cons g gs ih =>
    unfold fillGroups at hr
    split_ifs at hr with hnone
    · exact ih hr
    · obtain ⟨found, hfound, hr⟩ := Option.bind_eq_some_iff.1 hr
      cases found with
      | some p =>
        obtain ⟨added, hadd, hnd, hfresh⟩ := ih hr
        have hp : p ∈ old := (oldGroup_some hfound).1
        refine ⟨p :: added, by rw [hadd, List.append_assoc]; rfl, ?_, fun q hq hold => ?_⟩
        · rw [List.filter_cons_of_neg (by simpa using hp)]
          exact hnd
        · rcases List.mem_cons.1 hq with rfl | hq
          · exact absurd hp hold
          · exact hfresh q hq hold
      | none =>
        dsimp only at hr
        split at hr
        · obtain rfl := Option.some.inj hr
          exact ⟨[], (List.append_nil new).symm, List.nodup_nil, by simp⟩
        · rename_i wish _
          obtain ⟨added, hadd, hnd, hfresh⟩ := ih hr
          refine ⟨h.place wish :: added, by rw [hadd, List.append_assoc]; rfl, ?_, fun q hq hold => ?_⟩
          · by_cases hmem : h.place wish ∈ old
            · rw [List.filter_cons_of_neg (by simpa using hmem)]
              exact hnd
            · -- what is made later is made elsewhere
              rw [List.filter_cons_of_pos (by simpa using hmem)]
              refine List.nodup_cons.2 ⟨fun hlater => ?_, hnd⟩
              have hgone := hfresh _ (List.mem_of_mem_filter hlater) hmem
              rw [Heap.alloc_get_self] at hgone
              cases hgone
          · rcases List.mem_cons.1 hq with rfl | hq
            · exact h.get_place wish
            · by_contra hlive
              obtain ⟨v, hv⟩ := Option.ne_none_iff_exists'.1 hlive
              have hgone := hfresh q hq hold
              rw [Heap.alloc_get_of_get hv] at hgone
              cases hgone

theorem takenOver_cons {g : GroupProperties} {p : Handle} : TakenOver h old (g :: gs) p ↔
    (g.physicalDevices ≠ [] ∧ oldGroup h g old = some (some p)) ∨ TakenOver h old gs p := by
  simp [TakenOver]

/-- A group that was there is in the new array exactly if it is taken over. -/
theorem fillGroups_taken (hold : Allocated h old) {h₁ : Heap GroupProperties}
    (hsub : ∀ p v, h.get p = some v → h₁.get p = some v) {new : List Handle}
    {r : VkResult × Heap GroupProperties × List Handle} (hr : fillGroups old object gs h₁ new = some r)
    (hok : r.1 = .success) {p : Handle} (hp : (h.get p).isSome) :
    p ∈ r.2.2 ↔ p ∈ new ∨ TakenOver h old gs p := by
  induction gs generalizing h₁ new with
  | nil =>
    obtain rfl := Option.some.inj hr
    simp [TakenOver]
  | cons g gs ih =>
    rw [takenOver_cons]
    unfold fillGroups at hr
    split_ifs at hr with hnone
    · rw [ih hsub hr]
      simp [hnone]
    · rw [oldGroup_congr hold hsub] at hr
      obtain ⟨found, hfound, hr⟩ := Option.bind_eq_some_iff.1 hr
      cases found with
      | some q =>
        rw [ih hsub hr, hfound, List.mem_append, List.mem_singleton, or_assoc]
        simp [hnone, eq_comm]
      | none =>
        dsimp only at hr
        split at hr
        · obtain rfl := Option.some.inj hr
          cases hok
        · rename_i wish _
          -- the group that is made is another one
          have hne : p ≠ h₁.place wish := by
            rintro rfl
            obtain ⟨v, hv⟩ := Option.isSome_iff_exists.1 hp
            have hget := h₁.get_place wish
            rw [hsub _ v hv] at hget
            cases hget
          rw [ih (fun q v hv => Heap.alloc_get_of_get (hsub q v hv)) hr, hfound, List.mem_append, List.mem_singleton]
          simp [hne]

/-- The loop ends in out of memory exactly if a group is refused. -/
theorem fillGroups_result (hold : Allocated h old) {h₁ : Heap GroupProperties}
    (hsub : ∀ p v, h.get p = some v → h₁.get p = some v) {new : List Handle}
    {r : VkResult × Heap GroupProperties × List Handle} (hr : fillGroups old object gs h₁ new = some r) :
    r.1 = if groupRefused h old object gs new.length then .errorOutOfHostMemory else .success := by
  induction gs generalizing h₁ new with
  | nil =>
    obtain rfl := Option.some.inj hr
    rfl
  | cons g gs ih =>
    unfold fillGroups at hr
    unfold groupRefused
    split_ifs at hr with hnone
    · rw [if_pos hnone]
      exact ih hsub hr
    · rw [if_neg hnone]
      rw [oldGroup_congr hold hsub] at hr
      obtain ⟨found, hfound, hr⟩ := Option.bind_eq_some_iff.1 hr
      rw [hfound]
      cases found with
      | some p =>
        have hrest := ih hsub hr
        rw [List.length_append, List.length_singleton] at hrest
        simpa using hrest
      | none =>
        dsimp only at hr
        split at hr
        · rename_i hobject
          obtain rfl := Option.some.inj hr
          simp [hobject]
        · rename_i wish hobject
          have hrest := ih (fun p v hv => Heap.alloc_get_of_get (hsub p v hv)) hr
          rw [List.length_append, List.length_singleton] at hrest
          simpa [hobject] using hrest

end Fill

end VulkanLoader
