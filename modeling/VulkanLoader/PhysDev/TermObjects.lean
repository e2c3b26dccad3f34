import VulkanLoader.Lib.HeapTable
import VulkanLoader.PhysDev.Terminator

/-!
# What an enumeration does to the terminator's objects

The objects of the list form a table whose keys are the devices.  Both paths make a new table from the reported
devices: an object that has one of these devices is taken over, and the others are made.  The loops of both paths are
specified in these terms, and `setupLoaderTermPhysDevs_outcome` is the step lemma.
-/

namespace VulkanLoader

open Lib

/-- An object with its address. -/
abbrev TermEntry := Handle × PhysicalDeviceTerm

/-- The devices of objects. -/
abbrev termDevicesOf (ws : List TermEntry) : List Handle := Heap.keys PhysicalDeviceTerm.physDev ws

/-- The new entries `new` for the devices `ts` take over the objects of `ws` that have their devices. -/
structure TakesOver (ws : List TermEntry) (ts : List PhysicalDeviceTerm) (new : List TermEntry) : Prop where
  objects : new.map Prod.snd = ts
  origin : ∀ w ∈ new, w.2.physDev ∈ termDevicesOf ws → w ∈ ws

/-- The objects of `ws` belong to the drivers that report their devices in `ts`. -/
def SameOwners (ws : List TermEntry) (ts : List PhysicalDeviceTerm) : Prop :=
  ∀ w ∈ ws, ∀ t ∈ ts, w.2.physDev = t.physDev → w.2 = t

section TakesOver

variable {ws new : List TermEntry} {ts : List PhysicalDeviceTerm} {w : TermEntry}

theorem TakesOver.nil : TakesOver ws [] [] := ⟨rfl, by simp⟩

theorem TakesOver.cons (h : TakesOver ws ts new) (hw : w.2.physDev ∈ termDevicesOf ws → w ∈ ws) :
    TakesOver ws (w.2 :: ts) (w :: new) := by
  refine ⟨congrArg (w.2 :: ·) h.objects, fun v hv hd => ?_⟩
  rcases List.mem_cons.1 hv with rfl | hv
  · exact hw hd
  · exact h.origin v hv hd

theorem TakesOver.keys (h : TakesOver ws ts new) : termDevicesOf new = ts.map (·.physDev) := by
  rw [← h.objects, List.map_map]
  rfl

end TakesOver

/-! ### Looking a device up -/

section Lookup

variable {h : Heap PhysicalDeviceTerm} {ws : List TermEntry}

theorem oldPhysDev_eq (hget : ∀ w ∈ ws, h.get w.1 = some w.2) (d : Handle) :
    oldPhysDev h d (ws.map Prod.fst) = some ((Heap.entryOf PhysicalDeviceTerm.physDev ws d).map Prod.fst) := by
  induction ws with
  | nil => rfl
  | cons w ws ih =>
    have htail := ih fun v hv => hget v (List.mem_cons_of_mem _ hv)
    rw [List.map_cons, oldPhysDev, hget w List.mem_cons_self, Option.bind_some, Heap.entryOf]
    by_cases hd : w.2.physDev = d
    · rw [if_pos hd.symm, List.find?_cons_of_pos (by simpa using hd)]
      rfl
    · rw [if_neg (Ne.symm hd), List.find?_cons_of_neg (by simpa using hd)]
      exact htail

theorem findPhysDev_eq (hget : ∀ w ∈ ws, h.get w.1 = some w.2) (d : Handle) :
    findPhysDev h d (ws.map Prod.fst) = some ((Heap.entryOf PhysicalDeviceTerm.physDev ws d).map Prod.fst) := by
  have hall : (ws.map Prod.fst).filter (· ≠ nullHandle) = ws.map Prod.fst := by
    apply List.filter_eq_self.2
    intro p hp
    obtain ⟨w, hw, rfl⟩ := List.mem_map.1 hp
    exact decide_eq_true (Heap.ne_null_of_get (hget w hw))
  rw [findPhysDev, hall]
  exact oldPhysDev_eq hget d

end Lookup

/-! ### The unsorted path -/

section Unsorted

variable {h : Heap PhysicalDeviceTerm} {ws done : List TermEntry} {t : PhysicalDeviceTerm}

/-- The locals after the entries `done`, where `k` entries are free. -/
def filled (h : Heap PhysicalDeviceTerm) (done : List TermEntry) (k : ℕ) : NewPhysDevs :=
  ⟨h, done.map Prod.fst ++ List.replicate k nullHandle, done.length⟩

theorem set_filled (done : List TermEntry) (k : ℕ) (w : TermEntry) :
    (done.map Prod.fst ++ List.replicate (k + 1) nullHandle).set done.length w.1 =
      (done ++ [w]).map Prod.fst ++ List.replicate k nullHandle := by
  rw [List.set_append_right _ _ (by simp), List.length_map, Nat.sub_self, List.replicate_succ, List.set_cons_zero]
  simp

/-- A reported device: its object is taken over or made, or the request for it fails. -/
theorem checkAndAddToNewPhysDevs_eq (object : ℕ → Option Handle) (k : ℕ) (hget : ∀ w ∈ ws, h.get w.1 = some w.2)
    (hdone : ∀ w ∈ done, h.get w.1 = some w.2) (ht : t.physDev ∉ termDevicesOf done) :
    checkAndAddToNewPhysDevs (ws.map Prod.fst) object t (filled h done (k + 1)) =
      match Heap.entryOf PhysicalDeviceTerm.physDev ws t.physDev, object done.length with
      | some w, _ => some (.success, filled h (done ++ [w]) k)
      | none, none => some (.errorOutOfHostMemory, filled h done (k + 1))
      | none, some wish => some (.success, filled (h.alloc wish t) (done ++ [(h.place wish, t)]) k) := by
  have htake : (done.map Prod.fst ++ List.replicate (k + 1) nullHandle).take done.length = done.map Prod.fst :=
    List.take_left' (by simp)
  have hentry : (done.map Prod.fst ++ List.replicate (k + 1) nullHandle)[done.length]? = some nullHandle := by
    rw [List.getElem?_append_right (by simp)]
    simp
  have hnone : findPhysDev h t.physDev (done.map Prod.fst) = some none := by
    rw [findPhysDev_eq hdone, Heap.entryOf_eq_none_iff.2 ht]
    rfl
  unfold checkAndAddToNewPhysDevs filled
  rw [htake, hnone, Option.bind_some]
  show Option.bind _ _ = _
  rw [findPhysDev_eq hget, Option.bind_some, hentry, Option.bind_some]
  rcases Heap.entryOf PhysicalDeviceTerm.physDev ws t.physDev with _ | w
  · rcases object done.length with _ | wish
    · rfl
    · have hset := set_filled done k (h.place wish, t)
      simp only [Option.map_none, ne_eq, not_true_eq_false, if_false, hset, List.length_append]
      rfl
  · have hset := set_filled done k w
    simp only [Option.map_some, hset, List.length_append]
    rfl

/-- **The unsorted path**, from the entries `done` on. -/
theorem addPhysDevs_spec (object : ℕ → Option Handle) {ts : List PhysicalDeviceTerm} (hws : (termDevicesOf ws).Nodup)
    (hget : ∀ w ∈ ws, h.get w.1 = some w.2) (hdone : ∀ w ∈ done, h.get w.1 = some w.2)
    (hts : (termDevicesOf done ++ ts.map (·.physDev)).Nodup) (howner : SameOwners ws ts) :
    ∃ res new h', addPhysDevs (ws.map Prod.fst) object ts (filled h done ts.length) =
        some (res, filled h' (done ++ new) (ts.length - new.length)) ∧
      Heap.Extends h new h' ∧ TakesOver ws (ts.take new.length) new ∧
      (res = .success ∧ new.length = ts.length ∨ res = .errorOutOfHostMemory) := by
  induction ts generalizing h done with
  | nil => exact ⟨.success, [], h, by simp [addPhysDevs], .nil h, .nil, Or.inl ⟨rfl, rfl⟩⟩
  | cons t ts ih =>
    have ht : t.physDev ∉ termDevicesOf done := by
      intro hd
      exact (List.nodup_append.1 hts).2.2 _ hd _ List.mem_cons_self rfl
    have htail : SameOwners ws ts := fun w hw u hu => howner w hw u (List.mem_cons_of_mem _ hu)
    have hstep := checkAndAddToNewPhysDevs_eq object ts.length hget hdone ht
    -- the rest of the loop, once `t` has its entry `w`
    have hrest : ∀ (w : TermEntry) (g : Heap PhysicalDeviceTerm), w.2 = t → (∀ v ∈ ws, g.get v.1 = some v.2) →
        (∀ v ∈ done ++ [w], g.get v.1 = some v.2) →
        ∃ res new h', addPhysDevs (ws.map Prod.fst) object ts (filled g (done ++ [w]) ts.length) =
            some (res, filled h' (done ++ w :: new) (ts.length - new.length)) ∧
          Heap.Extends g new h' ∧ TakesOver ws (ts.take new.length) new ∧
          (res = .success ∧ new.length = ts.length ∨ res = .errorOutOfHostMemory) := by
      intro w g hw hget hdone
      have hnd : (termDevicesOf (done ++ [w]) ++ ts.map (·.physDev)).Nodup := by
        subst hw
        rw [termDevicesOf, Heap.keys_append, List.append_assoc]
        exact hts
      obtain ⟨res, new, h', hrun, hx, htakes, hres⟩ := ih hget hdone hnd htail
      refine ⟨res, new, h', ?_, hx, htakes, hres⟩
      rw [hrun, List.append_assoc]
      rfl
    rw [List.length_cons, addPhysDevs, hstep]
    rcases hentry : Heap.entryOf PhysicalDeviceTerm.physDev ws t.physDev with _ | w
    · have hnew : t.physDev ∉ termDevicesOf ws := Heap.entryOf_eq_none_iff.1 hentry
      rcases hreq : object done.length with _ | wish
      · exact ⟨.errorOutOfHostMemory, [], h, by simp, .nil h, .nil, Or.inr rfl⟩
      · have hold : ∀ w : TermEntry, h.get w.1 = some w.2 → (h.alloc wish t).get w.1 = some w.2 := fun _ hw =>
          Heap.alloc_get_of_get hw
        obtain ⟨res, new, h', hrun, hx, htakes, hres⟩ := hrest (h.place wish, t) (h.alloc wish t) rfl
          (fun w hw => hold w (hget w hw)) (by
            intro v hv
            rcases List.mem_append.1 hv with hv | hv
            · exact hold v (hdone v hv)
            · obtain rfl := List.mem_singleton.1 hv
              exact Heap.alloc_get_self h wish t)
        refine ⟨res, (h.place wish, t) :: new, h', ?_, hx.make,
          htakes.cons (w := (h.place wish, t)) fun hd => absurd hd hnew, ?_⟩
        · rw [List.length_cons, Nat.add_sub_add_right]
          exact hrun
        · exact hres.imp_left fun hok => ⟨hok.1, congrArg (· + 1) hok.2⟩
    · obtain ⟨hw, hd⟩ := (Heap.entryOf_eq_some_iff hws).1 hentry
      have hwt : w.2 = t := howner w hw t List.mem_cons_self hd
      obtain ⟨res, new, h', hrun, hx, htakes, hres⟩ := hrest w h hwt hget (by
        intro v hv
        rcases List.mem_append.1 hv with hv | hv
        · exact hdone v hv
        · obtain rfl := List.mem_singleton.1 hv
          exact hget _ hw)
      refine ⟨res, w :: new, h', ?_, hx.reuse (hget w hw), ?_, ?_⟩
      · rw [List.length_cons, Nat.add_sub_add_right]
        exact hrun
      · subst hwt
        exact htakes.cons fun _ => hw
      · exact hres.imp_left fun hok => ⟨hok.1, congrArg (· + 1) hok.2⟩

end Unsorted

/-! ### The sorted path -/

section Sorted

variable {h : Heap PhysicalDeviceTerm} {ws : List TermEntry}

/-- The objects of the sorted path are made at free addresses, all before any is freed. -/
theorem allocObjects_spec (req : TermRequests) (k dev : ℕ) (h : Heap PhysicalDeviceTerm) :
    ∃ new h' done, allocObjects req k dev h = (new.map Prod.fst, done, h') ∧ Heap.Extends h new h' ∧
      (new.map Prod.fst).Nodup ∧ (∀ p ∈ new.map Prod.fst, h.get p = none) ∧ (done = true → new.length = k) := by
  induction k generalizing dev h with
  | zero => exact ⟨[], h, true, rfl, .nil h, List.nodup_nil, by simp, fun _ => rfl⟩
  | succ k ih =>
    rcases hreq : req.object dev with _ | wish
    · exact ⟨[], h, false, by simp [allocObjects, hreq], .nil h, List.nodup_nil, by simp, by simp⟩
    · obtain ⟨new, h', done, hrun, hx, hnd, hfree, hlen⟩ := ih (dev + 1) (h.alloc wish (req.contents dev))
      have hfirst : h.place wish ∉ new.map Prod.fst := by
        intro hp
        have hnone := hfree _ hp
        rw [Heap.alloc_get_self] at hnone
        cases hnone
      refine ⟨(h.place wish, req.contents dev) :: new, h', done, ?_, hx.make, List.nodup_cons.2 ⟨hfirst, hnd⟩, ?_,
        fun hdone => congrArg (· + 1) (hlen hdone)⟩
      · rw [allocObjects, hreq]
        simp only [hrun]
        rfl
      · intro p hp
        rcases List.mem_cons.1 hp with rfl | hp
        · exact Heap.get_place h wish
        · rw [← Heap.alloc_get_of_ne (v := req.contents dev) fun he => hfirst (he ▸ hp)]
          exact hfree p hp

/-- Made objects give way to old ones of the same devices; `done` are the entries before. -/
theorem keepOldPhysDevs_spec {todo done : List TermEntry} {g : Heap PhysicalDeviceTerm}
    (hws : (termDevicesOf ws).Nodup) (hget : ∀ w ∈ ws, h.get w.1 = some w.2) (hx : Heap.Extends h (todo ++ done) g)
    (hnd : (termDevicesOf (todo ++ done)).Nodup) (hmade : ∀ w ∈ todo, h.get w.1 = none)
    (howner : SameOwners ws (todo.map Prod.snd)) :
    ∃ new h', keepOldPhysDevs (ws.map Prod.fst) (todo.map Prod.fst) g = some (new.map Prod.fst, h') ∧
      Heap.Extends h (new ++ done) h' ∧ TakesOver ws (todo.map Prod.snd) new := by
  induction todo generalizing done g with
  | nil => exact ⟨[], g, rfl, hx, .nil⟩
  | cons w todo ih =>
    have hlook : oldPhysDev g w.2.physDev (ws.map Prod.fst) =
        some ((Heap.entryOf PhysicalDeviceTerm.physDev ws w.2.physDev).map Prod.fst) :=
      oldPhysDev_eq (fun v hv => hx.get_old _ _ (hget v hv)) _
    have hmade' : ∀ v ∈ todo, h.get v.1 = none := fun v hv => hmade v (List.mem_cons_of_mem _ hv)
    have howner' : SameOwners ws (todo.map Prod.snd) := fun v hv t ht =>
      howner v hv t (List.mem_cons_of_mem _ ht)
    have hmove : ∀ v : TermEntry, (v :: (todo ++ done)).Perm (todo ++ v :: done) := fun v => List.perm_middle.symm
    rw [List.map_cons, keepOldPhysDevs, hx.get_new w List.mem_cons_self, Option.bind_some, hlook, Option.bind_some]
    rcases hentry : Heap.entryOf PhysicalDeviceTerm.physDev ws w.2.physDev with _ | v
    · obtain ⟨new, h', hrun, hx', htakes⟩ := ih (hx.perm (hmove w)) (Heap.nodup_keys_perm (hmove w) hnd) hmade' howner'
      refine ⟨w :: new, h', by simp only [Option.map_none, hrun]; rfl, hx'.perm List.perm_middle, htakes.cons ?_⟩
      intro hd
      exact absurd hd (Heap.entryOf_eq_none_iff.1 hentry)
    · obtain ⟨hv, hd⟩ := (Heap.entryOf_eq_some_iff hws).1 hentry
      have hvw : v.2 = w.2 := howner v hv w.2 List.mem_cons_self hd
      have hfirst : w.1 ∉ (todo ++ done).map Prod.fst := (List.nodup_cons.1 (Heap.nodup_fst hx.get_new hnd)).1
      obtain ⟨g', hfree, hx'⟩ := hx.free_head (hmade w List.mem_cons_self) hfirst
      have hx'' := (hx'.reuse (hget v hv)).perm (hmove v)
      have hnd' : (termDevicesOf (v :: (todo ++ done))).Nodup := by
        rw [termDevicesOf, Heap.keys_cons, hd]
        exact hnd
      obtain ⟨new, h', hrun, hx', htakes⟩ := ih hx'' (Heap.nodup_keys_perm (hmove v) hnd') hmade' howner'
      refine ⟨v :: new, h', by simp only [Option.map_some, hfree, Option.bind_some, hrun]; rfl,
        hx'.perm List.perm_middle, ?_⟩
      rw [List.map_cons, ← hvw]
      exact htakes.cons fun _ => hv

/-- **The sorted path.** -/
theorem sortedPhysDevs_spec (order : DeviceOrder) (req : TermRequests) {ts : List PhysicalDeviceTerm}
    (hws : (termDevicesOf ws).Nodup) (hget : ∀ w ∈ ws, h.get w.1 = some w.2) (hts : (ts.map (·.physDev)).Nodup)
    (howner : SameOwners ws ts) :
    ∃ res new h' nulls count, sortedPhysDevs (ws.map Prod.fst) order req ts h =
        some (res, ⟨h', new.map Prod.fst ++ List.replicate nulls nullHandle, count⟩) ∧
      Heap.Extends h new h' ∧ (new.map Prod.fst).Nodup ∧
      (res = .success ∧ TakesOver ws (order.sort ts) new ∧ count = new.length ∨ res = .errorOutOfHostMemory) := by
  obtain ⟨made, g, done, hmake, hx, hnd, hfree, hlen⟩ := allocObjects_spec req ts.length 0 h
  unfold sortedPhysDevs
  rw [hmake]
  cases done with
  | false => exact ⟨_, made, g, ts.length - made.length, 0, by simp, hx, hnd, Or.inr rfl⟩
  | true =>
    have hperm := order.perm ts
    have hlen : made.length = (order.sort ts).length := (hlen rfl).trans hperm.length_eq.symm
    by_cases hinfo : req.sortedDeviceInfo = false
    · refine ⟨.errorOutOfHostMemory, made, g, 0, 0, ?_, hx, hnd, Or.inr rfl⟩
      simp [linuxReadSortedPhysicalDevices, hinfo]
    · -- the made objects get their devices
      have hfst : ((made.map Prod.fst).zip (order.sort ts)).map Prod.fst = made.map Prod.fst :=
        List.map_fst_zip (by rw [List.length_map]; omega)
      have hsnd : ((made.map Prod.fst).zip (order.sort ts)).map Prod.snd = order.sort ts :=
        List.map_snd_zip (by rw [List.length_map]; omega)
      obtain ⟨g', hput, hx'⟩ := hx.putAll hfst hnd hfree
      have hkeys : (termDevicesOf ((made.map Prod.fst).zip (order.sort ts))).Nodup := by
        have hmap : termDevicesOf ((made.map Prod.fst).zip (order.sort ts)) = (order.sort ts).map (·.physDev) := by
          rw [← hsnd, List.map_map, hsnd]
          rfl
        rw [hmap]
        exact (hperm.map _).nodup_iff.2 hts
      have hmade : ∀ w ∈ (made.map Prod.fst).zip (order.sort ts), h.get w.1 = none := fun w hw =>
        hfree w.1 (hfst ▸ List.mem_map.2 ⟨w, hw, rfl⟩)
      rw [← List.append_nil ((made.map Prod.fst).zip (order.sort ts))] at hx' hkeys
      obtain ⟨new, h', hrun, hx'', htakes⟩ := keepOldPhysDevs_spec hws hget hx' hkeys hmade (by
        rw [hsnd]
        exact fun w hw t ht => howner w hw t (hperm.mem_iff.1 ht))
      rw [hfst] at hrun
      rw [hsnd] at htakes
      rw [List.append_nil] at hx''
      have hkeys' : (termDevicesOf new).Nodup := by
        rw [htakes.keys]
        exact (hperm.map _).nodup_iff.2 hts
      refine ⟨.success, new, h', 0, ts.length, ?_, hx'', Heap.nodup_fst hx''.get_new hkeys', Or.inl ⟨rfl, htakes, ?_⟩⟩
      · simp only [linuxReadSortedPhysicalDevices, if_neg hinfo, hput, Option.map_some, Option.bind_some, hrun]
        simp
      · rw [← hperm.length_eq, ← htakes.objects, List.length_map]

end Sorted

/-! ### The step lemma -/

/-- `phys_devs_term` holds the objects `ws`, and these are all there are. -/
structure TermState.Stores (s : TermState) (ws : List TermEntry) : Prop where
  stored : s.stored = ws.map Prod.fst
  count : s.physDevCountTerm = ws.length
  holds : Heap.Holds PhysicalDeviceTerm.physDev s.heap ws

/-- **The ways through `setup_loader_term_phys_devs`** from a state that stores `ws`, where the drivers report the
devices `ts`. -/
inductive TermOutcome (s : TermState) (ws : List TermEntry) (ts : List PhysicalDeviceTerm) :
    VkResult × TermState → List TermEntry → Prop
  /-- A driver or a request fails, or there is no device; what was made in this call is freed. -/
  | failed (res : VkResult) (s' : TermState) (hres : res ≠ .success) (harray : s'.physDevsTerm = s.physDevsTerm)
      (hcount : s'.physDevCountTerm = s.physDevCountTerm) (hget : ∀ a, s'.heap.get a = s.heap.get a)
      (l : List Handle) (hfreed : s'.heap.freed = s.heap.freed ++ l) (hl : ∀ p ∈ l, s.heap.get p = none) :
      TermOutcome s ws ts (res, s') ws
  /-- The array is replaced. -/
  | replaced (new : List TermEntry) (s' : TermState) (hobjects : (new.map Prod.snd).Perm ts)
      (horigin : ∀ w ∈ new, w.2.physDev ∈ termDevicesOf ws → w ∈ ws)
      (hkept : ∀ w ∈ ws, w.1 ∈ new.map Prod.fst → w ∈ new) (hstores : s'.Stores new) (l : List Handle)
      (hfreed : s'.heap.freed = s.heap.freed ++ (l ++ (ws.filter (· ∉ new)).map Prod.fst))
      (hl : ∀ p ∈ l, s.heap.get p = none ∧ p ∉ new.map Prod.fst) : TermOutcome s ws ts (.success, s') new

section Step

variable {s : TermState} {ws new : List TermEntry} {ts : List PhysicalDeviceTerm} {h : Heap PhysicalDeviceTerm}

theorem filter_ne_null_append (hget : ∀ w ∈ new, h.get w.1 = some w.2) (nulls : ℕ) :
    (new.map Prod.fst ++ List.replicate nulls nullHandle).filter (· ≠ nullHandle) = new.map Prod.fst := by
  rw [List.filter_append, List.filter_eq_self.2, List.filter_eq_nil_iff.2, List.append_nil]
  · intro p hp
    simp [List.eq_of_mem_replicate hp]
  · intro p hp
    obtain ⟨w, hw, rfl⟩ := List.mem_map.1 hp
    exact decide_eq_true (Heap.ne_null_of_get (hget w hw))

theorem swapPhysDevs_failed {res : VkResult} (hres : res ≠ .success) (hs : s.Stores ws) (hx : Heap.Extends s.heap new h)
    (hnd : (new.map Prod.fst).Nodup) (nulls count : ℕ) :
    ∃ r, swapPhysDevs s res ⟨h, new.map Prod.fst ++ List.replicate nulls nullHandle, count⟩ = some r ∧
      TermOutcome s ws ts r ws := by
  obtain ⟨h', l, hfree, hget, hlog, hl⟩ := hx.freeAll_failed hs.holds hnd 0
  rw [List.replicate_zero, List.append_nil] at hfree
  refine ⟨(res, { s with heap := h', totalGpuCount := 0 }), ?_, .failed _ _ hres rfl rfl hget l hlog hl⟩
  unfold swapPhysDevs
  rw [if_pos hres, filter_ne_null_append hx.get_new, hs.stored, hfree, Option.map_some]

theorem swapPhysDevs_success (hs : s.Stores ws) (hx : Heap.Extends s.heap new h) (hperm : (new.map Prod.snd).Perm ts)
    (horigin : ∀ w ∈ new, w.2.physDev ∈ termDevicesOf ws → w ∈ ws) (hts : (ts.map (·.physDev)).Nodup) (nulls : ℕ) :
    ∃ r, swapPhysDevs s .success ⟨h, new.map Prod.fst ++ List.replicate nulls nullHandle, new.length⟩ = some r ∧
      TermOutcome s ws ts r new := by
  have hkeys : (termDevicesOf new).Nodup := by
    have hmap : termDevicesOf new = (new.map Prod.snd).map (·.physDev) := by
      rw [List.map_map]
      rfl
    rw [hmap]
    exact (hperm.map _).nodup_iff.2 hts
  have htake : (new.map Prod.fst ++ List.replicate nulls nullHandle).take new.length = new.map Prod.fst :=
    List.take_left' (List.length_map _)
  obtain ⟨h', l, hfree, hholds, hlog, hl⟩ := hx.freeAll_replaced hs.holds hkeys 0
  rw [List.replicate_zero, List.append_nil] at hfree
  refine ⟨(.success, ⟨h', new.map Prod.fst ++ List.replicate nulls nullHandle, new.length, new.length⟩), ?_,
    .replaced new _ hperm horigin (fun w hw => hx.mem_of_fst_mem (hs.holds.get w hw)) ⟨htake, rfl, hholds⟩ l hlog hl⟩
  unfold swapPhysDevs
  rw [if_neg (by decide), htake, hs.stored, hfree, Option.map_some]

/-- The devices that the drivers report in an enumeration. -/
def TermEnumeration.devices (c : TermEnumeration) : List PhysicalDeviceTerm :=
  reportedDevices (queryIcds c.icds .success).2

/-- `setup_loader_term_phys_devs`, in terms of the reported devices. -/
theorem setupLoaderTermPhysDevs_eq (s : TermState) (c : TermEnumeration) :
    setupLoaderTermPhysDevs s c =
      if (queryIcds c.icds .success).1 = .errorOutOfHostMemory then
        some ((queryIcds c.icds .success).1, { s with totalGpuCount := 0 })
      else if c.devices.length = 0 then some (.errorInitializationFailed, { s with totalGpuCount := 0 })
      else if c.req.newPhysDevs = false then some (.errorOutOfHostMemory, { s with totalGpuCount := 0 })
      else
        match c.linuxSort with
        | some order => (sortedPhysDevs s.stored order c.req c.devices s.heap).bind fun r => swapPhysDevs s r.1 r.2
        | none => (addPhysDevs s.stored c.req.object c.devices (filled s.heap [] c.devices.length)).bind fun r =>
            swapPhysDevs s r.1 r.2 := rfl

/-- **The step lemma**: an enumeration of distinct devices, none of which another driver had before, is defined, and
takes one of the two ways. -/
theorem setupLoaderTermPhysDevs_outcome {c : TermEnumeration} (hs : s.Stores ws)
    (hdevices : (c.devices.map (·.physDev)).Nodup) (howner : SameOwners ws c.devices) :
    ∃ r ws', setupLoaderTermPhysDevs s c = some r ∧ TermOutcome s ws c.devices r ws' := by
  have hfail : ∀ res, res ≠ .success → TermOutcome s ws c.devices (res, { s with totalGpuCount := 0 }) ws :=
    fun res hres => .failed _ _ hres rfl rfl (fun _ => rfl) [] (List.append_nil _).symm (by simp)
  have hoomNe : VkResult.errorOutOfHostMemory ≠ .success := by decide
  rw [setupLoaderTermPhysDevs_eq]
  split_ifs with hoom hempty harray
  · refine ⟨_, ws, rfl, hfail _ ?_⟩
    rw [hoom]
    decide
  · exact ⟨_, ws, rfl, hfail _ (by decide)⟩
  · exact ⟨_, ws, rfl, hfail _ (by decide)⟩
  · rw [hs.stored]
    rcases c.linuxSort with _ | order
    · have hnone : ∀ w ∈ ([] : List TermEntry), s.heap.get w.1 = some w.2 := by simp
      obtain ⟨res, new, h', hrun, hx, htakes, hres⟩ :=
        addPhysDevs_spec c.req.object hs.holds.nodup hs.holds.get hnone hdevices howner
      simp only [hrun, Option.bind_some]
      rcases hres with ⟨rfl, hlen⟩ | rfl
      · rw [hlen, List.take_length] at htakes
        obtain ⟨r, hr, hout⟩ := swapPhysDevs_success hs hx (List.Perm.of_eq htakes.objects) htakes.origin hdevices
          (c.devices.length - new.length)
        exact ⟨r, new, hr, hout⟩
      · have hkeys : (termDevicesOf new).Nodup := by
          rw [htakes.keys]
          exact hdevices.sublist ((List.take_sublist _ _).map _)
        obtain ⟨r, hr, hout⟩ := swapPhysDevs_failed hoomNe hs hx (Heap.nodup_fst hx.get_new hkeys)
          (c.devices.length - new.length) new.length
        exact ⟨r, ws, hr, hout⟩
    · obtain ⟨res, new, h', nulls, count, hrun, hx, hnd, hres⟩ :=
        sortedPhysDevs_spec order c.req hs.holds.nodup hs.holds.get hdevices howner
      simp only [hrun, Option.bind_some]
      rcases hres with ⟨rfl, htakes, rfl⟩ | rfl
      · have hperm : (new.map Prod.snd).Perm c.devices := htakes.objects ▸ order.perm c.devices
        obtain ⟨r, hr, hout⟩ := swapPhysDevs_success hs hx hperm htakes.origin hdevices nulls
        exact ⟨r, new, hr, hout⟩
      · obtain ⟨r, hr, hout⟩ := swapPhysDevs_failed hoomNe hs hx hnd nulls count
        exact ⟨r, ws, hr, hout⟩

end Step

end VulkanLoader
