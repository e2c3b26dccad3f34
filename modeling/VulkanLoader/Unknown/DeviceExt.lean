import Mathlib.Logic.Function.Basic
import VulkanLoader.Layers.Properties
import VulkanLoader.Lib.Lists
import VulkanLoader.Lib.Runs

/-!
# Unknown device functions

The loader has trampolines for functions that it does not know.  The name of such a function is recorded when it is
first asked for, and its index is the place of its address in the dispatch tables of all devices: a new name is looked
up for every device in the lists of the drivers, and a new device looks up every name.

A device is put into the list of its driver by the terminator of `vkCreateDevice`, but its dispatch table is filled only
after the call came back through the layers.
-/

namespace VulkanLoader

open Lib

/-- `MAX_NUM_UNKNOWN_EXTS`. -/
def maxNumUnknownExts : ℕ := 250

/-- A place in `ext_dispatch`. -/
inductive DevExt where
  | null
  | vkDevExtError
  | function (address : ℕ)
  deriving DecidableEq

/-- `struct loader_device`; its `GetDeviceProcAddr`, with `chain_device` as its argument, is NULL until the dispatch
table is filled. -/
structure LoaderDevice where
  device : ℕ
  getDeviceProcAddr : Option (String → Option ℕ)
  extDispatch : ℕ → DevExt

/-- What the loader keeps of unknown device functions: `dev_ext_disp_functions`, up to `dev_ext_disp_function_count`,
and the `logical_device_list` of each driver. -/
structure DevExtTables where
  names : List String
  icdTerms : List (List LoaderDevice)

/-- A request for an unknown device function: by which query, whether each driver has it, whether the first layer has
it, if there is one with a `vkGetInstanceProcAddr`, and whether there is memory for the name. -/
structure DevExtQuery where
  isTramp : Bool
  funcName : String
  icdAnswers : List Bool
  firstLayerAnswer : Option Bool
  memory : Bool

/-- `loader_create_logical_device`. -/
def loaderCreateLogicalDevice (device : ℕ) : LoaderDevice := ⟨device, none, fun _ => .null⟩

/-- `loader_add_logical_device`. -/
def loaderAddLogicalDevice (icd device : ℕ) (icdTerms : List (List LoaderDevice)) : List (List LoaderDevice) :=
  icdTerms.modify icd (loaderCreateLogicalDevice device :: ·)

/-- The device is unlinked from the first driver that has it, by `loader_remove_logical_device` or where its creation
fails. -/
def unlinkLogicalDevice (device : ℕ) : List (List LoaderDevice) → List (List LoaderDevice)
  | [] => []
  | devices :: icdTerms =>
    if devices.any fun d => d.device == device then devices.eraseP (fun d => d.device == device) :: icdTerms
    else devices :: unlinkLogicalDevice device icdTerms

/-- `loader_init_dispatch_dev_ext_entry` for one device, given its `GetDeviceProcAddr`. -/
def loaderInitDispatchDevExtEntry (gdpa : String → Option ℕ) (idx : ℕ) (funcName : String)
    (extDispatch : ℕ → DevExt) : ℕ → DevExt :=
  match gdpa funcName with
  | none => extDispatch
  | some address => Function.update extDispatch idx (.function address)

/-- The same for a device of the list; `none` is a call of NULL. -/
def LoaderDevice.initEntry (idx : ℕ) (funcName : String) (d : LoaderDevice) : Option LoaderDevice :=
  d.getDeviceProcAddr.map fun gdpa =>
    { d with extDispatch := loaderInitDispatchDevExtEntry gdpa idx funcName d.extDispatch }

/-- `loader_init_dispatch_dev_ext`, from the index `idx` on. -/
def loaderInitDispatchDevExt (gdpa : String → Option ℕ) : List String → ℕ → (ℕ → DevExt) → ℕ → DevExt
  | [], _, extDispatch => extDispatch
  | funcName :: names, idx, extDispatch =>
    loaderInitDispatchDevExt gdpa names (idx + 1) (loaderInitDispatchDevExtEntry gdpa idx funcName extDispatch)

/-- `loader_check_icds_for_dev_ext_address`. -/
def loaderCheckIcdsForDevExtAddress (q : DevExtQuery) : Bool := q.icdAnswers.any id

/-- `loader_check_layer_list_for_dev_ext_address`. -/
def loaderCheckLayerListForDevExtAddress (layers : List LayerProperties) (q : DevExtQuery) : Bool :=
  (layers.any fun p => p.deviceExtensionList.list.any fun e => e.entrypoints.contains q.funcName) ||
    (!layers.isEmpty && q.firstLayerAnswer.getD false)

/-- `loader_dev_ext_gpa_impl`: the index of the trampoline that it returns, and the tables. -/
def loaderDevExtGpaImpl (layers : List LayerProperties) (s : DevExtTables) (q : DevExtQuery) :
    Option (Option ℕ × DevExtTables) :=
  match s.names.idxOf? q.funcName with
  | some i => some (some i, s)
  | none =>
    if !loaderCheckIcdsForDevExtAddress q && (!q.isTramp || !loaderCheckLayerListForDevExtAddress layers q) then
      some (none, s)
    else if s.names.length ≥ maxNumUnknownExts then some (none, s)
    else if !q.memory then some (none, s)
    else
      (s.icdTerms.mapM fun devices : List LoaderDevice => devices.mapM (LoaderDevice.initEntry s.names.length q.funcName)).map
        fun icdTerms => (some s.names.length, ⟨s.names ++ [q.funcName], icdTerms⟩)

/-- `loader_init_device_dispatch_table` and then `loader_init_dispatch_dev_ext`, for a device that the calls down the
chain created. -/
def LoaderDevice.fill (names : List String) (gdpa : String → Option ℕ) (d : LoaderDevice) : LoaderDevice :=
  { d with
    getDeviceProcAddr := some gdpa
    extDispatch := loaderInitDispatchDevExt gdpa names 0 fun _ => .vkDevExtError }

/-- What happens to the tables: a query; a device linked by the terminator, then filled, or given up because its
creation fails on the way back; a device destroyed. -/
inductive DevExtEvent where
  | query (q : DevExtQuery)
  | terminatorCreateDevice (icd device : ℕ)
  | fillDevice (device : ℕ) (gdpa : String → Option ℕ)
  | creationFails (device : ℕ)
  | destroyDevice (device : ℕ)

/-- A step; `none` once NULL was called. -/
def devExtStep (layers : List LayerProperties) (s : Option DevExtTables) (e : DevExtEvent) : Option DevExtTables :=
  s.bind fun s =>
    match e with
    | .query q => (loaderDevExtGpaImpl layers s q).map Prod.snd
    | .terminatorCreateDevice icd device =>
      some { s with icdTerms := loaderAddLogicalDevice icd device s.icdTerms }
    | .fillDevice device gdpa =>
      some { s with
        icdTerms := s.icdTerms.map fun devices =>
          devices.map fun d => if d.device = device then d.fill s.names gdpa else d }
    | .creationFails device => some { s with icdTerms := unlinkLogicalDevice device s.icdTerms }
    | .destroyDevice device => some { s with icdTerms := unlinkLogicalDevice device s.icdTerms }

namespace DevExtTables

/-- A new instance. -/
def init (icds : ℕ) : DevExtTables := ⟨[], List.replicate icds []⟩

/-- The devices in the lists. -/
def devices (s : DevExtTables) : List LoaderDevice := s.icdTerms.flatten

end DevExtTables

/-- What the address that `vkGetDeviceProcAddr` returns makes of a place in the table, where the error function stands
as long as there is none. -/
def DevExt.ofAnswer : Option ℕ → DevExt
  | none => .vkDevExtError
  | some address => .function address

/-- **The tables agree with the names**: the names are distinct, they fit in the tables, and every device that was
filled has at the index of each name what its own `vkGetDeviceProcAddr` returns for it, and nothing else. -/
structure DevExtTables.Agree (s : DevExtTables) : Prop where
  nodup : s.names.Nodup
  fits : s.names.length ≤ maxNumUnknownExts
  dispatch : ∀ d ∈ s.devices, ∀ gdpa, d.getDeviceProcAddr = some gdpa → ∀ i : ℕ,
    d.extDispatch i = .ofAnswer (s.names[i]?.bind gdpa)

/-- A step calls no NULL, keeps the index of each name, answers a query for a name that it has with the trampoline of
that index, and leaves tables that agree. -/
def KeepsTables (layers : List LayerProperties) (s : Option DevExtTables) (e : DevExtEvent) : Prop :=
  ∃ t t', s = some t ∧ devExtStep layers s e = some t' ∧ t.names <+: t'.names ∧ t'.Agree ∧
    ∀ q, e = .query q → ∀ i, t.names[i]? = some q.funcName → loaderDevExtGpaImpl layers t q = some (some i, t)

/-- The query records a new name. -/
def DevExtTables.Records (layers : List LayerProperties) (s : DevExtTables) (q : DevExtQuery) : Prop :=
  q.funcName ∉ s.names ∧
    (loaderCheckIcdsForDevExtAddress q = true ∨
      (q.isTramp = true ∧ loaderCheckLayerListForDevExtAddress layers q = true)) ∧
    s.names.length < maxNumUnknownExts ∧ q.memory = true

/-- No name is recorded while a device is between the two steps of its creation. -/
def NoneHalfCreated (layers : List LayerProperties) (s : Option DevExtTables) (e : DevExtEvent) : Prop :=
  ∀ t q, s = some t → e = .query q → t.Records layers q → ∀ d ∈ t.devices, d.getDeviceProcAddr.isSome

/-! ### The tables of one device -/

section Entries

variable {gdpa : String → Option ℕ} {names : List String} {idx : ℕ} {extDispatch : ℕ → DevExt}

theorem loaderInitDispatchDevExtEntry_of_ne (funcName : String) {i : ℕ} (hne : i ≠ idx) :
    loaderInitDispatchDevExtEntry gdpa idx funcName extDispatch i = extDispatch i := by
  unfold loaderInitDispatchDevExtEntry
  rcases gdpa funcName with _ | address
  · rfl
  · exact Function.update_of_ne hne _ _

theorem loaderInitDispatchDevExtEntry_self (funcName : String) (herror : extDispatch idx = .vkDevExtError) :
    loaderInitDispatchDevExtEntry gdpa idx funcName extDispatch idx = .ofAnswer (gdpa funcName) := by
  unfold loaderInitDispatchDevExtEntry
  rcases gdpa funcName with _ | address
  · exact herror
  · exact Function.update_self _ _ _

theorem loaderInitDispatchDevExt_of_lt {i : ℕ} (hlt : i < idx) :
    loaderInitDispatchDevExt gdpa names idx extDispatch i = extDispatch i := by
  induction names generalizing idx extDispatch with
  | nil => rfl
  | cons name names ih =>
    unfold loaderInitDispatchDevExt
    rw [ih (by omega), loaderInitDispatchDevExtEntry_of_ne _ (by omega)]

theorem loaderInitDispatchDevExt_add (herror : ∀ i, idx ≤ i → extDispatch i = .vkDevExtError) (i : ℕ) :
    loaderInitDispatchDevExt gdpa names idx extDispatch (idx + i) = .ofAnswer (names[i]?.bind gdpa) := by
  induction names generalizing idx extDispatch i with
  | nil => exact herror _ (by omega)
  | cons name names ih =>
    unfold loaderInitDispatchDevExt
    rcases i with _ | i
    · rw [loaderInitDispatchDevExt_of_lt (by omega)]
      exact loaderInitDispatchDevExtEntry_self name (herror _ (by omega))
    · rw [show idx + (i + 1) = idx + 1 + i by omega]
      refine ih (fun j hj => ?_) i
      rw [loaderInitDispatchDevExtEntry_of_ne _ (by omega)]
      exact herror j (by omega)

/-- A device that is filled has what its `vkGetDeviceProcAddr` returns for each name. -/
theorem LoaderDevice.fill_extDispatch (d : LoaderDevice) (i : ℕ) :
    (d.fill names gdpa).extDispatch i = .ofAnswer (names[i]?.bind gdpa) := by
  have h : loaderInitDispatchDevExt gdpa names 0 (fun _ => .vkDevExtError) (0 + i) = _ :=
    loaderInitDispatchDevExt_add (fun _ _ => rfl) i
  rwa [Nat.zero_add] at h

/-- A new name is looked up for a device that was filled. -/
theorem LoaderDevice.initEntry_extDispatch {d d' : LoaderDevice} {name : String}
    (h : d.initEntry names.length name = some d')
    (hd : ∀ gdpa, d.getDeviceProcAddr = some gdpa → ∀ i : ℕ, d.extDispatch i = .ofAnswer (names[i]?.bind gdpa)) :
    ∀ gdpa, d'.getDeviceProcAddr = some gdpa → ∀ i : ℕ, d'.extDispatch i = .ofAnswer ((names ++ [name])[i]?.bind gdpa) := by
  obtain ⟨gdpa', hgdpa, rfl⟩ := Option.map_eq_some_iff.1 h
  intro gdpa heq i
  obtain rfl : gdpa' = gdpa := Option.some.inj (hgdpa.symm.trans heq)
  by_cases hi : i = names.length
  · subst hi
    rw [List.getElem?_concat_length, Option.bind_some]
    apply loaderInitDispatchDevExtEntry_self
    rw [hd _ hgdpa, List.getElem?_eq_none (Nat.le_refl _)]
    rfl
  · show loaderInitDispatchDevExtEntry _ _ _ _ _ = _
    rw [loaderInitDispatchDevExtEntry_of_ne _ hi, hd _ hgdpa]
    by_cases hlt : i < names.length
    · rw [List.getElem?_append_left hlt]
    · rw [List.getElem?_eq_none (by omega), List.getElem?_eq_none (by simp; omega)]

end Entries

/-! ### One step -/

section Step

variable {layers : List LayerProperties} {s : DevExtTables}

theorem DevExtTables.Agree.init (icds : ℕ) : (DevExtTables.init icds).Agree := by
  refine ⟨List.nodup_nil, Nat.zero_le _, fun d hd => ?_⟩
  simp [DevExtTables.init, DevExtTables.devices] at hd

/-- Other devices, or the devices changed one by one. -/
theorem DevExtTables.Agree.devices {icdTerms : List (List LoaderDevice)} (h : s.Agree)
    (hd : ∀ d ∈ icdTerms.flatten, d ∈ s.devices ∨ d.getDeviceProcAddr = none ∨
      ∃ (d₀ : LoaderDevice) (gdpa : String → Option ℕ), d = d₀.fill s.names gdpa) : { s with icdTerms := icdTerms }.Agree := by
  refine ⟨h.nodup, h.fits, fun d hmem gdpa hgdpa i => ?_⟩
  rcases hd d hmem with hmem | hnone | ⟨d₀, gdpa', rfl⟩
  · exact h.dispatch d hmem gdpa hgdpa i
  · rw [hnone] at hgdpa
    cases hgdpa
  · obtain rfl := Option.some.inj hgdpa
    exact d₀.fill_extDispatch i

theorem mem_unlinkLogicalDevice {device : ℕ} {icdTerms : List (List LoaderDevice)} {d : LoaderDevice}
    (h : d ∈ (unlinkLogicalDevice device icdTerms).flatten) : d ∈ icdTerms.flatten := by
  induction icdTerms with
  | nil => exact h
  | cons devices icdTerms ih =>
    unfold unlinkLogicalDevice at h
    rw [List.flatten_cons, List.mem_append]
    split_ifs at h with hfound
    · rw [List.flatten_cons, List.mem_append] at h
      exact h.imp_left List.mem_of_mem_eraseP
    · rw [List.flatten_cons, List.mem_append] at h
      exact h.imp_right ih

/-- A query for a name that is recorded. -/
theorem loaderDevExtGpaImpl_of_mem (h : s.names.Nodup) {q : DevExtQuery} {i : ℕ}
    (hi : s.names[i]? = some q.funcName) : loaderDevExtGpaImpl layers s q = some (some i, s) := by
  unfold loaderDevExtGpaImpl
  rw [(idxOf?_eq_some_iff_getElem? h).2 hi]

/-- The test of a query that is not for a recorded name. -/
theorem supported_iff {q : DevExtQuery} :
    (!loaderCheckIcdsForDevExtAddress q && (!q.isTramp || !loaderCheckLayerListForDevExtAddress layers q)) = false ↔
      (loaderCheckIcdsForDevExtAddress q = true ∨
        (q.isTramp = true ∧ loaderCheckLayerListForDevExtAddress layers q = true)) := by
  rcases loaderCheckIcdsForDevExtAddress q with _ | _
  · simp
  · simp

/-- A query that records no name leaves the tables as they are. -/
theorem loaderDevExtGpaImpl_of_not_records {q : DevExtQuery} (h : ¬ s.Records layers q) :
    ∃ result, loaderDevExtGpaImpl layers s q = some (result, s) := by
  unfold loaderDevExtGpaImpl
  split
  · exact ⟨_, rfl⟩
  · rename_i hnone
    have hmem : q.funcName ∉ s.names := by simpa [List.idxOf?_eq_none_iff] using hnone
    split_ifs with hunsupported hfull hmemory
    · exact ⟨_, rfl⟩
    · exact ⟨_, rfl⟩
    · exact ⟨_, rfl⟩
    · exact absurd ⟨hmem, supported_iff.1 (by simpa using hunsupported), by omega, by simpa using hmemory⟩ h

theorem loaderDevExtGpaImpl_of_records {q : DevExtQuery} (h : s.Records layers q) :
    loaderDevExtGpaImpl layers s q =
      (s.icdTerms.mapM fun devices : List LoaderDevice =>
          devices.mapM (LoaderDevice.initEntry s.names.length q.funcName)).map
        fun icdTerms => (some s.names.length, ⟨s.names ++ [q.funcName], icdTerms⟩) := by
  obtain ⟨hmem, hsupported, hfits, hmemory⟩ := h
  unfold loaderDevExtGpaImpl
  rw [List.idxOf?_eq_none_iff.2 hmem]
  dsimp only
  rw [supported_iff.2 hsupported, if_neg (by decide), if_neg (by omega), hmemory, if_neg (by decide)]

/-- A query calls NULL exactly if it records a name while a device is not filled. -/
theorem loaderDevExtGpaImpl_isSome_iff {q : DevExtQuery} (h : s.Records layers q) :
    (loaderDevExtGpaImpl layers s q).isSome ↔ ∀ d ∈ s.devices, d.getDeviceProcAddr.isSome := by
  rw [loaderDevExtGpaImpl_of_records h, Option.isSome_map, isSome_mapM]
  unfold DevExtTables.devices
  simp only [isSome_mapM, LoaderDevice.initEntry, Option.isSome_map, List.mem_flatten]
  constructor
  · rintro hall d ⟨devices, hdevices, hd⟩
    exact hall devices hdevices d hd
  · exact fun hall devices hdevices d hd => hall d ⟨devices, hdevices, hd⟩

/-- A query that records a name leaves tables that agree. -/
theorem DevExtTables.Agree.query {q : DevExtQuery} {r : Option ℕ × DevExtTables} (h : s.Agree)
    (hrecords : s.Records layers q) (hr : loaderDevExtGpaImpl layers s q = some r) :
    s.names <+: r.2.names ∧ r.2.Agree := by
  rw [loaderDevExtGpaImpl_of_records hrecords] at hr
  obtain ⟨icdTerms, hmap, rfl⟩ := Option.map_eq_some_iff.1 hr
  refine ⟨List.prefix_append _ _, ⟨?_, ?_, fun d hd => ?_⟩⟩
  · rw [List.nodup_append]
    refine ⟨h.nodup, List.nodup_singleton _, ?_⟩
    rintro name hname _ hq rfl
    rw [List.mem_singleton.1 hq] at hname
    exact hrecords.1 hname
  · have hfits := hrecords.2.2.1
    simp
    omega
  · obtain ⟨devices', hdevices', hd⟩ := List.mem_flatten.1 hd
    obtain ⟨devices, hdevices, hmap'⟩ := exists_of_mem_mapM hmap hdevices'
    obtain ⟨d₀, hd₀, hentry⟩ := exists_of_mem_mapM hmap' hd
    exact LoaderDevice.initEntry_extDispatch hentry (h.dispatch d₀ (List.mem_flatten.2 ⟨devices, hdevices, hd₀⟩))

/-- An event that is no query leaves tables that agree, and the names as they are. -/
theorem DevExtTables.Agree.event (layers : List LayerProperties) {e : DevExtEvent} (h : s.Agree) (he : ∀ q, e ≠ .query q) :
    ∃ icdTerms, devExtStep layers (some s) e = some { s with icdTerms := icdTerms } ∧
      { s with icdTerms := icdTerms }.Agree := by
  cases e with
  | query q => exact absurd rfl (he q)
  | terminatorCreateDevice icd device =>
    refine ⟨_, rfl, h.devices fun d hd => ?_⟩
    obtain ⟨devices, hdevices, hd⟩ := List.mem_flatten.1 hd
    rcases mem_modify hdevices with hmem | ⟨devices', hmem, rfl⟩
    · exact Or.inl (List.mem_flatten.2 ⟨devices, hmem, hd⟩)
    · rcases List.mem_cons.1 hd with rfl | hd
      · exact Or.inr (Or.inl rfl)
      · exact Or.inl (List.mem_flatten.2 ⟨devices', hmem, hd⟩)
  | fillDevice device gdpa =>
    refine ⟨_, rfl, h.devices fun d hd => ?_⟩
    obtain ⟨devices, hdevices, hd⟩ := List.mem_flatten.1 hd
    obtain ⟨devices', hmem, rfl⟩ := List.mem_map.1 hdevices
    obtain ⟨d₀, hd₀, rfl⟩ := List.mem_map.1 hd
    split_ifs
    · exact Or.inr (Or.inr ⟨d₀, gdpa, rfl⟩)
    · exact Or.inl (List.mem_flatten.2 ⟨devices', hmem, hd₀⟩)
  | creationFails device => exact ⟨_, rfl, h.devices fun d hd => Or.inl (mem_unlinkLogicalDevice hd)⟩
  | destroyDevice device => exact ⟨_, rfl, h.devices fun d hd => Or.inl (mem_unlinkLogicalDevice hd)⟩

/-- **One step** keeps the tables exactly if it records no name while a device is half created. -/
theorem keepsTables_iff_noneHalfCreated {e : DevExtEvent} (h : s.Agree) :
    KeepsTables layers (some s) e ↔ NoneHalfCreated layers (some s) e := by
  by_cases hq : ∃ q, e = .query q
  · obtain ⟨q, rfl⟩ := hq
    by_cases hrecords : s.Records layers q
    · have hiff := loaderDevExtGpaImpl_isSome_iff hrecords
      constructor
      · rintro ⟨_, t', ⟨⟩, hstep, -⟩ _ _ ⟨⟩ ⟨⟩ -
        apply hiff.1
        obtain ⟨r, hr, -⟩ := Option.map_eq_some_iff.1 hstep
        rw [hr]
        rfl
      · intro hnone
        obtain ⟨r, hr⟩ := Option.isSome_iff_exists.1 (hiff.2 (hnone s q rfl rfl hrecords))
        obtain ⟨hnames, hagree⟩ := h.query hrecords hr
        refine ⟨s, r.2, rfl, ?_, hnames, hagree, ?_⟩
        · show Option.map _ _ = _
          rw [hr]
          rfl
        · rintro _ ⟨⟩ i hi
          exact loaderDevExtGpaImpl_of_mem h.nodup hi
    · refine iff_of_true ?_ fun _ _ ht hq hr => ?_
      · obtain ⟨result, hr⟩ := loaderDevExtGpaImpl_of_not_records hrecords
        refine ⟨s, s, rfl, ?_, List.prefix_refl _, h, ?_⟩
        · show Option.map _ _ = _
          rw [hr]
          rfl
        · rintro _ ⟨⟩ i hi
          exact loaderDevExtGpaImpl_of_mem h.nodup hi
      · cases ht
        cases hq
        exact absurd hr hrecords
  · have hne : ∀ q, e ≠ .query q := fun q heq => hq ⟨q, heq⟩
    refine iff_of_true ?_ fun _ q _ heq => absurd heq (hne q)
    obtain ⟨icdTerms, hstep, hagree⟩ := h.event layers hne
    exact ⟨s, _, rfl, hstep, List.prefix_refl _, hagree, fun q heq => absurd heq (hne q)⟩

end Step

/-! ### Any history -/

/-- No NULL was called, and the tables agree. -/
def TablesAgree (s : Option DevExtTables) : Prop := ∃ t, s = some t ∧ t.Agree

/-- **The tables are kept exactly in the histories** that record no name while a device is half created. -/
theorem keepsTables_iff (layers : List LayerProperties) (icds : ℕ) (events : List DevExtEvent) :
    AllSteps (devExtStep layers) (KeepsTables layers) (some (.init icds)) events ↔
      AllSteps (devExtStep layers) (NoneHalfCreated layers) (some (.init icds)) events := by
  have hinit : TablesAgree (some (.init icds)) := ⟨_, rfl, .init icds⟩
  apply allSteps_congr _ _ _ hinit
  · rintro _ e - ⟨-, t', -, hstep, -, hagree, -⟩
    exact ⟨t', hstep, hagree⟩
  · rintro _ e ⟨t, rfl, ht⟩
    exact keepsTables_iff_noneHalfCreated ht

/-- A name that the driver has. -/
def knownQuery (funcName : String) : DevExtQuery := ⟨true, funcName, [true], none, true⟩

/-- The terminator links a device, and on the way back a layer asks for an unknown function. -/
theorem not_keepsTables : ¬ ∀ (layers : List LayerProperties) (icds : ℕ) (events : List DevExtEvent),
    AllSteps (devExtStep layers) (KeepsTables layers) (some (.init icds)) events := by
  intro hall
  obtain ⟨-, ⟨t, t', ht, hstep, -⟩, -⟩ := hall [] 1 [.terminatorCreateDevice 0 1, .query (knownQuery "vkUnknown")]
  cases hstep

end VulkanLoader
