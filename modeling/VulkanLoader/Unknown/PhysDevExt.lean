import Mathlib.Data.List.Induction
import VulkanLoader.Unknown.DeviceExt

/-!
# Unknown physical device functions

For these the instance has one dispatch table and each driver its own.  One function serves two queries: the trampoline
one asks drivers and layers and leaves the function of the topmost layer in the table of the instance, the terminator
one asks the drivers only.  Both go through the drivers and leave the loader's terminator in the table of the instance
where a driver has the function.
-/

namespace VulkanLoader

open Lib

/-- `MIN_PHYS_DEV_EXTENSION_ICD_INTERFACE_VERSION`. -/
def minPhysDevExtensionIcdInterfaceVersion : ℕ := 4

/-- A place in the `phys_dev_ext` of the instance. -/
inductive PhysDevExt where
  | null
  | termin (index : ℕ)
  | layer (address : ℕ)
  deriving DecidableEq

/-- A driver or a layer, with what its query for functions of physical devices returns for the instance, if it has
one. -/
structure PhysDevExtLibrary where
  interfaceVersion : ℕ
  getPhysicalDeviceProcAddr : Option (String → Option ℕ)

namespace PhysDevExtLibrary

/-- The function of a driver. -/
def icdFunction (icd : PhysDevExtLibrary) (funcName : String) : Option ℕ :=
  if minPhysDevExtensionIcdInterfaceVersion ≤ icd.interfaceVersion then
    icd.getPhysicalDeviceProcAddr.bind fun gpdpa => gpdpa funcName
  else none

/-- The function of a layer. -/
def layerFunction (layer : PhysDevExtLibrary) (funcName : String) : Option ℕ :=
  if layer.interfaceVersion > 1 then layer.getPhysicalDeviceProcAddr.bind fun gpdpa => gpdpa funcName else none

end PhysDevExtLibrary

/-- `struct loader_icd_term`. -/
structure PhysDevExtIcdTerm where
  scannedIcd : PhysDevExtLibrary
  physDevExt : ℕ → Option ℕ

/-- What the loader keeps of unknown functions of physical devices: `phys_dev_ext_disp_functions`, up to
`phys_dev_ext_disp_function_count`, the drivers, and the dispatch table of the instance. -/
structure PhysDevExtTables where
  names : List String
  icdTerms : List PhysDevExtIcdTerm
  disp : ℕ → PhysDevExt

/-- A query, and whether there is memory for the name. -/
structure PhysDevExtQuery where
  isTramp : Bool
  funcName : String
  memory : Bool

/-- `loader_check_icds_for_phys_dev_ext_address`. -/
def loaderCheckIcdsForPhysDevExtAddress (icdTerms : List PhysDevExtIcdTerm) (funcName : String) : Bool :=
  icdTerms.any fun t => (t.scannedIcd.icdFunction funcName).isSome

/-- `loader_check_layer_list_for_phys_dev_ext_address`: the first layer that has the query answers for all. -/
def loaderCheckLayerListForPhysDevExtAddress (funcName : String) : List PhysDevExtLibrary → Bool
  | [] => false
  | layer :: layers =>
    if layer.interfaceVersion > 1 ∧ layer.getPhysicalDeviceProcAddr.isSome then
      (layer.layerFunction funcName).isSome
    else loaderCheckLayerListForPhysDevExtAddress funcName layers

/-- The loop of `loader_phys_dev_ext_gpa_impl` over the drivers. -/
def setupIcdFunctions (idx : ℕ) (funcName : String) :
    List PhysDevExtIcdTerm → (ℕ → PhysDevExt) → List PhysDevExtIcdTerm × (ℕ → PhysDevExt)
  | [], disp => ([], disp)
  | t :: icdTerms, disp =>
    let function := t.scannedIcd.icdFunction funcName
    let disp := if function.isSome then Function.update disp idx (.termin idx) else disp
    let r := setupIcdFunctions idx funcName icdTerms disp
    ({ t with physDevExt := Function.update t.physDevExt idx function } :: r.1, r.2)

/-- The loop of `loader_phys_dev_ext_gpa_impl` over the layers, for a trampoline query. -/
def setupLayerFunction (layers : List PhysDevExtLibrary) (idx : ℕ) (funcName : String) (disp : ℕ → PhysDevExt) :
    ℕ → PhysDevExt :=
  match layers.findSome? fun layer => layer.layerFunction funcName with
  | none => disp
  | some address => Function.update disp idx (.layer address)

/-- The tables after a query whose name has the index `idx`. -/
def setupFunctions (layers : List PhysDevExtLibrary) (q : PhysDevExtQuery) (idx : ℕ) (names : List String)
    (s : PhysDevExtTables) : PhysDevExtTables :=
  let r := setupIcdFunctions idx q.funcName s.icdTerms s.disp
  ⟨names, r.1, if q.isTramp then setupLayerFunction layers idx q.funcName r.2 else r.2⟩

/-- `loader_phys_dev_ext_gpa_impl`: the index of the trampoline or terminator that it returns, and the tables. -/
def loaderPhysDevExtGpaImpl (layers : List PhysDevExtLibrary) (s : PhysDevExtTables) (q : PhysDevExtQuery) :
    Option ℕ × PhysDevExtTables :=
  if !loaderCheckIcdsForPhysDevExtAddress s.icdTerms q.funcName &&
      (!q.isTramp || !loaderCheckLayerListForPhysDevExtAddress q.funcName layers) then (none, s)
  else
    match s.names.idxOf? q.funcName with
    | some idx => (some idx, setupFunctions layers q idx s.names s)
    | none =>
      if s.names.length ≥ maxNumUnknownExts then (none, s)
      else if !q.memory then (none, s)
      else (some s.names.length, setupFunctions layers q s.names.length (s.names ++ [q.funcName]) s)

/-- A query, for its effect. -/
def physDevExtStep (layers : List PhysDevExtLibrary) (s : PhysDevExtTables) (q : PhysDevExtQuery) : PhysDevExtTables :=
  (loaderPhysDevExtGpaImpl layers s q).2

/-- A new instance with its drivers. -/
def PhysDevExtTables.init (icds : List PhysDevExtLibrary) : PhysDevExtTables :=
  ⟨[], icds.map fun icd => ⟨icd, fun _ => none⟩, fun _ => .null⟩

/-! ### What the tables are for -/

/-- A driver has the function. -/
def IcdImplements (icds : List PhysDevExtLibrary) (funcName : String) : Prop :=
  ∃ icd ∈ icds, (icd.icdFunction funcName).isSome

/-- A layer has the function. -/
def LayerImplements (layers : List PhysDevExtLibrary) (funcName : String) : Prop :=
  ∃ layer ∈ layers, (layer.layerFunction funcName).isSome

/-- Where calls of the function with the index `idx` are to go: to the topmost layer that has it, or to the loader's
terminator. -/
def topmost (layers : List PhysDevExtLibrary) (idx : ℕ) (funcName : String) : PhysDevExt :=
  match layers.findSome? fun layer => layer.layerFunction funcName with
  | none => .termin idx
  | some address => .layer address

/-- The tables after queries to a new instance. -/
def physDevExtRun (layers icds : List PhysDevExtLibrary) (qs : List PhysDevExtQuery) : PhysDevExtTables :=
  run (physDevExtStep layers) (.init icds) qs

/-- The tables lead where they are to: each driver's own to its functions, that of the instance to the topmost layer for
every name that a trampoline query was for. -/
structure PhysDevExtTables.LeadToTop (layers icds : List PhysDevExtLibrary) (qs : List PhysDevExtQuery)
    (s : PhysDevExtTables) : Prop where
  drivers : s.icdTerms.map (·.scannedIcd) = icds
  functions : ∀ t ∈ s.icdTerms, ∀ (i : ℕ) name, s.names[i]? = some name →
    t.physDevExt i = t.scannedIcd.icdFunction name
  disp : ∀ q ∈ qs, q.isTramp = true → ∀ i : ℕ, s.names[i]? = some q.funcName → s.disp i = topmost layers i q.funcName

/-- **The order of the queries does not matter**: the names are distinct and keep their indices, and the tables lead
where they are to. -/
structure OrderIndependent (layers icds : List PhysDevExtLibrary) (qs : List PhysDevExtQuery) : Prop where
  nodup : (physDevExtRun layers icds qs).names.Nodup
  names : ∀ pre post, qs = pre ++ post → (physDevExtRun layers icds pre).names <+: (physDevExtRun layers icds qs).names
  tables : (physDevExtRun layers icds qs).LeadToTop layers icds qs

/-- The last query for the name is a trampoline query. -/
def lastIsTramp (qs : List PhysDevExtQuery) (funcName : String) : Bool :=
  (qs.filter fun q => q.funcName == funcName).getLast?.any fun q => q.isTramp

/-! ### One query -/

section Query

variable {layers icds : List PhysDevExtLibrary} {qs : List PhysDevExtQuery} {q : PhysDevExtQuery}
  {s : PhysDevExtTables} {idx : ℕ} {funcName : String} {disp : ℕ → PhysDevExt} {icdTerms : List PhysDevExtIcdTerm}

theorem lastIsTramp_concat : lastIsTramp (qs ++ [q]) funcName =
    if q.funcName = funcName then q.isTramp else lastIsTramp qs funcName := by
  unfold lastIsTramp
  rw [List.filter_append]
  split_ifs with h
  · simp [h]
  · simp [h]

theorem setupIcdFunctions_fst : (setupIcdFunctions idx funcName icdTerms disp).1 =
    icdTerms.map fun t => { t with physDevExt := Function.update t.physDevExt idx (t.scannedIcd.icdFunction funcName) } := by
  induction icdTerms generalizing disp with
  | nil => rfl
  | cons t icdTerms ih =>
    unfold setupIcdFunctions
    rw [List.map_cons, ← ih]

theorem setupIcdFunctions_of_ne {i : ℕ} (hne : i ≠ idx) :
    (setupIcdFunctions idx funcName icdTerms disp).2 i = disp i := by
  induction icdTerms generalizing disp with
  | nil => rfl
  | cons t icdTerms ih =>
    unfold setupIcdFunctions
    dsimp only
    rw [ih]
    split_ifs
    · exact Function.update_of_ne hne _ _
    · rfl

/-- The terminator stays, once it is in the table. -/
theorem setupIcdFunctions_self (h : disp idx = .termin idx ∨ loaderCheckIcdsForPhysDevExtAddress icdTerms funcName = true) :
    (setupIcdFunctions idx funcName icdTerms disp).2 idx = .termin idx := by
  induction icdTerms generalizing disp with
  | nil => exact h.resolve_right (by simp [loaderCheckIcdsForPhysDevExtAddress])
  | cons t icdTerms ih =>
    unfold setupIcdFunctions
    apply ih
    split_ifs with hsome
    · exact Or.inl (Function.update_self _ _ _)
    · refine h.imp_right fun h => ?_
      simpa [loaderCheckIcdsForPhysDevExtAddress, hsome] using h

theorem setupLayerFunction_of_ne {i : ℕ} (hne : i ≠ idx) : setupLayerFunction layers idx funcName disp i = disp i := by
  unfold setupLayerFunction
  cases layers.findSome? fun layer => layer.layerFunction funcName with
  | none => rfl
  | some address => exact Function.update_of_ne hne _ _

theorem findSome?_eq_none_iff_not_implements :
    (layers.findSome? fun layer => layer.layerFunction funcName) = none ↔ ¬ LayerImplements layers funcName := by
  unfold LayerImplements
  rw [List.findSome?_eq_none_iff]
  simp

theorem topmost_eq_termin_iff : topmost layers idx funcName = .termin idx ↔ ¬ LayerImplements layers funcName := by
  rw [← findSome?_eq_none_iff_not_implements]
  unfold topmost
  cases layers.findSome? fun layer => layer.layerFunction funcName with
  | none => simp
  | some address => simp

/-- The topmost layer gets the place, or what is there stays. -/
theorem setupLayerFunction_self (h : ¬ LayerImplements layers funcName → disp idx = .termin idx) :
    setupLayerFunction layers idx funcName disp idx = topmost layers idx funcName := by
  rw [← findSome?_eq_none_iff_not_implements] at h
  unfold setupLayerFunction topmost
  cases hfind : layers.findSome? fun layer => layer.layerFunction funcName with
  | none => exact h hfind
  | some address => exact Function.update_self _ _ _

theorem icdImplements_iff (hdrivers : s.icdTerms.map (·.scannedIcd) = icds) (funcName : String) :
    loaderCheckIcdsForPhysDevExtAddress s.icdTerms funcName = true ↔ IcdImplements icds funcName := by
  subst hdrivers
  simp [loaderCheckIcdsForPhysDevExtAddress, IcdImplements]

/-- The layer that answers for all has the function itself. -/
theorem layerImplements_of_check (h : loaderCheckLayerListForPhysDevExtAddress funcName layers = true) :
    LayerImplements layers funcName := by
  induction layers with
  | nil => cases h
  | cons layer layers ih =>
    unfold loaderCheckLayerListForPhysDevExtAddress at h
    split_ifs at h
    · exact ⟨layer, List.mem_cons_self, h⟩
    · obtain ⟨layer', hlayer', hsome⟩ := ih h
      exact ⟨layer', List.mem_cons_of_mem _ hlayer', hsome⟩

end Query

/-! ### Any queries -/

/-- The tables after the queries `qs`: where the last query for a name decides, and where it does not. -/
structure PhysDevExtTables.After (layers icds : List PhysDevExtLibrary) (qs : List PhysDevExtQuery)
    (s : PhysDevExtTables) : Prop where
  drivers : s.icdTerms.map (·.scannedIcd) = icds
  nodup : s.names.Nodup
  functions : ∀ t ∈ s.icdTerms, ∀ (i : ℕ) name, s.names[i]? = some name →
    t.physDevExt i = t.scannedIcd.icdFunction name
  topmost : ∀ (i : ℕ) name, s.names[i]? = some name → (IcdImplements icds name → lastIsTramp qs name = true) →
    s.disp i = topmost layers i name
  termin : ∀ (i : ℕ) name, s.names[i]? = some name → IcdImplements icds name → lastIsTramp qs name = false →
    s.disp i = .termin i

section After

variable {layers icds : List PhysDevExtLibrary} {qs : List PhysDevExtQuery} {q : PhysDevExtQuery}
  {s : PhysDevExtTables}

theorem PhysDevExtTables.After.init : (PhysDevExtTables.init icds).After layers icds [] := by
  refine ⟨?_, List.nodup_nil, nofun, nofun, nofun⟩
  simp [PhysDevExtTables.init, Function.comp_def]

theorem setupFunctions_disp_of_ne {names : List String} {idx i : ℕ} (hne : i ≠ idx) :
    (setupFunctions layers q idx names s).disp i = s.disp i := by
  unfold setupFunctions
  dsimp only
  split_ifs
  · rw [setupLayerFunction_of_ne hne, setupIcdFunctions_of_ne hne]
  · rw [setupIcdFunctions_of_ne hne]

/-- A query that finds the function leaves the tables for its name set up. -/
theorem PhysDevExtTables.After.setup (h : s.After layers icds qs) {names : List String} {idx : ℕ}
    (hsupported : IcdImplements icds q.funcName ∨ (q.isTramp = true ∧ LayerImplements layers q.funcName))
    (hnodup : names.Nodup) (hidx : names[idx]? = some q.funcName)
    (hold : ∀ i : ℕ, i ≠ idx → ∀ name, names[i]? = some name → s.names[i]? = some name) :
    (setupFunctions layers q idx names s).After layers icds (qs ++ [q]) := by
  have hname : ∀ {i : ℕ} {name : String}, names[i]? = some name → (i = idx ∧ name = q.funcName) ∨
      (i ≠ idx ∧ q.funcName ≠ name ∧ s.names[i]? = some name) := by
    intro i name hi
    by_cases heq : i = idx
    · subst heq
      exact Or.inl ⟨rfl, Option.some.inj (hi.symm.trans hidx)⟩
    · refine Or.inr ⟨heq, ?_, hold i heq name hi⟩
      rintro rfl
      exact heq ((List.getElem?_inj (List.getElem?_eq_some_iff.1 hi).1 hnodup).1 (hi.trans hidx.symm))
  have hcheck := icdImplements_iff h.drivers q.funcName
  refine ⟨?_, hnodup, fun t ht i name hi => ?_, fun i name hi hlast => ?_, fun i name hi himpl hlast => ?_⟩
  · show List.map _ (setupIcdFunctions _ _ _ _).1 = icds
    rw [setupIcdFunctions_fst, List.map_map]
    exact h.drivers
  · change t ∈ (setupIcdFunctions idx q.funcName s.icdTerms s.disp).1 at ht
    rw [setupIcdFunctions_fst] at ht
    obtain ⟨t₀, ht₀, rfl⟩ := List.mem_map.1 ht
    rcases hname hi with ⟨rfl, rfl⟩ | ⟨hne, -, hi⟩
    · exact Function.update_self _ _ _
    · exact (Function.update_of_ne hne _ _).trans (h.functions t₀ ht₀ i name hi)
  · rw [lastIsTramp_concat] at hlast
    rcases hname hi with ⟨rfl, rfl⟩ | ⟨hne, hqname, hi⟩
    · -- a terminator query gets here only if a driver has the function
      rw [if_pos rfl] at hlast
      have htramp : q.isTramp = true := hsupported.elim hlast fun hl => hl.1
      unfold setupFunctions
      dsimp only
      rw [if_pos htramp]
      refine setupLayerFunction_self fun hnot => setupIcdFunctions_self (Or.inr (hcheck.2 ?_))
      exact hsupported.resolve_right fun hl => hnot hl.2
    · rw [if_neg hqname] at hlast
      rw [setupFunctions_disp_of_ne hne]
      exact h.topmost i name hi hlast
  · rw [lastIsTramp_concat] at hlast
    rcases hname hi with ⟨rfl, rfl⟩ | ⟨hne, hqname, hi⟩
    · rw [if_pos rfl] at hlast
      unfold setupFunctions
      dsimp only
      rw [hlast, if_neg (by decide)]
      exact setupIcdFunctions_self (Or.inr (hcheck.2 himpl))
    · rw [if_neg hqname] at hlast
      rw [setupFunctions_disp_of_ne hne]
      exact h.termin i name hi himpl hlast

/-- A query that does nothing is for a name without an index, or one that no driver has. -/
theorem PhysDevExtTables.After.skip (h : s.After layers icds qs)
    (hskip : q.funcName ∈ s.names → ¬ IcdImplements icds q.funcName) : s.After layers icds (qs ++ [q]) := by
  have hlast : ∀ {i : ℕ} {name : String}, s.names[i]? = some name → IcdImplements icds name →
      lastIsTramp (qs ++ [q]) name = lastIsTramp qs name := by
    intro i name hi himpl
    rw [lastIsTramp_concat, if_neg]
    rintro rfl
    exact hskip (List.mem_of_getElem? hi) himpl
  refine ⟨h.drivers, h.nodup, h.functions, fun i name hi htramp => ?_, fun i name hi himpl htramp => ?_⟩
  · refine h.topmost i name hi fun himpl => ?_
    rw [← hlast hi himpl]
    exact htramp himpl
  · rw [hlast hi himpl] at htramp
    exact h.termin i name hi himpl htramp

/-- **One query.** -/
theorem PhysDevExtTables.After.step (h : s.After layers icds qs) (q : PhysDevExtQuery) :
    s.names <+: (physDevExtStep layers s q).names ∧ (physDevExtStep layers s q).After layers icds (qs ++ [q]) := by
  have hcheck := icdImplements_iff h.drivers q.funcName
  unfold physDevExtStep loaderPhysDevExtGpaImpl
  by_cases hunsupported : (!loaderCheckIcdsForPhysDevExtAddress s.icdTerms q.funcName &&
      (!q.isTramp || !loaderCheckLayerListForPhysDevExtAddress q.funcName layers)) = true
  · -- no driver has the function
    rw [if_pos hunsupported]
    refine ⟨List.prefix_refl _, h.skip fun _ himpl => ?_⟩
    rw [hcheck.2 himpl] at hunsupported
    simp at hunsupported
  · rw [if_neg hunsupported]
    have hsupported : IcdImplements icds q.funcName ∨ (q.isTramp = true ∧ LayerImplements layers q.funcName) := by
      by_cases hicd : loaderCheckIcdsForPhysDevExtAddress s.icdTerms q.funcName = true
      · exact Or.inl (hcheck.1 hicd)
      · simp only [hicd, Bool.not_false, Bool.true_and, Bool.or_eq_true, Bool.not_eq_true', not_or,
          Bool.not_eq_false] at hunsupported
        exact Or.inr ⟨hunsupported.1, layerImplements_of_check hunsupported.2⟩
    cases hfind : s.names.idxOf? q.funcName with
    | some idx =>
      rw [idxOf?_eq_some_iff_getElem? h.nodup] at hfind
      exact ⟨List.prefix_refl _, h.setup hsupported h.nodup hfind fun _ _ _ hi => hi⟩
    | none =>
      have hmem : q.funcName ∉ s.names := List.idxOf?_eq_none_iff.1 hfind
      dsimp only
      split_ifs with hfull hmemory
      · exact ⟨List.prefix_refl _, h.skip fun hq => absurd hq hmem⟩
      · exact ⟨List.prefix_refl _, h.skip fun hq => absurd hq hmem⟩
      · refine ⟨List.prefix_append _ _, h.setup hsupported ?_ List.getElem?_concat_length fun i hne name hi => ?_⟩
        · rw [List.nodup_append]
          refine ⟨h.nodup, List.nodup_singleton _, ?_⟩
          rintro name hname _ hq rfl
          rw [List.mem_singleton.1 hq] at hname
          exact hmem hname
        · have hlt := (List.getElem?_eq_some_iff.1 hi).1
          rw [List.length_append, List.length_singleton] at hlt
          rwa [List.getElem?_append_left (by omega)] at hi

theorem physDevExtRun_concat : physDevExtRun layers icds (qs ++ [q]) =
    physDevExtStep layers (physDevExtRun layers icds qs) q := run_append _ _ _ _

/-- **Any queries.** -/
theorem physDevExtRun_after (layers icds : List PhysDevExtLibrary) (qs : List PhysDevExtQuery) :
    (physDevExtRun layers icds qs).After layers icds qs := by
  induction qs using List.reverseRecOn with
  | nil => exact .init
  | append_singleton qs q ih =>
    rw [physDevExtRun_concat]
    exact (ih.step q).2

/-- A name keeps its index. -/
theorem physDevExtRun_names (layers icds : List PhysDevExtLibrary) (pre post : List PhysDevExtQuery) :
    (physDevExtRun layers icds pre).names <+: (physDevExtRun layers icds (pre ++ post)).names := by
  induction post using List.reverseRecOn with
  | nil => simp
  | append_singleton post q ih =>
    rw [← List.append_assoc, physDevExtRun_concat]
    exact ih.trans ((physDevExtRun_after layers icds (pre ++ post)).step q).1

end After

/-- **The order of the queries does not matter exactly if** each name with an index that a trampoline query was for, and
that both a driver and a layer have, was last asked for by a trampoline query. -/
theorem orderIndependent_iff (layers icds : List PhysDevExtLibrary) (qs : List PhysDevExtQuery) :
    OrderIndependent layers icds qs ↔
      ∀ q ∈ qs, q.isTramp = true → q.funcName ∈ (physDevExtRun layers icds qs).names →
        IcdImplements icds q.funcName → LayerImplements layers q.funcName → lastIsTramp qs q.funcName = true := by
  have hafter := physDevExtRun_after layers icds qs
  constructor
  · intro h q hq htramp hmem hicd hlayer
    obtain ⟨i, hi⟩ := List.mem_iff_getElem?.1 hmem
    by_contra hlast
    -- the terminator is in the place of the layer
    have hdisp := h.tables.disp q hq htramp i hi
    rw [hafter.termin i q.funcName hi hicd (by simpa using hlast)] at hdisp
    exact topmost_eq_termin_iff.1 hdisp.symm hlayer
  · intro h
    refine ⟨hafter.nodup, ?_, hafter.drivers, hafter.functions, fun q hq htramp i hi => ?_⟩
    · rintro pre post rfl
      exact physDevExtRun_names layers icds pre post
    · by_cases hlast : IcdImplements icds q.funcName → lastIsTramp qs q.funcName = true
      · exact hafter.topmost i q.funcName hi hlast
      · obtain ⟨hicd, hlast⟩ := Classical.not_imp.1 hlast
        have hnot : ¬ LayerImplements layers q.funcName := fun hlayer =>
          hlast (h q hq htramp (List.mem_of_getElem? hi) hicd hlayer)
        rw [hafter.termin i q.funcName hi hicd (by simpa using hlast), topmost_eq_termin_iff.2 hnot]

/-- A library that has one function, at address 1. -/
def oneFunction (funcName : String) : PhysDevExtLibrary := ⟨4, some fun name => if name = funcName then some 1 else none⟩

/-- The terminator query after the trampoline query takes the layer out of the table. -/
theorem not_orderIndependent : ¬ ∀ (layers icds : List PhysDevExtLibrary) (qs : List PhysDevExtQuery),
    OrderIndependent layers icds qs := by
  intro hall
  have h := hall [oneFunction "vkUnknown"] [oneFunction "vkUnknown"]
    [⟨true, "vkUnknown", true⟩, ⟨false, "vkUnknown", true⟩]
  have hdisp := h.tables.disp ⟨true, "vkUnknown", true⟩ (by simp) rfl 0 rfl
  revert hdisp
  decide

end VulkanLoader
