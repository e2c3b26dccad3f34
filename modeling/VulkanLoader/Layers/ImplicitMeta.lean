import VulkanLoader.Layers.Properties
import VulkanLoader.Lib.Sweep
import Mathlib.Logic.Relation

/-!
# The explicit layers that implicit meta-layers use

A scan for implicit layers reads the explicit ones too, since an implicit meta-layer may have them as components, and
`loader_remove_layers_not_in_implicit_meta_layers` takes the others out again.  It marks the layers to keep, and then
removes those without the mark.  An explicit layer gets the mark if any other meta-layer of the list names it, and the
meta-layer that does so may be an explicit one that nothing uses.

`InUse` says which explicit layers an implicit meta-layer uses, at any depth.
-/

namespace VulkanLoader

open Relation

/-- A layer with its `keep`. -/
structure MarkedLayer where
  properties : LayerProperties
  keep : Bool

/-- What the marking leaves in `keep` of the layer at `i`. -/
def keepOf (layers : List LayerProperties) (i : ℕ) (curLayerProp : LayerProperties) : Bool :=
  if !curLayerProp.isExplicit then true
  else
    layers.zipIdx.any fun x =>
      if i == x.2 then false
      else x.1.isMeta && x.1.componentLayerNames.any fun compLayer => compLayer == curLayerProp.layerName

/-- The two loops that mark; what they read they do not write. -/
def markLayers (layers : List LayerProperties) : List MarkedLayer :=
  layers.zipIdx.map fun x => ⟨x.1, keepOf layers x.2 x.1⟩

/-- The state of the loop that removes. -/
structure MarkedScan where
  layerList : List MarkedLayer
  i : ℤ

namespace MarkedScan

/-- `i < (int32_t)layer_list->count`. -/
def continues (s : MarkedScan) : Bool := decide (s.i < s.layerList.length)

/-- One round of the loop, `i++` included. -/
def step (s : MarkedScan) : MarkedScan :=
  match s.layerList[s.i.toNat]? with
  | none => { s with i := s.i + 1 }
  | some curLayerProp =>
    if !curLayerProp.keep then ⟨s.layerList.eraseIdx s.i.toNat, s.i - 1 + 1⟩ else { s with i := s.i + 1 }

/-- The loop has come to the end of `kept`. -/
structure At (s : MarkedScan) (kept rest : List MarkedLayer) : Prop where
  layerList : s.layerList = kept ++ rest
  i : s.i = kept.length

theorem At.step {s : MarkedScan} {kept rest : List MarkedLayer} {cur : MarkedLayer} (h : At s kept (cur :: rest)) :
    s.continues = true ∧ At s.step (if cur.keep then kept ++ [cur] else kept) rest := by
  have hi : s.i.toNat = kept.length := by rw [h.i, Int.toNat_natCast]
  have hcur : s.layerList[s.i.toNat]? = some cur := by rw [hi, h.layerList]; simp
  have hcontinues : s.continues = true := by
    refine decide_eq_true ?_
    rw [h.i, h.layerList, List.length_append, List.length_cons]
    omega
  refine ⟨hcontinues, ?_⟩
  unfold MarkedScan.step
  rw [hcur]
  dsimp only
  rcases cur.keep with _ | _
  · rw [if_pos Bool.not_false, if_neg Bool.false_ne_true]
    refine ⟨?_, by rw [Int.sub_add_cancel]; exact h.i⟩
    rw [hi, h.layerList, List.eraseIdx_append_of_length_le (Nat.le_refl _), Nat.sub_self]
    rfl
  · rw [if_neg (by simp), if_pos rfl]
    refine ⟨by rw [h.layerList, List.append_assoc]; rfl, ?_⟩
    rw [h.i, List.length_append, List.length_singleton]
    rfl

end MarkedScan

/-- `loader_remove_layers_not_in_implicit_meta_layers`. -/
def loaderRemoveLayersNotInImplicitMetaLayers (layerList : List LayerProperties) : List LayerProperties :=
  (Lib.whileLoop MarkedScan.continues MarkedScan.step layerList.length ⟨markLayers layerList, 0⟩).layerList.map
    MarkedLayer.properties

/-- What is left are the layers with the mark. -/
theorem loaderRemoveLayersNotInImplicitMetaLayers_eq (l : List LayerProperties) :
    loaderRemoveLayersNotInImplicitMetaLayers l = (l.zipIdx.filter fun x => keepOf l x.2 x.1).map Prod.fst := by
  have hlen : (markLayers l).length ≤ l.length := by simp [markLayers]
  have hstart : MarkedScan.At ⟨markLayers l, 0⟩ [] (markLayers l) := ⟨rfl, rfl⟩
  have hrun := Lib.whileLoop_sweep (fun _ _ _ _ h => MarkedScan.At.step h)
    (fun s kept h => by simp [MarkedScan.continues, h.layerList, h.i]) hstart hlen
  have hlist := hrun.layerList
  rw [Lib.foldl_keep, List.nil_append, List.append_nil] at hlist
  unfold loaderRemoveLayersNotInImplicitMetaLayers
  rw [hlist, markLayers, List.filter_map, List.map_map]
  rfl

/-! ### The layers in use -/

/-- A meta-layer of the list names a layer of the list as its component. -/
def NamesComponent (l : List LayerProperties) (m p : LayerProperties) : Prop :=
  m ∈ l ∧ m.isMeta = true ∧ p ∈ l ∧ p.layerName ∈ m.componentLayerNames

/-- Component names lead from an implicit meta-layer to the layer. -/
def InUseByImplicit (l : List LayerProperties) (p : LayerProperties) : Prop :=
  ∃ m ∈ l, m.isExplicit = false ∧ m.isMeta = true ∧ TransGen (NamesComponent l) m p

/-- Another meta-layer of the list names the layer at the place `i`. -/
def NamedElsewhere (l : List LayerProperties) (i : ℕ) (p : LayerProperties) : Prop :=
  ∃ (j : ℕ) (m : LayerProperties), l[j]? = some m ∧ j ≠ i ∧ m.isMeta = true ∧ p.layerName ∈ m.componentLayerNames

theorem keepOf_eq_true {l : List LayerProperties} {i : ℕ} {p : LayerProperties} :
    keepOf l i p = true ↔ p.isExplicit = false ∨ NamedElsewhere l i p := by
  unfold keepOf
  rcases hexplicit : p.isExplicit with _ | _
  · simp
  · rw [if_neg (by simp), List.any_eq_true]
    constructor
    · rintro ⟨⟨m, j⟩, hmem, hx⟩
      have hj : l[j]? = some m := List.mem_zipIdx_iff_getElem?.1 hmem
      dsimp only at hx
      split_ifs at hx with hij
      obtain ⟨hmeta, hname⟩ := (Bool.and_eq_true_iff).1 hx
      refine Or.inr ⟨j, m, hj, fun he => hij (by simp [he]), hmeta, ?_⟩
      simpa using hname
    · rintro (hfalse | ⟨j, m, hj, hne, hmeta, hname⟩)
      · cases hfalse
      · refine ⟨(m, j), List.mem_zipIdx_iff_getElem?.2 hj, ?_⟩
        rw [if_neg (by simpa using Ne.symm hne)]
        simpa [hmeta] using hname

/-- A layer in use is named by another layer than itself. -/
theorem namedElsewhere_of_inUse {l : List LayerProperties} {i : ℕ} {p : LayerProperties} (hi : l[i]? = some p)
    (hexplicit : p.isExplicit = true) (h : InUseByImplicit l p) : NamedElsewhere l i p := by
  obtain ⟨m, -, himplicit, -, hpath⟩ := h
  -- the last step from another place
  induction hpath with
  | single hstep =>
    obtain ⟨hm, hmeta, -, hname⟩ := hstep
    obtain ⟨j, hj⟩ := List.mem_iff_getElem?.1 hm
    refine ⟨j, m, hj, ?_, hmeta, hname⟩
    rintro rfl
    obtain rfl := Option.some.inj (hi.symm.trans hj)
    rw [himplicit] at hexplicit
    cases hexplicit
  | @tail q p _ hstep ih =>
    obtain ⟨hq, hmeta, -, hname⟩ := hstep
    obtain ⟨j, hj⟩ := List.mem_iff_getElem?.1 hq
    by_cases hji : j = i
    · obtain rfl := Option.some.inj (hi.symm.trans (hji ▸ hj))
      exact ih hi hexplicit
    · exact ⟨j, q, hj, hji, hmeta, hname⟩

open Classical in
/-- What is left are the implicit layers and the explicit ones that an implicit meta-layer uses. -/
def KeepsComponentsInUse (l : List LayerProperties) : Prop :=
  loaderRemoveLayersNotInImplicitMetaLayers l = l.filter fun p => decide (p.isExplicit = false ∨ InUseByImplicit l p)

/-- **The reduction keeps exactly the components in use** if and only if each explicit layer that another meta-layer
names is in use. -/
theorem keepsComponentsInUse_iff (l : List LayerProperties) :
    KeepsComponentsInUse l ↔
      ∀ i p, l[i]? = some p → p.isExplicit = true → NamedElsewhere l i p → InUseByImplicit l p := by
  classical
  unfold KeepsComponentsInUse
  rw [loaderRemoveLayersNotInImplicitMetaLayers_eq]
  have hfst : (l.filter fun p => decide (p.isExplicit = false ∨ InUseByImplicit l p)) =
      (l.zipIdx.filter fun x => decide (x.1.isExplicit = false ∨ InUseByImplicit l x.1)).map Prod.fst := by
    conv_lhs => rw [← List.zipIdx_map_fst 0 l, List.filter_map]
    rw [List.zipIdx_map_fst 0 l]
    rfl
  have hkept : ∀ x ∈ l.zipIdx, decide (x.1.isExplicit = false ∨ InUseByImplicit l x.1) = true →
      keepOf l x.2 x.1 = true := by
    intro x hx hused
    rcases hexplicit : x.1.isExplicit with _ | _
    · exact keepOf_eq_true.2 (Or.inl hexplicit)
    · have hinUse := (of_decide_eq_true hused).resolve_left (by simp [hexplicit])
      exact keepOf_eq_true.2 (Or.inr (namedElsewhere_of_inUse (List.mem_zipIdx_iff_getElem?.1 hx) hexplicit hinUse))
  rw [hfst, Lib.map_filter_eq_iff hkept]
  constructor
  · intro h i p hi hexplicit hnamed
    have hused := h (p, i) (List.mem_zipIdx_iff_getElem?.2 hi) (keepOf_eq_true.2 (Or.inr hnamed))
    exact (of_decide_eq_true hused).resolve_left (by simp [hexplicit])
  · intro h x hx hkeep
    by_cases hexplicit : x.1.isExplicit = false
    · exact decide_eq_true (Or.inl hexplicit)
    · have hnamed := (keepOf_eq_true.1 hkeep).resolve_left (by simp [hexplicit])
      exact decide_eq_true (Or.inr (h x.2 x.1 (List.mem_zipIdx_iff_getElem?.1 hx) (by simpa using hexplicit) hnamed))

/-- An implicit meta-layer with one component, and an explicit meta-layer that nothing names, with another. -/
def strayComponent : List LayerProperties :=
  [{ LayerProperties.zero with layerName := "M", typeFlags := ⟨false, true⟩, componentLayerNames := ["A"] },
    { LayerProperties.zero with layerName := "E", typeFlags := ⟨true, true⟩, componentLayerNames := ["X"] },
    { LayerProperties.zero with layerName := "A", typeFlags := ⟨true, false⟩ },
    { LayerProperties.zero with layerName := "X", typeFlags := ⟨true, false⟩ }]

theorem strayComponent_inUse {p : LayerProperties} (h : InUseByImplicit strayComponent p) : p.layerName = "A" := by
  obtain ⟨m, hm, himplicit, -, hpath⟩ := h
  induction hpath with
  | single hstep =>
    obtain ⟨-, -, -, hname⟩ := hstep
    simp only [strayComponent, List.mem_cons, List.not_mem_nil, or_false] at hm
    rcases hm with rfl | rfl | rfl | rfl
    · simpa using hname
    · cases himplicit
    · cases himplicit
    · cases himplicit
  | tail _ hstep ih =>
    obtain ⟨hq, hmeta, -, -⟩ := hstep
    simp only [strayComponent, List.mem_cons, List.not_mem_nil, or_false] at hq
    rcases hq with rfl | rfl | rfl | rfl
    · exact absurd ih (by decide)
    · exact absurd ih (by decide)
    · cases hmeta
    · cases hmeta

theorem not_keepsComponentsInUse : ¬ KeepsComponentsInUse strayComponent := by
  classical
  intro h
  have hnames : (loaderRemoveLayersNotInImplicitMetaLayers strayComponent).map LayerProperties.layerName =
      ["M", "A", "X"] := by decide
  have hX : "X" ∈ (loaderRemoveLayersNotInImplicitMetaLayers strayComponent).map LayerProperties.layerName := by
    simp [hnames]
  obtain ⟨p, hp, hname⟩ := List.mem_map.1 hX
  unfold KeepsComponentsInUse at h
  rw [h] at hp
  obtain ⟨hmem, hused⟩ := List.mem_filter.1 hp
  rcases of_decide_eq_true hused with hexplicit | hinUse
  · simp only [strayComponent, List.mem_cons, List.not_mem_nil, or_false] at hmem
    rcases hmem with rfl | rfl | rfl | rfl
    · exact absurd hname (by decide)
    · cases hexplicit
    · cases hexplicit
    · cases hexplicit
  · rw [strayComponent_inUse hinUse] at hname
    exact absurd hname (by decide)

end VulkanLoader
