import VulkanLoader.Layers.Scan

/-!
# When the expansion ends

The check of `verify_all_meta_layers` is made so that the expansion of what it keeps ends, and it does as long as the
check and the expansion see the same layers: the layers of the settings file never go through the check, and where two
manifests give the same name the check goes on with the one and the expansion with the other.
-/

namespace VulkanLoader

open Relation

namespace LayerScan

/-- The check does not speak for the layer: it came with the settings file, or another regular layer has its name. -/
def Unchecked (s : LayerScan) (p : LayerProperties) : Prop :=
  p ∈ s.settingsLayers ∨ 1 < (s.regularLayers.2.map (·.layerName)).count p.layerName

/-- The edges of the expansion, in the list of the scan. -/
def follows (s : LayerScan) : LayerProperties → LayerProperties → Prop :=
  Follows s.activationContext (loaderScanForLayers s).layers

end LayerScan

section Names

variable {l : List LayerProperties}

/-- Two entries of a list whose name is there once are one. -/
theorem eq_of_name_once {name : String} (hname : (l.map (·.layerName)).count name ≤ 1) {i j : ℕ}
    {p q : LayerProperties} (hi : l[i]? = some p) (hj : l[j]? = some q) (hp : p.layerName = name)
    (hq : q.layerName = name) : i = j := by
  induction l generalizing i j with
  | nil => simp at hi
  | cons x l ih =>
    rw [List.map_cons, List.count_cons] at hname
    have hone : ∀ {k : ℕ} {r : LayerProperties}, l[k]? = some r → r.layerName = name → x.layerName ≠ name := by
      intro k r hk hr hx
      have hmem : name ∈ l.map (·.layerName) := List.mem_map.2 ⟨r, List.mem_of_getElem? hk, hr⟩
      have hpos := List.count_pos_iff.2 hmem
      rw [if_pos (beq_iff_eq.2 hx)] at hname
      omega
    rcases i with _ | i
    · rcases j with _ | j
      · rfl
      · obtain rfl := Option.some.inj hi
        exact absurd hp (hone hj hq)
    · rcases j with _ | j
      · obtain rfl := Option.some.inj hj
        exact absurd hq (hone hi hp)
      · rw [ih (by omega) hi hj]

end Names

section Cycle

variable {s : LayerScan}

/-- The names of a stage of the check are names of the regular layers. -/
theorem count_le_of_core_sublist {l l' : List LayerProperties} (h : (l.map (·.core)).Sublist (l'.map (·.core)))
    (name : String) : (l.map (·.layerName)).count name ≤ (l'.map (·.layerName)).count name := by
  have hnames : ∀ m : List LayerProperties, m.map (·.layerName) = (m.map (·.core)).map (·.layerName) := by
    intro m
    rw [List.map_map]
    rfl
  rw [hnames l, hnames l']
  exact (h.map _).count_le name

/-- A layer on a cycle that the check speaks for was verified, and its name is the name of one regular layer. -/
theorem verified_of_cycle {p : LayerProperties} (hcycle : TransGen s.follows p p) (hchecked : ¬ s.Unchecked p) :
    p ∈ s.verified.2.2 ∧ p.isMeta = true ∧ (s.regularLayers.2.map (·.layerName)).count p.layerName ≤ 1 := by
  obtain ⟨_, -, name, -, hfind, hexpands⟩ := TransGen.tail'_iff.1 hcycle
  have hmeta : p.isMeta = true := by
    simp only [LayerContext.expands, Bool.and_eq_true] at hexpands
    exact hexpands.1.1
  refine ⟨?_, hmeta, ?_⟩
  · exact (s.mem_of_mem_scan (mem_of_loaderFindLayerProperty hfind).1).resolve_left fun h => hchecked (Or.inl h)
  · exact Nat.le_of_not_lt fun h => hchecked (Or.inr h)

/-- **A step of the expansion is a step of the check**, in each stage that holds what is kept, if the name of the layer
that it leads to is there once. -/
theorem checks_of_follows {stage : List LayerProperties}
    (hstage : (s.verified.2.2.map (·.core)).Sublist (stage.map (·.core))) {i : ℕ} {x' x y : LayerProperties}
    (hi : stage[i]? = some x') (hx : x'.core = x.core) (hfollows : s.follows x y) (hy : y ∈ s.verified.2.2)
    (honce : (stage.map (·.layerName)).count y.layerName ≤ 1) :
    ∃ j y', Checks stage i j ∧ stage[j]? = some y' ∧ y'.core = y.core := by
  obtain ⟨name, hname, hfind, hexpands⟩ := hfollows
  have hyname : y.layerName = name := (mem_of_loaderFindLayerProperty hfind).2
  have hmeta : y.isMeta = true := by
    simp only [LayerContext.expands, Bool.and_eq_true] at hexpands
    exact hexpands.1.1
  -- the layer stands somewhere in the stage, and nothing else of its name does
  obtain ⟨y', hy', hcore⟩ := List.mem_map.1 (hstage.subset (List.mem_map.2 ⟨y, hy, rfl⟩))
  have hy'name : y'.layerName = name := (layerName_of_core hcore).trans hyname
  obtain ⟨j, hj⟩ := List.mem_iff_getElem?.1 hy'
  have hsame : ∀ z ∈ stage, z.layerName = name → z = y' := by
    intro z hz hzname
    obtain ⟨k, hk⟩ := List.mem_iff_getElem?.1 hz
    rw [hyname] at honce
    obtain rfl := eq_of_name_once honce hk hj hzname hy'name
    exact Option.some.inj (hk.symm.trans hj)
  -- so the check finds it, by the first layer of the name and by the last
  obtain ⟨z, hz⟩ : ∃ z, loaderFindLayerProperty name stage = some z := by
    rw [← Option.isSome_iff_exists, loaderFindLayerProperty, List.find?_isSome]
    exact ⟨y', hy', beq_iff_eq.2 hy'name.symm⟩
  obtain rfl := hsame z (mem_of_loaderFindLayerProperty hz).1 (mem_of_loaderFindLayerProperty hz).2
  obtain ⟨k, hk⟩ := exists_lastIndexOf hy' rfl
  obtain ⟨w, hw, hwname⟩ := lastIndexOf_spec hk
  obtain rfl := hsame w (List.mem_of_getElem? hw) (hwname.trans hy'name)
  have hcomp : x'.componentLayerNames = x.componentLayerNames := componentLayerNames_of_core hx
  have hmeta' : w.isMeta = true := by
    rw [isMeta_of_core hcore]
    exact hmeta
  exact ⟨k, w, ⟨x', hi, name, by rwa [hcomp], w, hz, hmeta', hk⟩, hw, hcore⟩

/-- **Every cycle of the expansion has a layer that the check does not speak for.** -/
theorem exists_unchecked_of_cycle {p : LayerProperties} (hcycle : TransGen s.follows p p) :
    ∃ q, s.Unchecked q ∧ TransGen s.follows q q := by
  by_contra hnone
  have hchecked : ∀ q, TransGen s.follows q q → ¬ s.Unchecked q := fun q hq hun => hnone ⟨q, hun, hq⟩
  obtain ⟨hp, hmeta, hpname⟩ := verified_of_cycle hcycle (hchecked p hcycle)
  obtain ⟨stage, ⟨i, p', hi, hcore, hpass⟩, hfirst, hlast⟩ := verifyAllMetaLayers_kept _ _ _ hp hmeta
  have honce : ∀ q, TransGen s.follows q q → (stage.map (·.layerName)).count q.layerName ≤ 1 := fun q hq =>
    Nat.le_trans (count_le_of_core_sublist hlast _) (verified_of_cycle hq (hchecked q hq)).2.2
  -- the cycle is walked by the check, from the place of `p` back to it
  obtain ⟨j, hwalk, y', hj, hy'⟩ := Lib.walk_of_cycle
    (S := fun j y => ∃ y', stage[j]? = some y' ∧ y'.core = y.core)
    (t := Checks stage) (fun k x y hx _ hy hxy => by
      obtain ⟨x', hk, hx'⟩ := hx
      obtain ⟨l, y', hchecks, hl, hy'⟩ :=
        checks_of_follows hfirst hk hx' hxy (verified_of_cycle hy (hchecked y hy)).1 (honce y hy)
      exact ⟨l, hchecks, y', hl, hy'⟩)
    ⟨p', hi, hcore⟩ hcycle
  obtain rfl := eq_of_name_once (honce p hcycle) hi hj (layerName_of_core hcore) (layerName_of_core hy')
  exact not_transGen_of_verifyMetaLayer hpass hwalk

end Cycle

/-- **The expansion of every layer list that a scan makes ends exactly if** no layer that the check does not speak for
leads back to itself. -/
theorem expansionTerminates_iff (s : LayerScan) :
    ExpansionTerminates s.activationContext (loaderScanForLayers s).layers ↔
      ∀ p, s.Unchecked p → ¬ TransGen s.follows p p := by
  rw [expansionTerminates_iff_no_cycle]
  constructor
  · intro hnone p _
    exact hnone p
  · intro hunchecked p hcycle
    obtain ⟨q, hq, hqcycle⟩ := exists_unchecked_of_cycle (s := s) hcycle
    exact hunchecked q hq hqcycle

/-- Without meta-layers in the settings file and with a name for each regular layer, the expansion ends. -/
theorem expansionTerminates_of_distinct (s : LayerScan) (hsettings : ∀ p ∈ s.settingsLayers, p.isMeta = false)
    (hnames : (s.regularLayers.2.map (·.layerName)).Nodup) :
    ExpansionTerminates s.activationContext (loaderScanForLayers s).layers := by
  rw [expansionTerminates_iff_no_cycle]
  intro p hcycle
  obtain ⟨q, hq, hqcycle⟩ := exists_unchecked_of_cycle (s := s) hcycle
  rcases hq with hq | hq
  · obtain ⟨_, -, _, -, -, hexpands⟩ := TransGen.tail'_iff.1 hqcycle
    simp [LayerContext.expands, hsettings q hq] at hexpands
  · have hle := List.nodup_iff_count_le_one.1 hnames q.layerName
    omega

/-! ### A meta-layer of the settings file -/

/-- An explicit meta-layer. -/
def LayerProperties.metaNamed (name : String) (components : List String) : LayerProperties :=
  { LayerProperties.zero with layerName := name, typeFlags := ⟨true, true⟩, componentLayerNames := components }

/-- A scan without any filter, variable, override layer or failure. -/
def LayerScan.plain (settings : Option (List SettingsEntry)) (explicit : List LayerProperties) : LayerScan where
  settings := settings
  implicitFiles := ⟨.success, []⟩
  explicitFiles := fun _ => ⟨.success, [⟨.success, fun _ => explicit, fun _ => .success⟩]⟩
  overridePathsMemory := true
  executablePath := none
  getenv := fun _ => none
  filters := .unset
  extensionRequests := fun _ => ⟨fun _ => true, fun _ _ => true⟩
  combineMemory := true

/-- The settings file turns a meta-layer on, which names itself as its component. -/
def selfComponentScan : LayerScan :=
  .plain (some [⟨⟨"VK_LAYER_A", some "VkLayer_A.json", .on, false⟩,
    ⟨.success, fun _ => [.metaNamed "VK_LAYER_A" ["VK_LAYER_A"]], fun _ => .success⟩, true⟩]) []

/-- Two manifests give the name `VK_LAYER_A`.  The check goes from the first of them to `VK_LAYER_B` and on to the
second, the expansion goes on to the first. -/
def twoManifestsScan : LayerScan :=
  .plain none [.metaNamed "VK_LAYER_A" ["VK_LAYER_B"], .metaNamed "VK_LAYER_A" [], .metaNamed "VK_LAYER_B" ["VK_LAYER_A"]]

/-- The settings file can make a list whose expansion does not end. -/
theorem not_expansionTerminates : ¬ ∀ s : LayerScan,
    ExpansionTerminates s.activationContext (loaderScanForLayers s).layers := by
  intro hall
  have hends := (expansionTerminates_iff_no_cycle _ _).1 (hall selfComponentScan)
  apply hends { LayerProperties.metaNamed "VK_LAYER_A" ["VK_LAYER_A"] with settingsControlValue := .on }
  exact .single ⟨"VK_LAYER_A", List.mem_singleton_self _, rfl, by decide⟩

/-- Two manifests of one name can, too. -/
theorem not_expansionTerminates_twoManifests :
    ¬ ExpansionTerminates twoManifestsScan.activationContext (loaderScanForLayers twoManifestsScan).layers := by
  intro hends
  apply (expansionTerminates_iff_no_cycle _ _).1 hends (.metaNamed "VK_LAYER_A" ["VK_LAYER_B"])
  refine .head (b := .metaNamed "VK_LAYER_B" ["VK_LAYER_A"]) ?_ (.single ?_)
  · exact ⟨"VK_LAYER_B", List.mem_singleton_self _, rfl, by decide⟩
  · exact ⟨"VK_LAYER_A", List.mem_singleton_self _, rfl, by decide⟩

end VulkanLoader
