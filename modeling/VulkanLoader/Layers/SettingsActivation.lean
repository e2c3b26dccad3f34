import VulkanLoader.Layers.Expansion
import VulkanLoader.Layers.Termination
import VulkanLoader.Lib.Lists

/-!
# Activation with a settings file

One pass over the instance layers adds each layer that the settings, the environment, the application or the defaults
enable.  A meta-layer goes through the expansion, which asks whether a name is there; a layer that is no meta-layer is
added without that question, so it is added again if a meta-layer before it in the list brought it.  And the expansion
does not ask for the control value of a component.
-/

namespace VulkanLoader

open Lib

/-- What the settings ask for: no name twice, no layer that is off, every layer that is on. -/
structure FollowsSettings (a : Activation) (expanded : List LayerProperties) : Prop where
  names : (expanded.map LayerProperties.layerName).Nodup
  off : ∀ p ∈ expanded, p.settingsControlValue ≠ .off
  on : ∀ p ∈ a.sourceList, p.isMeta = false → p.settingsControlValue = .on → p ∈ expanded

section Conditions

variable (a : Activation) (appEnabledNames : List String)

/-- The pass takes the layer. -/
def SettingsTakes (p : LayerProperties) : Prop :=
  settingsEnableLayer a.ctx a.enabledLayersEnv appEnabledNames p = true

/-- A meta-layer that the pass takes brings the layer. -/
def BroughtBySettings (done : List LayerProperties) (q : LayerProperties) : Prop :=
  ∃ m ∈ done, m.isMeta = true ∧ SettingsTakes a appEnabledNames m ∧ Brings a.ctx a.sourceList m q

/-- No layer that the pass takes itself is brought by a meta-layer that comes before it. -/
def NoneBroughtBefore (done : List LayerProperties) : Prop :=
  ∀ m p, Precedes done m p → m.isMeta = true → SettingsTakes a appEnabledNames m → p.isMeta = false →
    SettingsTakes a appEnabledNames p → ¬ Brings a.ctx a.sourceList m p

end Conditions

/-! ### The pass -/

/-- The lists after the pass came to the layers in `done`. -/
structure PassDone (a : Activation) (appEnabledNames : List String) (done : List LayerProperties) (t : LayerTargets)
    (e : List LayerProperties) : Prop where
  expanded : t.expanded = some e
  target : ∀ x ∈ t.target, x ∈ a.sourceList ∧ (x.isMeta = false → x ∈ e)
  found : ∀ q ∈ e, loaderFindLayerNameInList q.layerName t.target = true
  mem : ∀ q, q ∈ e ↔ (q ∈ done ∧ q.isMeta = false ∧ SettingsTakes a appEnabledNames q) ∨
    BroughtBySettings a appEnabledNames done q
  nodup : e.Nodup ↔ NoneBroughtBefore a appEnabledNames done

section Pass

variable {a : Activation} {appEnabledNames : List String} {done : List LayerProperties} {t t' : LayerTargets}
  {e : List LayerProperties} {p : LayerProperties}

theorem broughtBySettings_concat {q : LayerProperties} :
    BroughtBySettings a appEnabledNames (done ++ [p]) q ↔ BroughtBySettings a appEnabledNames done q ∨
      (p.isMeta = true ∧ SettingsTakes a appEnabledNames p ∧ Brings a.ctx a.sourceList p q) := by
  unfold BroughtBySettings
  simp only [List.mem_append, List.mem_singleton, or_and_right, exists_or, exists_eq_left]

theorem noneBroughtBefore_concat :
    NoneBroughtBefore a appEnabledNames (done ++ [p]) ↔ NoneBroughtBefore a appEnabledNames done ∧
      (p.isMeta = false → SettingsTakes a appEnabledNames p → ¬ BroughtBySettings a appEnabledNames done p) := by
  unfold NoneBroughtBefore BroughtBySettings
  constructor
  · intro h
    refine ⟨fun m q hq => h m q hq.append, ?_⟩
    rintro hmeta htakes ⟨m, hm, hmm, hmt, hb⟩
    exact h m p (precedes_append hm (List.mem_singleton_self _)) hmm hmt hmeta htakes hb
  · rintro ⟨h, hlast⟩ m q hq hmm hmt hmeta htakes hb
    rcases precedes_concat.1 hq with hq | ⟨hm, rfl⟩
    · exact h m q hq hmm hmt hmeta htakes hb
    · exact hlast hmeta htakes ⟨m, hm, hmm, hmt, hb⟩

theorem PassDone.empty : PassDone a appEnabledNames [] .empty [] := by
  refine ⟨rfl, List.forall_mem_nil _, List.forall_mem_nil _, fun q => ?_, ?_⟩
  · simp [BroughtBySettings]
  · refine iff_of_true List.nodup_nil ?_
    rintro m p ⟨l₁, l₂, heq, -⟩
    simp at heq

/-- The pass leaves the layer out. -/
theorem PassDone.skip (h : PassDone a appEnabledNames done t e) (hnot : ¬ SettingsTakes a appEnabledNames p) :
    PassDone a appEnabledNames (done ++ [p]) t e := by
  refine ⟨h.expanded, h.target, h.found, fun q => ?_, ?_⟩
  · rw [h.mem q, broughtBySettings_concat, List.mem_append, List.mem_singleton]
    refine or_congr ⟨fun hq => ⟨Or.inl hq.1, hq.2⟩, ?_⟩ ⟨Or.inl, ?_⟩
    · rintro ⟨hq | rfl, hmeta, htakes⟩
      · exact ⟨hq, hmeta, htakes⟩
      · exact absurd htakes hnot
    · rintro (hq | ⟨-, htakes, -⟩)
      · exact hq
      · exact absurd htakes hnot
  · rw [h.nodup, noneBroughtBefore_concat]
    exact (and_iff_left fun _ htakes => absurd htakes hnot).symm

/-- The pass adds the layer itself, whether it is there or not. -/
theorem PassDone.add (h : PassDone a appEnabledNames done t e) (htakes : SettingsTakes a appEnabledNames p)
    (hmem : p ∈ a.sourceList) (hmeta : p.isMeta = false) (hnew : p ∉ done) :
    PassDone a appEnabledNames (done ++ [p]) ⟨t.target ++ [p], some (e ++ [p])⟩ (e ++ [p]) := by
  have hnotmeta : ∀ q, ¬ (p.isMeta = true ∧ SettingsTakes a appEnabledNames p ∧ Brings a.ctx a.sourceList p q) := by
    rintro q ⟨hm, -⟩
    rw [hmeta] at hm
    cases hm
  refine ⟨rfl, fun x hx => ?_, fun q hq => ?_, fun q => ?_, ?_⟩
  · rcases List.mem_append.1 hx with hx | hx
    · exact ⟨(h.target x hx).1, fun hm => List.mem_append_left _ ((h.target x hx).2 hm)⟩
    · rw [List.mem_singleton.1 hx]
      exact ⟨hmem, fun _ => by simp⟩
  · rw [loaderFindLayerNameInList_append]
    rcases List.mem_append.1 hq with hq | hq
    · rw [h.found q hq]
      rfl
    · rw [List.mem_singleton.1 hq]
      simp [loaderFindLayerNameInList]
  · rw [List.mem_append, List.mem_singleton, h.mem q, broughtBySettings_concat, or_iff_left (hnotmeta q),
      List.mem_append, List.mem_singleton]
    constructor
    · rintro ((⟨hq, hq'⟩ | hq) | rfl)
      · exact Or.inl ⟨Or.inl hq, hq'⟩
      · exact Or.inr hq
      · exact Or.inl ⟨Or.inr rfl, hmeta, htakes⟩
    · rintro (⟨hq | rfl, hq'⟩ | hq)
      · exact Or.inl (Or.inl ⟨hq, hq'⟩)
      · exact Or.inr rfl
      · exact Or.inl (Or.inr hq)
  · -- the layer was there exactly if a meta-layer before it brought it
    have hthere : p ∈ e ↔ BroughtBySettings a appEnabledNames done p := by
      rw [h.mem p, or_iff_right fun hp => hnew hp.1]
    rw [noneBroughtBefore_concat, ← h.nodup, ← hthere, List.nodup_append]
    constructor
    · rintro ⟨hnd, -, hdisj⟩
      exact ⟨hnd, fun _ _ hp => hdisj p hp p (List.mem_singleton_self _) rfl⟩
    · rintro ⟨hnd, hlast⟩
      refine ⟨hnd, List.nodup_singleton _, ?_⟩
      rintro q hq r hr rfl
      rw [List.mem_singleton.1 hr] at hq
      exact hlast hmeta htakes hq

/-- The pass expands a meta-layer. -/
theorem PassDone.expand (h : PassDone a appEnabledNames done t e) (htakes : SettingsTakes a appEnabledNames p)
    (hnd : (a.sourceList.map LayerProperties.layerName).Nodup) (hmeta : p.isMeta = true) (hadded : Added a p t t') :
    ∃ e', PassDone a appEnabledNames (done ++ [p]) t' e' := by
  obtain ⟨e₀, xs, ys, he₀, hys, ht, hxs, hnonmeta, hnew, hndys, -⟩ := hadded.guarded.appended
  obtain rfl := Option.some.inj (h.expanded.symm.trans he₀)
  have hcomes : ∀ q, ComesWith a.ctx a.sourceList p q ↔ Brings a.ctx a.sourceList p q := by
    intro q
    unfold ComesWith
    simp [hmeta]
  refine ⟨e ++ ys, hys, fun x hx => ?_, fun q hq => ?_, fun q => ?_, ?_⟩
  · rw [ht] at hx
    rcases List.mem_append.1 hx with hx | hx
    · exact ⟨(h.target x hx).1, fun hm => List.mem_append_left _ ((h.target x hx).2 hm)⟩
    · exact ⟨hxs x hx, fun hm => List.mem_append_right _ (hnonmeta x hx hm)⟩
  · rcases List.mem_append.1 hq with hq | hq
    · exact hadded.guarded.find_mono (h.found q hq)
    · rw [ht, loaderFindLayerNameInList_append, Bool.or_eq_true]
      exact Or.inr (loaderFindLayerNameInList_eq_true.2 ⟨q, (hnew q hq).2.2.1, rfl⟩)
  · rw [broughtBySettings_concat, List.mem_append]
    constructor
    · rintro (hq | hq)
      · rcases (h.mem q).1 hq with ⟨hq, hq'⟩ | hq
        · exact Or.inl ⟨List.mem_append_left _ hq, hq'⟩
        · exact Or.inr (Or.inl hq)
      · exact Or.inr (Or.inr ⟨hmeta, htakes, (hcomes q).1 (hnew q hq).1⟩)
    · rintro (⟨hq, hm, hq'⟩ | hq | ⟨-, -, hq⟩)
      · rcases List.mem_append.1 hq with hq | hq
        · exact Or.inl ((h.mem q).2 (Or.inl ⟨hq, hm, hq'⟩))
        · rw [List.mem_singleton.1 hq, hmeta] at hm
          cases hm
      · exact Or.inl ((h.mem q).2 (Or.inr hq))
      · -- what the meta-layer brings is in the lists, as the one layer of its name
        obtain ⟨x, hx, hname⟩ := loaderFindLayerNameInList_eq_true.1 (hadded.complete q ((hcomes q).2 hq))
        obtain ⟨hqmem, hqmeta⟩ := mem_of_brings hq
        have hx' : x ∈ a.sourceList ∧ (x.isMeta = false → x ∈ e ++ ys) := by
          rw [ht] at hx
          rcases List.mem_append.1 hx with hx | hx
          · exact ⟨(h.target x hx).1, fun hm => List.mem_append_left _ ((h.target x hx).2 hm)⟩
          · exact ⟨hxs x hx, fun hm => List.mem_append_right _ (hnonmeta x hx hm)⟩
        obtain rfl : x = q := List.inj_on_of_nodup_map hnd hx'.1 hqmem hname
        exact List.mem_append.1 (hx'.2 hqmeta)
  · -- what the expansion adds was not there, and is added once
    rw [noneBroughtBefore_concat, and_iff_left fun hm => absurd hm (by simp [hmeta]), ← h.nodup, List.nodup_append]
    refine ⟨fun hnodup => hnodup.1, fun hnodup => ⟨hnodup, List.Nodup.of_map _ hndys, ?_⟩⟩
    rintro q hq r hr rfl
    have hfound := h.found q hq
    rw [(hnew q hr).2.2.2] at hfound
    cases hfound

/-- **The pass**, over the rest of the layers. -/
theorem enableCorrectLayersFromSettings_passDone (hnd : (a.sourceList.map LayerProperties.layerName).Nodup)
    {fuel : ℕ} {props : List LayerProperties} {res : VkResult} (hsplit : a.sourceList = done ++ props)
    (h : PassDone a appEnabledNames done t e)
    (hrun : enableCorrectLayersFromSettings a fuel appEnabledNames props res t = some (.success, t')) :
    ∃ e', PassDone a appEnabledNames a.sourceList t' e' := by
  induction props generalizing done t e res with
  | nil =>
    obtain ⟨-, rfl⟩ := Prod.mk.inj (Option.some.inj hrun)
    rw [List.append_nil] at hsplit
    exact ⟨e, hsplit ▸ h⟩
  | cons p props ih =>
    have hsplit' : a.sourceList = (done ++ [p]) ++ props := by rw [hsplit, List.append_assoc]; rfl
    have hmem : p ∈ a.sourceList := by rw [hsplit]; simp
    unfold enableCorrectLayersFromSettings at hrun
    by_cases htakes : settingsEnableLayer a.ctx a.enabledLayersEnv appEnabledNames p = true
    · rw [if_pos htakes] at hrun
      obtain ⟨r, hr, hrun⟩ := Option.bind_eq_some_iff.1 hrun
      by_cases hstop : r.1 = .errorOutOfHostMemory ∨ (!p.isMeta ∧ r.1 ≠ .success)
      · rw [if_pos hstop] at hrun
        obtain rfl := Option.some.inj hrun
        simp at hstop
      · rw [if_neg hstop] at hrun
        rw [not_or] at hstop
        unfold Activation.addLayer at hr
        by_cases hmeta : p.isMeta = true
        · rw [if_neg (by simpa using hmeta)] at hr
          obtain ⟨s, hs, rfl⟩ := Option.map_eq_some_iff.1 hr
          have hadded := loaderAddMetaLayer_expandsAll a fuel p hmem hmeta t (by rw [h.expanded]; rfl) s hs hstop.1
          obtain ⟨e', h'⟩ := h.expand htakes hnd hmeta hadded
          exact ih hsplit' h' hrun
        · rw [if_pos (by simpa using hmeta)] at hr
          obtain rfl := Option.some.inj hr
          obtain ⟨e₀, he₀, heq⟩ := addToBoth_cases p (by rw [h.expanded]; rfl) hstop.1
          obtain rfl := Option.some.inj (h.expanded.symm.trans he₀)
          rw [heq] at hrun
          have hnew : p ∉ done := by
            intro hp
            have hnodup := List.Nodup.of_map _ hnd
            rw [hsplit, List.nodup_append] at hnodup
            exact hnodup.2.2 p hp p List.mem_cons_self rfl
          exact ih hsplit' (h.add htakes hmem (by simpa using hmeta) hnew) hrun
    · rw [if_neg htakes] at hrun
      exact ih hsplit' (h.skip htakes) hrun

theorem SettingsTakes.not_off (h : SettingsTakes a appEnabledNames p) : p.settingsControlValue ≠ .off := by
  intro hoff
  simp [SettingsTakes, settingsEnableLayer, hoff] at h

theorem settingsTakes_of_on (h : p.settingsControlValue = .on) : SettingsTakes a appEnabledNames p := by
  simp [SettingsTakes, settingsEnableLayer, h]

theorem PassDone.follows_iff (hnd : (a.sourceList.map LayerProperties.layerName).Nodup)
    (h : PassDone a appEnabledNames a.sourceList t e) :
    FollowsSettings a e ↔ NoneBroughtBefore a appEnabledNames a.sourceList ∧
      ∀ q, BroughtBySettings a appEnabledNames a.sourceList q → q.settingsControlValue ≠ .off := by
  have hmem : ∀ q ∈ e, q ∈ a.sourceList := by
    intro q hq
    rcases (h.mem q).1 hq with ⟨hq, -⟩ | ⟨m, -, -, -, hbrings⟩
    · exact hq
    · exact (mem_of_brings hbrings).1
  constructor
  · intro hfollows
    exact ⟨h.nodup.1 (List.Nodup.of_map _ hfollows.names), fun q hq => hfollows.off q ((h.mem q).2 (Or.inr hq))⟩
  · rintro ⟨hnone, hoff⟩
    refine ⟨?_, fun q hq => ?_, fun q hq hmeta hon => ?_⟩
    · refine (List.nodup_map_iff_inj_on (h.nodup.2 hnone)).2 fun x hx y hy hname => ?_
      exact List.inj_on_of_nodup_map hnd (hmem x hx) (hmem y hy) hname
    · rcases (h.mem q).1 hq with ⟨-, -, htakes⟩ | hq
      · exact htakes.not_off
      · exact hoff q hq
    · exact (h.mem q).2 (Or.inl ⟨hq, hmeta, settingsTakes_of_on hon⟩)

end Pass

/-- **The list follows the settings exactly if** no layer that the pass takes is brought by a meta-layer that comes
before it, and no meta-layer brings a layer that is off. -/
theorem followsSettings_iff (a : Activation) (appEnabledNames : List String)
    (hnd : (a.sourceList.map LayerProperties.layerName).Nodup) (hends : ExpansionTerminates a.ctx a.sourceList) :
    (∃ fuel, (enableCorrectLayersFromSettings a fuel appEnabledNames a.sourceList .success .empty).isSome) ∧
      ∀ fuel t, enableCorrectLayersFromSettings a fuel appEnabledNames a.sourceList .success .empty =
          some (.success, t) →
        ∃ e, t.expanded = some e ∧
          (FollowsSettings a e ↔ NoneBroughtBefore a appEnabledNames a.sourceList ∧
            ∀ q, BroughtBySettings a appEnabledNames a.sourceList q → q.settingsControlValue ≠ .off) := by
  constructor
  · obtain ⟨fuel, hfuel⟩ := exists_fuel_of_terminates a hends
    exact ⟨fuel, enableCorrectLayersFromSettings_isSome hfuel (fun _ hp => hp) _ _ _⟩
  · intro fuel t hrun
    obtain ⟨e, h⟩ := enableCorrectLayersFromSettings_passDone hnd (List.nil_append _).symm .empty hrun
    exact ⟨e, h.expanded, h.follows_iff hnd⟩

/-! ### A meta-layer and its component -/

/-- An entry of the settings file for the layer of a manifest. -/
def SettingsEntry.setTo (control : SettingsLayerControl) (p : LayerProperties) : SettingsEntry :=
  ⟨⟨p.layerName, some (p.layerName ++ ".json"), control, false⟩, ⟨.success, fun _ => [p], fun _ => .success⟩, true⟩

/-- The activation, without a failure, of the layers of a settings file. -/
def settingsActivation (entries : List SettingsEntry) : Activation :=
  let scan := LayerScan.plain (some entries) []
  .granting scan.activationContext (loaderScanForLayers scan).layers

/-- No meta-layer is a component of another one. -/
theorem settingsActivation_terminates (entries : List SettingsEntry)
    (hnone : ∀ p ∈ (settingsActivation entries).sourceList, ∀ name ∈ p.componentLayerNames, ∀ q,
      loaderFindLayerProperty name (settingsActivation entries).sourceList = some q → q.isMeta = false) :
    ExpansionTerminates (settingsActivation entries).ctx (settingsActivation entries).sourceList := by
  rw [expansionTerminates_iff_no_cycle]
  intro p hcycle
  obtain ⟨q, ⟨name, hname, hfind, hexpands⟩, -⟩ := Relation.TransGen.head'_iff.1 hcycle
  obtain ⟨_, -, name', -, hfind', -⟩ := Relation.TransGen.tail'_iff.1 hcycle
  simp [LayerContext.expands, hnone p (mem_of_loaderFindLayerProperty hfind').1 name hname q hfind] at hexpands

/-- A layer and a meta-layer that brings it, as the scan puts them into the list. -/
def componentLayer : LayerProperties :=
  { LayerProperties.explicitNamed "VK_LAYER_A" with settingsControlValue := .on }

def metaOfComponent : LayerProperties :=
  { LayerProperties.metaNamed "VK_LAYER_M" ["VK_LAYER_A"] with settingsControlValue := .on }

/-- A settings file with a layer that is on, one that is off, one left to the environment, and a meta-layer after the
layer that it brings. -/
def fourSettings : Activation :=
  settingsActivation [.setTo .on componentLayer, .setTo .off (.explicitNamed "VK_LAYER_B"),
    .setTo .default (.explicitNamed "VK_LAYER_D"), .setTo .on metaOfComponent]

/-- The application asks for the layer that is off and for the one that is left to it. -/
theorem followsSettings_iff_fourSettings : ∃ t e,
    enableCorrectLayersFromSettings fourSettings 1 ["VK_LAYER_B", "VK_LAYER_D"] fourSettings.sourceList .success .empty =
        some (.success, t) ∧ t.expanded = some e ∧
      e.map LayerProperties.layerName = ["VK_LAYER_A", "VK_LAYER_D"] ∧ FollowsSettings fourSettings e := by
  have hrun : ∃ t e, enableCorrectLayersFromSettings fourSettings 1 ["VK_LAYER_B", "VK_LAYER_D"] fourSettings.sourceList
      .success .empty = some (.success, t) ∧ t.expanded = some e ∧
        e.map LayerProperties.layerName = ["VK_LAYER_A", "VK_LAYER_D"] := ⟨_, _, rfl, rfl, rfl⟩
  obtain ⟨t, e, ht, he, hnames⟩ := hrun
  obtain ⟨e', he', hiff⟩ := (followsSettings_iff fourSettings ["VK_LAYER_B", "VK_LAYER_D"] (by decide)
    (settingsActivation_terminates _ (by decide))).2 1 t ht
  obtain rfl := Option.some.inj (he.symm.trans he')
  refine ⟨t, e, ht, he, hnames, hiff.2 ⟨fun m p hbefore hmeta => ?_, ?_⟩⟩
  · -- the meta-layer is the last one
    have hlist : fourSettings.sourceList = fourSettings.sourceList.take 3 ++ [metaOfComponent] := rfl
    have hplain : ∀ q ∈ fourSettings.sourceList.take 3, q.isMeta = false := by decide
    rw [hlist, precedes_concat] at hbefore
    have hm : m ∈ fourSettings.sourceList.take 3 := hbefore.elim (fun h => h.mem_left) fun h => h.1
    rw [hplain m hm] at hmeta
    cases hmeta
  · -- what it brings is on
    rintro q ⟨m, hm, -, -, m', hpath, name, hname, hfind, -⟩
    have hm' : m' ∈ fourSettings.sourceList := by
      rcases hpath.cases_tail with rfl | ⟨_, -, _, -, hfind', -⟩
      · exact hm
      · exact (mem_of_loaderFindLayerProperty hfind').1
    have hcomponents : ∀ p ∈ fourSettings.sourceList, ∀ name ∈ p.componentLayerNames, name = "VK_LAYER_A" := by decide
    obtain rfl := hcomponents m' hm' name hname
    obtain rfl := Option.some.inj (hfind.symm.trans (show _ = some componentLayer from rfl))
    decide

/-- A meta-layer and, after it, its component, both of them on: the component is there twice. -/
theorem not_followsSettings : ¬ ∀ (s : LayerScan) (appEnabledNames : List String) (targetGrows expandedGrows : ℕ → Bool),
    s.settings.isSome → ((loaderScanForLayers s).layers.map LayerProperties.layerName).Nodup →
      ExpansionTerminates s.activationContext (loaderScanForLayers s).layers →
        ∀ fuel t e, enableCorrectLayersFromSettings
            ⟨s.activationContext, (loaderScanForLayers s).layers, targetGrows, expandedGrows⟩ fuel appEnabledNames
            (loaderScanForLayers s).layers .success .empty = some (.success, t) → t.expanded = some e →
          FollowsSettings ⟨s.activationContext, (loaderScanForLayers s).layers, targetGrows, expandedGrows⟩ e := by
  intro hall
  have h := hall (.plain (some [.setTo .on metaOfComponent, .setTo .on componentLayer]) []) [] (fun _ => true)
    (fun _ => true) rfl (by decide)
    (settingsActivation_terminates [.setTo .on metaOfComponent, .setTo .on componentLayer] (by decide)) 1
    ⟨[componentLayer, metaOfComponent, componentLayer], some [componentLayer, componentLayer]⟩
    [componentLayer, componentLayer] rfl rfl
  have hnames := h.names
  revert hnames
  decide

end VulkanLoader
