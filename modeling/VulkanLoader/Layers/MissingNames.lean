import VulkanLoader.Layers.ActivationTurns
import VulkanLoader.Layers.MissingComponents
import VulkanLoader.Lib.Lists

/-!
# Names that find no layer

`loader_add_layer_names_to_list` notes in its result that a name finds no layer and goes on with the next name.  A name
after it that adds a layer writes the same variable, so what is noted lasts only where the names after the last missing
one are all passed over (`reportsAbsentNames_iff`): their layers are not available, or are in the first list by then.
-/

namespace VulkanLoader

open Relation VulkanLoader.Lib

/-- The call reports a layer that is not there exactly if one of the names finds none. -/
def ReportsAbsentNames (ctx : LayerContext) (sourceList : List LayerProperties) (names : List String)
    (t : LayerTargets) : Prop :=
  ∃ fuel r, loaderAddLayerNamesToList (.granting ctx sourceList) fuel names .success t = some r ∧
    (r.1 = .errorLayerNotPresent ↔ ∃ name ∈ names, loaderFindLayerProperty name sourceList = none)

/-- With the layer `p` comes `q`, itself or as a component, or as a meta-layer that finds its own components. -/
def Activates (ctx : LayerContext) (sourceList : List LayerProperties) (p q : LayerProperties) : Prop :=
  ComesWith ctx sourceList p q ∨
    (p.isMeta = true ∧ q.isMeta = true ∧ ReflTransGen (Follows ctx sourceList) p q ∧ ComponentsFound sourceList q)

/-- The layer of the name is active after the names: it was before, or comes with the layer of one of them that was not
and is available. -/
def ActiveAfter (ctx : LayerContext) (sourceList target : List LayerProperties) (names : List String) (n : String) :
    Prop :=
  loaderFindLayerNameInList n target = true ∨
    ∃ m ∈ names, loaderFindLayerNameInList m target = false ∧ ∃ p, loaderFindLayerProperty m sourceList = some p ∧
      loaderLayerIsAvailable ctx.filters p = true ∧ ∃ q, Activates ctx sourceList p q ∧ q.layerName = n

/-- The name adds nothing, given which layers are active: its own layer is not available, or active. -/
def PassedOver (ctx : LayerContext) (sourceList : List LayerProperties) (active : String → Prop) (n : String) : Prop :=
  ∀ p, loaderFindLayerProperty n sourceList = some p → loaderLayerIsAvailable ctx.filters p = true → active n

/-! ### What comes with a layer -/

section Activates

variable {ctx : LayerContext} {sourceList : List LayerProperties} {m : String} {p q q' : LayerProperties}

/-- What comes with a layer is what its name finds. -/
theorem find_of_activates (hfind : loaderFindLayerProperty m sourceList = some p)
    (h : Activates ctx sourceList p q) : loaderFindLayerProperty q.layerName sourceList = some q := by
  have hnamed : ∀ {n x}, loaderFindLayerProperty n sourceList = some x →
      loaderFindLayerProperty x.layerName sourceList = some x := by
    intro n x hx
    rw [(mem_of_loaderFindLayerProperty hx).2]
    exact hx
  rcases h with (⟨-, rfl⟩ | ⟨-, _, -, _, -, hq, -⟩) | ⟨-, -, hreach, -⟩
  · exact hnamed hfind
  · exact hnamed hq
  · rcases ReflTransGen.cases_tail hreach with rfl | ⟨_, -, _, -, hq, -⟩
    · exact hnamed hfind
    · exact hnamed hq

theorem Activates.trans (h : Activates ctx sourceList p q) (h' : Activates ctx sourceList q q') :
    Activates ctx sourceList p q' := by
  have hbrings : ∀ x, Brings ctx sourceList p x → x.isMeta = false := fun x hx => (mem_of_brings hx).2
  by_cases hmeta : q.isMeta = true
  · -- a meta-layer comes with a meta-layer only
    obtain ⟨hp, hreach⟩ : p.isMeta = true ∧ ReflTransGen (Follows ctx sourceList) p q := by
      rcases h with (⟨hnot, rfl⟩ | ⟨-, hq⟩) | ⟨hp, -, hreach, -⟩
      · rw [hmeta] at hnot
        cases hnot
      · rw [hbrings q hq] at hmeta
        cases hmeta
      · exact ⟨hp, hreach⟩
    rcases h' with (⟨hnot, -⟩ | ⟨-, m', hm', hname⟩) | ⟨-, hq', hreach', hfound⟩
    · rw [hmeta] at hnot
      cases hnot
    · exact .inl (.inr ⟨hp, m', hreach.trans hm', hname⟩)
    · exact .inr ⟨hp, hq', hreach.trans hreach', hfound⟩
  · rcases h' with (⟨-, rfl⟩ | ⟨hq, -⟩) | ⟨hq, -⟩
    · exact h
    · exact absurd hq hmeta
    · exact absurd hq hmeta

/-- Adding a layer, where no request fails: the first list has the names that it had and those that come with it. -/
theorem find_addLayer {fuel : ℕ} {t : LayerTargets} (hmem : p ∈ sourceList) (he : t.expanded.isSome)
    (hnot : loaderFindLayerNameInList p.layerName t.target = false) {r : VkResult × LayerTargets}
    (h : (Activation.granting ctx sourceList).addLayer fuel p t = some r) :
    r.1 = .success ∧ r.2.expanded.isSome ∧ ∀ n, loaderFindLayerNameInList n r.2.target = true ↔
      loaderFindLayerNameInList n t.target = true ∨ ∃ q, Activates ctx sourceList p q ∧ q.layerName = n := by
  have hmetas : r.1 = .success ∧
      MetasAdded sourceList (fun m => p.isMeta = true ∧ ReflTransGen (Follows ctx sourceList) p m) t r.2 := by
    have hunfold := h
    unfold Activation.addLayer at hunfold
    split_ifs at hunfold with hmeta
    · obtain rfl := Option.some.inj hunfold
      have hmeta' : p.isMeta = false := by simpa using hmeta
      refine ⟨addToBoth_granting p t, metasAdded_addToBoth hmeta' fun m _ hm => ?_⟩
      rw [hmeta'] at hm
      cases hm.1
    · have hmeta' : p.isMeta = true := by simpa using hmeta
      obtain ⟨s, hs, rfl⟩ := Option.map_eq_some_iff.1 hunfold
      obtain ⟨hadded, -, hres⟩ := metasAdded_loaderAddMetaLayer fuel p t s hs
      exact ⟨hres, hadded.congr fun m _ => (and_iff_right hmeta').symm⟩
  obtain ⟨hres, xs, htarget, hxs⟩ := hmetas
  have hadded : Added (.granting ctx sourceList) p t r.2 := addLayer_added hmem he hnot h (by rw [hres]; decide)
  obtain ⟨e, xs', ys, -, -, htarget', -, hnonMeta, hys, -⟩ := hadded.guarded.appended
  obtain rfl := List.append_cancel_left (htarget.symm.trans htarget')
  refine ⟨hres, hadded.guarded.expanded_isSome, fun n => ⟨fun hn => ?_, ?_⟩⟩
  · rw [htarget, loaderFindLayerNameInList_append, Bool.or_eq_true] at hn
    refine hn.imp_right fun hn => ?_
    obtain ⟨q, hq, rfl⟩ := loaderFindLayerNameInList_eq_true.1 hn
    refine ⟨q, ?_, rfl⟩
    by_cases hmeta : q.isMeta = true
    · obtain ⟨⟨hp, hreach⟩, hfound⟩ := (hxs q hmeta).1 hq
      exact .inr ⟨hp, hmeta, hreach, hfound⟩
    · exact .inl (hys q (hnonMeta q hq (by simpa using hmeta))).1
  · rintro (hn | ⟨q, hq | ⟨hp, hmeta, hreach, hfound⟩, rfl⟩)
    · exact hadded.guarded.find_mono hn
    · exact hadded.complete q hq
    · have hmem := (hxs q hmeta).2 ⟨⟨hp, hreach⟩, hfound⟩
      rw [htarget]
      exact loaderFindLayerNameInList_eq_true.2 ⟨q, List.mem_append_right _ hmem, rfl⟩

end Activates

/-! ### What is active after some names -/

section ActiveAfter

variable {ctx : LayerContext} {sourceList target target' : List LayerProperties} {names : List String}
  {name n : String} {p : LayerProperties}

theorem activeAfter_cons_of_passed
    (hpass : PassedOver ctx sourceList (fun n => loaderFindLayerNameInList n target = true) name) :
    ActiveAfter ctx sourceList target (name :: names) n ↔ ActiveAfter ctx sourceList target names n := by
  unfold ActiveAfter
  rw [List.exists_mem_cons_iff]
  refine or_congr Iff.rfl (or_iff_right ?_)
  rintro ⟨hnot, p, hfind, havail, -⟩
  rw [hpass p hfind havail] at hnot
  cases hnot

/-- The layer of the first name was added; what the other names add, they add to the list that this left. -/
theorem activeAfter_cons_of_added (hfind : loaderFindLayerProperty name sourceList = some p)
    (havail : loaderLayerIsAvailable ctx.filters p = true) (hnot : loaderFindLayerNameInList name target = false)
    (hadded : ∀ n, loaderFindLayerNameInList n target' = true ↔
      loaderFindLayerNameInList n target = true ∨ ∃ q, Activates ctx sourceList p q ∧ q.layerName = n) :
    ActiveAfter ctx sourceList target (name :: names) n ↔ ActiveAfter ctx sourceList target' names n := by
  unfold ActiveAfter
  rw [List.exists_mem_cons_iff, hadded]
  constructor
  · rintro (hn | ⟨-, p', hfind', -, hq⟩ | ⟨m, hm, hnotm, p', hfind', havail', q, hq, rfl⟩)
    · exact .inl (.inl hn)
    · obtain rfl := Option.some.inj (hfind.symm.trans hfind')
      exact .inl (.inr hq)
    · by_cases hm' : loaderFindLayerNameInList m target' = true
      · -- the layer of `m` came with that of `name`, and what comes with it came as well
        obtain ⟨q', hq', rfl⟩ := ((hadded m).1 hm').resolve_left (by rw [hnotm]; exact Bool.false_ne_true)
        obtain rfl := Option.some.inj ((find_of_activates hfind hq').symm.trans hfind')
        exact .inl (.inr ⟨q, hq'.trans hq, rfl⟩)
      · exact .inr ⟨m, hm, by simpa using hm', p', hfind', havail', q, hq, rfl⟩
  · rintro ((hn | hq) | ⟨m, hm, hnotm, hrest⟩)
    · exact .inl hn
    · exact .inr (.inl ⟨hnot, p, hfind, havail, hq⟩)
    · rw [← Bool.not_eq_true, hadded, not_or, Bool.not_eq_true] at hnotm
      exact .inr (.inr ⟨m, hm, hnotm.1, hrest⟩)

end ActiveAfter

/-! ### The loop over the names -/

section Names

variable {ctx : LayerContext} {sourceList : List LayerProperties} {fuel : ℕ} {names before after : List String}
  {name : String} {err : VkResult} {t : LayerTargets} {r : VkResult × LayerTargets} {p : LayerProperties}

/-- A name that is passed over. -/
theorem loaderAddLayerNamesToList_skip (hfind : loaderFindLayerProperty name sourceList = some p)
    (hpass : PassedOver ctx sourceList (fun n => loaderFindLayerNameInList n t.target = true) name) :
    loaderAddLayerNamesToList (.granting ctx sourceList) fuel (name :: names) err t =
      loaderAddLayerNamesToList (.granting ctx sourceList) fuel names err t := by
  have hfind' : loaderFindLayerProperty name (Activation.granting ctx sourceList).sourceList = some p := hfind
  rw [loaderAddLayerNamesToList, hfind']
  dsimp only
  by_cases hactive : loaderFindLayerNameInList name t.target = true
  · rw [if_pos hactive]
  · rw [if_neg hactive, if_pos]
    have havail : loaderLayerIsAvailable ctx.filters p = false :=
      Bool.eq_false_iff.2 fun havail => hactive (hpass p hfind havail)
    exact congrArg (!·) havail

/-- A name that finds no layer. -/
theorem loaderAddLayerNamesToList_missing (hfind : loaderFindLayerProperty name sourceList = none) :
    loaderAddLayerNamesToList (.granting ctx sourceList) fuel (name :: names) err t =
      loaderAddLayerNamesToList (.granting ctx sourceList) fuel names .errorLayerNotPresent t := by
  have hfind' : loaderFindLayerProperty name (Activation.granting ctx sourceList).sourceList = none := hfind
  rw [loaderAddLayerNamesToList, hfind']

/-- A name whose layer is added. -/
theorem loaderAddLayerNamesToList_add (hfind : loaderFindLayerProperty name sourceList = some p)
    (havail : loaderLayerIsAvailable ctx.filters p = true) (hnot : loaderFindLayerNameInList name t.target = false)
    (he : t.expanded.isSome)
    (h : loaderAddLayerNamesToList (.granting ctx sourceList) fuel (name :: names) err t = some r) :
    ∃ t', loaderAddLayerNamesToList (.granting ctx sourceList) fuel names .success t' = some r ∧ t'.expanded.isSome ∧
      ∀ n, loaderFindLayerNameInList n t'.target = true ↔
        loaderFindLayerNameInList n t.target = true ∨ ∃ q, Activates ctx sourceList p q ∧ q.layerName = n := by
  have hcons := @loaderAddLayerNamesToList_cons (.granting ctx sourceList) fuel name names err t p hfind hnot havail
  rw [hcons] at h
  obtain ⟨⟨res, t'⟩, hadd, h⟩ := Option.bind_eq_some_iff.1 h
  obtain ⟨hmem, hname⟩ := mem_of_loaderFindLayerProperty hfind
  obtain ⟨rfl, he', hadded⟩ := find_addLayer hmem he (hname ▸ hnot) hadd
  rw [if_neg nofun] at h
  exact ⟨t', h, he', hadded⟩

/-- A name is passed over or its layer is added. -/
theorem passedOver_or (ctx : LayerContext) (t : LayerTargets)
    (hfind : loaderFindLayerProperty name sourceList = some p) :
    PassedOver ctx sourceList (fun n => loaderFindLayerNameInList n t.target = true) name ∨
      (loaderLayerIsAvailable ctx.filters p = true ∧ loaderFindLayerNameInList name t.target = false) := by
  by_cases hactive : loaderFindLayerNameInList name t.target = true
  · exact .inl fun _ _ _ => hactive
  by_cases havail : loaderLayerIsAvailable ctx.filters p = true
  · exact .inr ⟨havail, by simpa using hactive⟩
  · refine .inl fun p' hfind' havail' => absurd ?_ havail
    obtain rfl := Option.some.inj (hfind.symm.trans hfind')
    exact havail'

/-- **The names in the first list after the loop.** -/
theorem find_loaderAddLayerNamesToList (he : t.expanded.isSome)
    (h : loaderAddLayerNamesToList (.granting ctx sourceList) fuel names err t = some r) :
    r.2.expanded.isSome ∧
      ∀ n, loaderFindLayerNameInList n r.2.target = true ↔ ActiveAfter ctx sourceList t.target names n := by
  induction names generalizing err t with
  | nil =>
    obtain rfl := Option.some.inj h
    exact ⟨he, fun n => by simp [ActiveAfter]⟩
  | cons name names ih =>
    rcases hfind : loaderFindLayerProperty name sourceList with _ | p
    · rw [loaderAddLayerNamesToList_missing hfind] at h
      obtain ⟨he', hfound⟩ := ih he h
      refine ⟨he', fun n => (hfound n).trans (activeAfter_cons_of_passed fun p hp => ?_).symm⟩
      rw [hfind] at hp
      cases hp
    rcases passedOver_or ctx t hfind with hpass | ⟨havail, hnot⟩
    · rw [loaderAddLayerNamesToList_skip hfind hpass] at h
      obtain ⟨he', hfound⟩ := ih he h
      exact ⟨he', fun n => (hfound n).trans (activeAfter_cons_of_passed hpass).symm⟩
    · obtain ⟨t', h, he₁, hadded⟩ := loaderAddLayerNamesToList_add hfind havail hnot he h
      obtain ⟨he', hfound⟩ := ih he₁ h
      exact ⟨he', fun n => (hfound n).trans (activeAfter_cons_of_added hfind havail hnot hadded).symm⟩

/-- Names that are all passed over leave the result and the lists as they are. -/
theorem loaderAddLayerNamesToList_of_passed (hfound : ∀ n ∈ names, (loaderFindLayerProperty n sourceList).isSome)
    (hpass : ∀ n ∈ names, PassedOver ctx sourceList (fun n => loaderFindLayerNameInList n t.target = true) n) :
    loaderAddLayerNamesToList (.granting ctx sourceList) fuel names err t = some (err, t) := by
  induction names with
  | nil => rfl
  | cons name names ih =>
    obtain ⟨hname, hfound⟩ := List.forall_mem_cons.1 hfound
    obtain ⟨hhead, hpass⟩ := List.forall_mem_cons.1 hpass
    obtain ⟨p, hfind⟩ := Option.isSome_iff_exists.1 hname
    rw [loaderAddLayerNamesToList_skip hfind hhead, ih hfound hpass]

/-- Where every name finds a layer, success stays success. -/
theorem loaderAddLayerNamesToList_success (hfound : ∀ n ∈ names, (loaderFindLayerProperty n sourceList).isSome)
    (h : loaderAddLayerNamesToList (.granting ctx sourceList) fuel names .success t = some r) : r.1 = .success := by
  have hsuccess : VkResult.success ≠ .errorOutOfHostMemory := nofun
  rw [loaderAddLayerNamesToList_eq_runTurns] at h
  refine (runTurns_result (fun turn hturn target => ?_) h).resolve_right (runTurns_granting hsuccess h)
  obtain ⟨n, hn, rfl⟩ := List.mem_map.1 hturn
  obtain ⟨p, hfind⟩ := Option.isSome_iff_exists.1 (hfound n hn)
  have hfind' : loaderFindLayerProperty n (Activation.granting ctx sourceList).sourceList = some p := hfind
  unfold nameTurn
  rw [hfind']
  dsimp only
  split_ifs <;> nofun

/-- A name whose layer is added overwrites what was noted before. -/
theorem loaderAddLayerNamesToList_overwrites (hfound : ∀ n ∈ names, (loaderFindLayerProperty n sourceList).isSome)
    (he : t.expanded.isSome) (hname : name ∈ names)
    (hnot : ¬ PassedOver ctx sourceList (fun n => loaderFindLayerNameInList n t.target = true) name)
    (h : loaderAddLayerNamesToList (.granting ctx sourceList) fuel names err t = some r) : r.1 = .success := by
  induction names with
  | nil => cases hname
  | cons n names ih =>
    obtain ⟨hn, hfound⟩ := List.forall_mem_cons.1 hfound
    obtain ⟨p, hfind⟩ := Option.isSome_iff_exists.1 hn
    rcases passedOver_or ctx t hfind with hpass | ⟨havail, hactive⟩
    · rw [loaderAddLayerNamesToList_skip hfind hpass] at h
      refine ih hfound ((List.mem_cons.1 hname).resolve_left ?_) h
      rintro rfl
      exact hnot hpass
    · obtain ⟨t', h, -, -⟩ := loaderAddLayerNamesToList_add hfind havail hactive he h
      exact loaderAddLayerNamesToList_success hfound h

/-- The names up to one that finds no layer, and those after it. -/
theorem loaderAddLayerNamesToList_split (hfind : loaderFindLayerProperty name sourceList = none)
    (h : loaderAddLayerNamesToList (.granting ctx sourceList) fuel (before ++ name :: after) .success t = some r) :
    ∃ r', loaderAddLayerNamesToList (.granting ctx sourceList) fuel before .success t = some r' ∧
      loaderAddLayerNamesToList (.granting ctx sourceList) fuel after .errorLayerNotPresent r'.2 = some r := by
  have hsuccess : VkResult.success ≠ .errorOutOfHostMemory := nofun
  rw [loaderAddLayerNamesToList_eq_runTurns, List.map_append, runTurns_append _ _ hsuccess] at h
  obtain ⟨r', hr', h⟩ := Option.bind_eq_some_iff.1 h
  rw [if_neg (runTurns_granting hsuccess hr'), ← loaderAddLayerNamesToList_eq_runTurns,
    loaderAddLayerNamesToList_missing hfind] at h
  rw [← loaderAddLayerNamesToList_eq_runTurns] at hr'
  exact ⟨r', hr', h⟩

end Names

/-- **A missing layer is reported** exactly if the names after the last missing one are all passed over, by the layers
that are active after the names before it. -/
theorem reportsAbsentNames_iff {ctx : LayerContext} {sourceList : List LayerProperties}
    (hends : ExpansionTerminates ctx sourceList) (names : List String) (target expanded : List LayerProperties) :
    ReportsAbsentNames ctx sourceList names ⟨target, some expanded⟩ ↔
      ∀ before name after, names = before ++ name :: after → loaderFindLayerProperty name sourceList = none →
        (∀ n ∈ after, (loaderFindLayerProperty n sourceList).isSome) →
          ∀ n ∈ after, PassedOver ctx sourceList (ActiveAfter ctx sourceList target before) n := by
  -- the lists when the loop comes to the last missing name
  have hactive : ∀ {fuel before r'}, loaderAddLayerNamesToList (.granting ctx sourceList) fuel before .success
        ⟨target, some expanded⟩ = some r' → ∀ n,
      PassedOver ctx sourceList (fun n => loaderFindLayerNameInList n r'.2.target = true) n ↔
        PassedOver ctx sourceList (ActiveAfter ctx sourceList target before) n := by
    intro fuel before r' hr' n
    have hfound := (find_loaderAddLayerNamesToList (t := ⟨target, some expanded⟩) rfl hr').2 n
    exact forall_congr' fun p => forall_congr' fun _ => imp_congr_right fun _ => hfound
  constructor
  · rintro ⟨fuel, r, hr, hreports⟩ before name after rfl hmissing hfound n hn
    by_contra hnot
    obtain ⟨r', hr', hafter⟩ := loaderAddLayerNamesToList_split hmissing hr
    have he := (find_loaderAddLayerNamesToList (t := ⟨target, some expanded⟩) rfl hr').1
    have hsuccess := loaderAddLayerNamesToList_overwrites hfound he hn (fun h => hnot ((hactive hr' n).1 h)) hafter
    have hreported := hreports.2 ⟨name, by simp, hmissing⟩
    rw [hsuccess] at hreported
    cases hreported
  · intro hpassed
    obtain ⟨fuel, hfuel⟩ := hends.layerNames (fun _ => true) (fun _ => true) names .success ⟨target, some expanded⟩
    obtain ⟨r, hr⟩ := Option.isSome_iff_exists.1 hfuel
    refine ⟨fuel, r, hr, ?_⟩
    by_cases hmissing : ∃ name ∈ names, loaderFindLayerProperty name sourceList = none
    · obtain ⟨before, name, after, rfl, hname, hfound⟩ := exists_last hmissing
      have hfound' : ∀ n ∈ after, (loaderFindLayerProperty n sourceList).isSome :=
        fun n hn => Option.isSome_iff_ne_none.2 (hfound n hn)
      obtain ⟨r', hr', hafter⟩ := loaderAddLayerNamesToList_split hname hr
      have hpass := fun n hn => (hactive hr' n).2 (hpassed before name after rfl hname hfound' n hn)
      rw [loaderAddLayerNamesToList_of_passed hfound' hpass] at hafter
      obtain rfl := Option.some.inj hafter
      exact iff_of_true rfl hmissing
    · have hfound : ∀ n ∈ names, (loaderFindLayerProperty n sourceList).isSome :=
        fun n hn => Option.isSome_iff_ne_none.2 fun hnone => hmissing ⟨n, hn, hnone⟩
      refine iff_of_false ?_ hmissing
      rw [loaderAddLayerNamesToList_success hfound hr]
      nofun

/-! ### A missing name before one that is there -/

theorem reportsAbsentNames_iff_nestedMeta :
    ReportsAbsentNames plainContext (nestedMeta "X") ["N", "Y", "X"] ⟨[], some []⟩ ↔
      ∀ before name after, ["N", "Y", "X"] = before ++ name :: after →
        loaderFindLayerProperty name (nestedMeta "X") = none →
        (∀ n ∈ after, (loaderFindLayerProperty n (nestedMeta "X")).isSome) →
          ∀ n ∈ after, PassedOver plainContext (nestedMeta "X") (ActiveAfter plainContext (nestedMeta "X") [] before) n :=
  reportsAbsentNames_iff (nestedMeta_terminates (nestedMeta_last rfl)) _ _ _

/-- The layer that is there comes after the missing one, and the call succeeds. -/
theorem not_reportsAbsentNames :
    ExpansionTerminates plainContext (nestedMeta "X") ∧
      ¬ ReportsAbsentNames plainContext (nestedMeta "X") ["Y", "X"] ⟨[], some []⟩ := by
  refine ⟨nestedMeta_terminates (nestedMeta_last rfl), ?_⟩
  rintro ⟨fuel, r, hr, hreports⟩
  have hrun : loaderAddLayerNamesToList (.granting plainContext (nestedMeta "X")) fuel ["Y", "X"] .success
      ⟨[], some []⟩ = some (.success, ⟨_, some _⟩) := rfl
  obtain rfl := Option.some.inj (hrun.symm.trans hr)
  have hreported := hreports.2 ⟨"Y", List.mem_cons_self, rfl⟩
  cases hreported

end VulkanLoader
