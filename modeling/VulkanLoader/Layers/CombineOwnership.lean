import VulkanLoader.Layers.Settings
import Mathlib.Data.List.Perm.Basic
import Mathlib.Data.List.Count
import Mathlib.Data.List.TakeWhile

/-!
# Who owns the layers of the settings file and the others

`combine_settings_layers_with_regular_layers` moves records between three lists by copying them and filling the place
they came from with zeros; a regular layer that the settings file names is freed instead.  Here a record comes with the
blocks that its pointers lead to, and every free is written down, so that a block that two lists own or that is freed
twice would be seen (`owned_combineOwnedLists`).

The array of the output list is made for thirty-two times the number of records there are, so none of the appends makes
a request (`combineOwnedLists_eq`).
-/

namespace VulkanLoader

/-- A record of a layer, and the blocks that it owns. -/
structure OwnedLayer where
  props : LayerProperties
  blocks : List ℕ

/-- A record of zeros owns nothing. -/
def OwnedLayer.zero : OwnedLayer := ⟨.zero, []⟩

/-- `struct loader_layer_list`, its capacity counted in entries. -/
structure OwnedList where
  list : List OwnedLayer
  capacity : ℕ

/-- A list of zeros. -/
def OwnedList.zero : OwnedList := ⟨[], 0⟩

/-- All blocks that records own. -/
def blocksOf (l : List OwnedLayer) : List ℕ := l.flatMap OwnedLayer.blocks

/-- The records without their blocks. -/
abbrev propsOf (l : List OwnedLayer) : List LayerProperties := l.map OwnedLayer.props

/-- `loader_free_layer_properties`; `freed` are the blocks that were freed before. -/
def loaderFreeLayerProperties (prop : OwnedLayer) (freed : List ℕ) : OwnedLayer × List ℕ :=
  (.zero, freed ++ prop.blocks)

/-- What an append leaves: its result, the list, the place of the record that was appended, and what is freed. -/
structure Appended where
  res : VkResult
  output : OwnedList
  source : OwnedLayer
  freed : List ℕ

/-- `loader_append_layer_property`; `grow` says for each capacity whether the request made there succeeds. -/
def loaderAppendLayerProperty (grow : ℕ → Bool) (layerList : OwnedList) (layerProperty : OwnedLayer)
    (freed : List ℕ) : Appended :=
  match if layerList.capacity = 0 then if grow 0 then some ⟨[], 32⟩ else none else some layerList with
  | none =>
    let (source, freed) := loaderFreeLayerProperties layerProperty freed
    ⟨.errorOutOfHostMemory, .zero, source, freed⟩
  | some layerList =>
    if layerList.list.length + 1 > layerList.capacity ∧ !grow layerList.capacity then
      let (source, freed) := loaderFreeLayerProperties layerProperty freed
      ⟨.errorOutOfHostMemory, layerList, source, freed⟩
    else
      let capacity :=
        if layerList.list.length + 1 > layerList.capacity then layerList.capacity * 2 else layerList.capacity
      ⟨.success, ⟨layerList.list ++ [layerProperty], capacity⟩, .zero, freed⟩

/-- What a loop leaves: its result, the list it went over, the output list, and what is freed. -/
structure Moved where
  res : VkResult
  source : List OwnedLayer
  output : OwnedList
  freed : List ℕ

/-- The two loops that insert settings layers. -/
def moveSettingsLayers (grow : ℕ → Bool) : List OwnedLayer → OwnedList → List ℕ → Moved
  | [], output, freed => ⟨.success, [], output, freed⟩
  | layer :: layers, output, freed =>
    if !checkIfLayerIsInList (propsOf output.list) layer.props true then
      let a := loaderAppendLayerProperty grow output layer freed
      if a.res ≠ .success then ⟨a.res, a.source :: layers, a.output, a.freed⟩
      else
        let r := moveSettingsLayers grow layers a.output a.freed
        { r with source := a.source :: r.source }
    else
      let r := moveSettingsLayers grow layers output freed
      { r with source := layer :: r.source }

/-- The loop that inserts the regular layers. -/
def moveRegularLayers (grow : ℕ → Bool) (settingsLayers : List OwnedLayer) :
    List OwnedLayer → OwnedList → List ℕ → Moved
  | [], output, freed => ⟨.success, [], output, freed⟩
  | layer :: layers, output, freed =>
    if checkIfLayerIsInList (propsOf output.list) layer.props false ||
        checkIfLayerIsInList (propsOf settingsLayers) layer.props false then
      let (source, freed) := loaderFreeLayerProperties layer freed
      let r := moveRegularLayers grow settingsLayers layers output freed
      { r with source := source :: r.source }
    else
      let a := loaderAppendLayerProperty grow output layer freed
      if a.res ≠ .success then ⟨a.res, a.source :: layers, a.output, a.freed⟩
      else
        let r := moveRegularLayers grow settingsLayers layers a.output a.freed
        { r with source := a.source :: r.source }

/-- What `combine_settings_layers_with_regular_layers` leaves. -/
structure CombineResult where
  res : VkResult
  settings : OwnedList
  regular : OwnedList
  output : OwnedList
  freed : List ℕ

/-- The three loops, for settings layers with the marker; `output` is as `loader_init_generic_list` leaves it. -/
def moveAllLayers (grow : ℕ → Bool) (before : List OwnedLayer) (marker : OwnedLayer) (after : List OwnedLayer)
    (settings regular output : OwnedList) : CombineResult :=
  let a := moveSettingsLayers grow before output []
  let settingsList := a.source ++ marker :: after
  if a.res ≠ .success then ⟨a.res, { settings with list := settingsList }, regular, a.output, a.freed⟩
  else
    let b := moveRegularLayers grow settingsList regular.list a.output a.freed
    if b.res ≠ .success then
      ⟨b.res, { settings with list := settingsList }, { regular with list := b.source }, b.output, b.freed⟩
    else
      let c := moveSettingsLayers grow after b.output b.freed
      ⟨c.res, { settings with list := a.source ++ marker :: c.source }, { regular with list := b.source }, c.output,
        c.freed⟩

/-- The end of `combine_settings_layers_with_regular_layers`, with `loader_delete_layer_list_and_properties`. -/
def CombineResult.atOut (r : CombineResult) : CombineResult :=
  if r.res ≠ .success then { r with output := .zero, freed := r.freed ++ blocksOf r.output.list } else r

/-- `combine_settings_layers_with_regular_layers`, for an output list of zeros. -/
def combineOwnedLists (grow : ℕ → Bool) (settings regular : OwnedList) : CombineResult :=
  CombineResult.atOut <|
    match settings.list.span fun layer => layer.props.settingsControlValue != .unorderedLayerLocation with
    | (before, []) =>
      if before.isEmpty then
        if regular.list.isEmpty then ⟨.success, settings, regular, .zero, []⟩
        else ⟨.success, settings, .zero, regular, []⟩
      else ⟨.success, .zero, regular, settings, []⟩
    | (before, marker :: after) =>
      if regular.list.isEmpty then ⟨.success, .zero, regular, settings, []⟩
      else if !grow 0 then ⟨.errorOutOfHostMemory, settings, regular, .zero, []⟩
      else
        moveAllLayers grow before marker after settings regular
          ⟨[], 32 * (settings.list.length + regular.list.length)⟩

/-! ### Every block has one owner -/

section Owned

variable (grow : ℕ → Bool)

@[simp]
theorem blocksOf_nil : blocksOf [] = [] := rfl

@[simp]
theorem blocksOf_cons (layer : OwnedLayer) (l : List OwnedLayer) :
    blocksOf (layer :: l) = layer.blocks ++ blocksOf l := List.flatMap_cons

@[simp]
theorem blocksOf_append (l l' : List OwnedLayer) : blocksOf (l ++ l') = blocksOf l ++ blocksOf l' :=
  List.flatMap_append

@[simp]
theorem blocks_zero : OwnedLayer.zero.blocks = [] := rfl

/-- An append moves a record or frees it. -/
theorem owned_loaderAppendLayerProperty {layerList : OwnedList} (hcapacity : layerList.capacity ≠ 0) (layer : OwnedLayer)
    (freed : List ℕ) :
    (loaderAppendLayerProperty grow layerList layer freed).output.capacity ≠ 0 ∧
      (blocksOf (loaderAppendLayerProperty grow layerList layer freed).output.list ++
          (loaderAppendLayerProperty grow layerList layer freed).source.blocks ++
          (loaderAppendLayerProperty grow layerList layer freed).freed).Perm
        (blocksOf layerList.list ++ layer.blocks ++ freed) := by
  unfold loaderAppendLayerProperty
  rw [if_neg hcapacity]
  dsimp only
  split_ifs with hrefused hfull
  · refine ⟨hcapacity, List.perm_iff_count.2 fun b => ?_⟩
    simp only [loaderFreeLayerProperties, blocks_zero, List.append_nil, List.count_append]
    omega
  · refine ⟨Nat.mul_ne_zero hcapacity (by decide), List.perm_iff_count.2 fun b => ?_⟩
    simp
  · refine ⟨hcapacity, List.perm_iff_count.2 fun b => ?_⟩
    simp

/-- The blocks before and after a loop. -/
structure OwnedMove (layers : List OwnedLayer) (output : OwnedList) (freed : List ℕ) (r : Moved) : Prop where
  capacity : r.output.capacity ≠ 0
  perm : (blocksOf r.output.list ++ blocksOf r.source ++ r.freed).Perm (blocksOf output.list ++ blocksOf layers ++ freed)

/-- An append that fails ends its loop. -/
theorem owned_append_failed (res : VkResult) (layers : List OwnedLayer) {output : OwnedList}
    (hcapacity : output.capacity ≠ 0) (layer : OwnedLayer) (freed : List ℕ) :
    let a := loaderAppendLayerProperty grow output layer freed
    OwnedMove (layer :: layers) output freed ⟨res, a.source :: layers, a.output, a.freed⟩ := by
  dsimp only
  obtain ⟨hcapacity', hperm⟩ := owned_loaderAppendLayerProperty grow hcapacity layer freed
  refine ⟨hcapacity', List.perm_iff_count.2 fun b => ?_⟩
  have hcount := List.perm_iff_count.1 hperm b
  simp only [blocksOf_cons, List.count_append] at hcount ⊢
  omega

/-- An append and the rest of its loop. -/
theorem owned_append_then {layers : List OwnedLayer} {output : OwnedList} {r : Moved} (hcapacity : output.capacity ≠ 0)
    (layer : OwnedLayer) (freed : List ℕ) :
    let a := loaderAppendLayerProperty grow output layer freed
    (a.output.capacity ≠ 0 → OwnedMove layers a.output a.freed r) →
      OwnedMove (layer :: layers) output freed { r with source := a.source :: r.source } := by
  dsimp only
  intro hloop
  obtain ⟨hcapacity', hperm⟩ := owned_loaderAppendLayerProperty grow hcapacity layer freed
  obtain ⟨hcapacity'', hrest⟩ := hloop hcapacity'
  refine ⟨hcapacity'', List.perm_iff_count.2 fun b => ?_⟩
  have hcount := List.perm_iff_count.1 hperm b
  have hcount' := List.perm_iff_count.1 hrest b
  simp only [blocksOf_cons, List.count_append] at hcount hcount' ⊢
  omega

theorem owned_moveSettingsLayers (layers : List OwnedLayer) {output : OwnedList} (hcapacity : output.capacity ≠ 0)
    (freed : List ℕ) : OwnedMove layers output freed (moveSettingsLayers grow layers output freed) := by
  induction layers generalizing output freed with
  | nil => exact ⟨hcapacity, List.Perm.refl _⟩
  | cons layer layers ih =>
    unfold moveSettingsLayers
    dsimp only
    split_ifs with hin hfail
    · exact owned_append_failed grow _ layers hcapacity layer freed
    · exact owned_append_then grow hcapacity layer freed fun hcapacity' => ih hcapacity' _
    · obtain ⟨hcapacity', hrest⟩ := ih hcapacity freed
      refine ⟨hcapacity', List.perm_iff_count.2 fun b => ?_⟩
      have hcount := List.perm_iff_count.1 hrest b
      simp only [blocksOf_cons, List.count_append] at hcount ⊢
      omega

theorem owned_moveRegularLayers (settingsLayers layers : List OwnedLayer) {output : OwnedList}
    (hcapacity : output.capacity ≠ 0) (freed : List ℕ) :
    OwnedMove layers output freed (moveRegularLayers grow settingsLayers layers output freed) := by
  induction layers generalizing output freed with
  | nil => exact ⟨hcapacity, List.Perm.refl _⟩
  | cons layer layers ih =>
    unfold moveRegularLayers
    dsimp only
    split_ifs with hin hfail
    · obtain ⟨hcapacity', hrest⟩ := ih hcapacity (freed ++ layer.blocks)
      refine ⟨hcapacity', List.perm_iff_count.2 fun b => ?_⟩
      have hcount := List.perm_iff_count.1 hrest b
      simp only [loaderFreeLayerProperties, blocksOf_cons, blocks_zero, List.nil_append, List.count_append] at hcount ⊢
      omega
    · exact owned_append_failed grow _ layers hcapacity layer freed
    · exact owned_append_then grow hcapacity layer freed fun hcapacity' => ih hcapacity' _

/-- All blocks there are, with those that were freed. -/
def CombineResult.blocks (r : CombineResult) : List ℕ :=
  blocksOf r.output.list ++ blocksOf r.settings.list ++ blocksOf r.regular.list ++ r.freed

theorem blocks_atOut (r : CombineResult) : r.atOut.blocks.Perm r.blocks := by
  unfold CombineResult.atOut
  split_ifs
  · refine List.perm_iff_count.2 fun b => ?_
    simp only [CombineResult.blocks, OwnedList.zero, blocksOf_nil, List.nil_append, List.count_append]
    omega
  · exact List.Perm.refl _

theorem owned_moveAllLayers {before after : List OwnedLayer} {marker : OwnedLayer} {settings regular output : OwnedList}
    (hsettings : settings.list = before ++ marker :: after) (hcapacity : output.capacity ≠ 0) :
    (moveAllLayers grow before marker after settings regular output).blocks.Perm
      (blocksOf output.list ++ blocksOf settings.list ++ blocksOf regular.list) := by
  have ha := owned_moveSettingsLayers grow before hcapacity []
  have hb := owned_moveRegularLayers grow
    ((moveSettingsLayers grow before output []).source ++ marker :: after) regular.list ha.capacity
    (moveSettingsLayers grow before output []).freed
  have hc := owned_moveSettingsLayers grow after hb.capacity
    (moveRegularLayers grow ((moveSettingsLayers grow before output []).source ++ marker :: after) regular.list
      (moveSettingsLayers grow before output []).output (moveSettingsLayers grow before output []).freed).freed
  refine List.perm_iff_count.2 fun b => ?_
  have hacount := List.perm_iff_count.1 ha.perm b
  have hbcount := List.perm_iff_count.1 hb.perm b
  have hccount := List.perm_iff_count.1 hc.perm b
  rw [hsettings]
  unfold moveAllLayers
  dsimp only
  split_ifs with hafail hbfail
  all_goals
    simp only [CombineResult.blocks, blocksOf_append, blocksOf_cons, List.count_append, List.count_nil] at *
    omega

/-- The settings list is what stands before the marker, the marker and what stands after it. -/
theorem eq_of_span {p : OwnedLayer → Bool} {l before after : List OwnedLayer} (h : l.span p = (before, after)) :
    l = before ++ after := by
  rw [List.span_eq_takeWhile_dropWhile, Prod.mk.injEq] at h
  rw [← h.1, ← h.2, List.takeWhile_append_dropWhile]

/-- **Every block has one owner**: what the three lists own and what was freed is what there was. -/
theorem owned_combineOwnedLists (settings regular : OwnedList) :
    (combineOwnedLists grow settings regular).blocks.Perm (blocksOf settings.list ++ blocksOf regular.list) := by
  unfold combineOwnedLists
  refine (blocks_atOut _).trans (List.perm_iff_count.2 fun b => ?_)
  split
  · split_ifs
    · simp only [CombineResult.blocks, OwnedList.zero, blocksOf_nil, List.nil_append, List.append_nil]
    · simp only [CombineResult.blocks, OwnedList.zero, blocksOf_nil, List.append_nil, List.count_append]
      omega
    · simp only [CombineResult.blocks, OwnedList.zero, blocksOf_nil, List.append_nil]
  · rename_i before marker after hspan
    split_ifs with hregular hmemory
    · simp only [CombineResult.blocks, OwnedList.zero, blocksOf_nil, List.append_nil]
    · simp only [CombineResult.blocks, OwnedList.zero, blocksOf_nil, List.nil_append, List.append_nil]
    · have hlist := eq_of_span hspan
      have hcapacity : (⟨[], 32 * (settings.list.length + regular.list.length)⟩ : OwnedList).capacity ≠ 0 := by
        rw [hlist]
        simp
      exact List.perm_iff_count.1 (owned_moveAllLayers grow hlist hcapacity) b

theorem output_of_failure {r : CombineResult} (hfail : r.atOut.res ≠ .success) : r.atOut.output = .zero := by
  unfold CombineResult.atOut at hfail ⊢
  split_ifs at hfail ⊢ with h
  · rfl
  · exact absurd hfail h

end Owned

/-! ### No append makes a request -/

section Fits

variable (grow : ℕ → Bool) {output : OwnedList}

theorem propsOf_cons (layer : OwnedLayer) (l : List OwnedLayer) : propsOf (layer :: l) = layer.props :: propsOf l := rfl

theorem propsOf_append (l l' : List OwnedLayer) : propsOf (l ++ l') = propsOf l ++ propsOf l' := List.map_append

theorem loaderAppendLayerProperty_of_fits (layer : OwnedLayer) (freed : List ℕ)
    (hfits : output.list.length < output.capacity) :
    loaderAppendLayerProperty grow output layer freed =
      ⟨.success, { output with list := output.list ++ [layer] }, .zero, freed⟩ := by
  unfold loaderAppendLayerProperty
  rw [if_neg (by omega)]
  dsimp only
  rw [if_neg (by omega), if_neg (by omega)]

/-- A loop that has room for all its layers does what the loop on the layers alone does. -/
structure FitsMove (layers : List OwnedLayer) (output : OwnedList) (r : Moved) : Prop where
  res : r.res = .success
  capacity : r.output.capacity = output.capacity
  length : r.output.list.length ≤ output.list.length + layers.length

variable {layers : List OwnedLayer} {r : Moved} {source : List OwnedLayer} {layer : OwnedLayer}

theorem FitsMove.skip (h : FitsMove layers output r) : FitsMove (layer :: layers) output { r with source := source } :=
  ⟨h.res, h.capacity, Nat.le_succ_of_le h.length⟩

theorem FitsMove.append (h : FitsMove layers { output with list := output.list ++ [layer] } r) :
    FitsMove (layer :: layers) output { r with source := source } := by
  refine ⟨h.res, h.capacity, ?_⟩
  have hlength := h.length
  rw [List.length_append, List.length_singleton] at hlength
  rw [List.length_cons]
  exact Nat.le_trans hlength (by omega)

/-- The room for the other layers, once a layer is appended. -/
theorem room_append {count : ℕ} (hfits : output.list.length + (count + 1) ≤ output.capacity) :
    (output.list ++ [layer]).length + count ≤ output.capacity := by
  rw [List.length_append, List.length_singleton]
  omega

theorem fits_moveSettingsLayers (layers : List OwnedLayer) (output : OwnedList) (freed : List ℕ)
    (hfits : output.list.length + layers.length ≤ output.capacity) :
    FitsMove layers output (moveSettingsLayers grow layers output freed) ∧
      (propsOf (moveSettingsLayers grow layers output freed).source,
          propsOf (moveSettingsLayers grow layers output freed).output.list) =
        insertSettingsLayers (propsOf layers) (propsOf output.list) := by
  induction layers generalizing output freed with
  | nil => exact ⟨⟨rfl, rfl, Nat.le_refl _⟩, rfl⟩
  | cons layer layers ih =>
    rw [List.length_cons] at hfits
    unfold moveSettingsLayers
    rw [propsOf_cons, insertSettingsLayers, loaderAppendLayerProperty_of_fits grow layer freed (by omega)]
    dsimp only
    split_ifs with hin hfail
    · exact absurd rfl hfail
    · obtain ⟨hfitsRest, hprops⟩ := ih { output with list := output.list ++ [layer] } freed (room_append hfits)
      refine ⟨hfitsRest.append, ?_⟩
      rw [propsOf_append] at hprops
      rw [← show _ = insertSettingsLayers (propsOf layers) (propsOf output.list ++ [layer.props]) from hprops]
      rfl
    · obtain ⟨hfitsRest, hprops⟩ := ih output freed (by omega)
      refine ⟨hfitsRest.skip, ?_⟩
      rw [← hprops]
      rfl

theorem fits_moveRegularLayers (settingsLayers layers : List OwnedLayer) (output : OwnedList) (freed : List ℕ)
    (hfits : output.list.length + layers.length ≤ output.capacity) :
    FitsMove layers output (moveRegularLayers grow settingsLayers layers output freed) ∧
      propsOf (moveRegularLayers grow settingsLayers layers output freed).output.list =
        insertRegularLayers (propsOf settingsLayers) (propsOf layers) (propsOf output.list) := by
  induction layers generalizing output freed with
  | nil => exact ⟨⟨rfl, rfl, Nat.le_refl _⟩, rfl⟩
  | cons layer layers ih =>
    rw [List.length_cons] at hfits
    unfold moveRegularLayers
    rw [propsOf_cons, insertRegularLayers, loaderAppendLayerProperty_of_fits grow layer freed (by omega)]
    dsimp only
    split_ifs with hin hfail
    · obtain ⟨hfitsRest, hprops⟩ := ih output (freed ++ layer.blocks) (by omega)
      exact ⟨hfitsRest.skip, hprops⟩
    · exact absurd rfl hfail
    · obtain ⟨hfitsRest, hprops⟩ := ih { output with list := output.list ++ [layer] } freed (room_append hfits)
      refine ⟨hfitsRest.append, ?_⟩
      rw [propsOf_append] at hprops
      exact hprops

theorem span_propsOf (l : List OwnedLayer) :
    (propsOf l).span (fun layer => layer.settingsControlValue != .unorderedLayerLocation) =
      (propsOf (l.span fun layer => layer.props.settingsControlValue != .unorderedLayerLocation).1,
        propsOf (l.span fun layer => layer.props.settingsControlValue != .unorderedLayerLocation).2) := by
  rw [List.span_eq_takeWhile_dropWhile, List.span_eq_takeWhile_dropWhile, propsOf, List.takeWhile_map,
    List.dropWhile_map]
  rfl

/-- The three loops, where there is room for all layers. -/
theorem fits_moveAllLayers (before after : List OwnedLayer) (marker : OwnedLayer) (settings regular : OwnedList)
    {capacity : ℕ} (hfits : before.length + after.length + regular.list.length ≤ capacity) :
    (moveAllLayers grow before marker after settings regular ⟨[], capacity⟩).res = .success ∧
      propsOf (moveAllLayers grow before marker after settings regular ⟨[], capacity⟩).output.list =
        (insertSettingsLayers (propsOf after) (insertRegularLayers
          ((insertSettingsLayers (propsOf before) []).1 ++ marker.props :: propsOf after) (propsOf regular.list)
          (insertSettingsLayers (propsOf before) []).2)).2 := by
  set a := moveSettingsLayers grow before ⟨[], capacity⟩ []
  set b := moveRegularLayers grow (a.source ++ marker :: after) regular.list a.output a.freed
  -- the room that is left for each loop
  have hafits : 0 + before.length ≤ capacity := by omega
  obtain ⟨⟨hares, hacapacity, halength⟩, haprops⟩ := fits_moveSettingsLayers grow before ⟨[], capacity⟩ [] hafits
  have ha : a.output.list.length ≤ 0 + before.length := halength
  have hacapacity' : a.output.capacity = capacity := hacapacity
  obtain ⟨⟨hbres, hbcapacity, hb⟩, hbprops⟩ :=
    fits_moveRegularLayers grow (a.source ++ marker :: after) regular.list a.output a.freed (by omega)
  have hb' : b.output.list.length ≤ a.output.list.length + regular.list.length := hb
  have hbcapacity' : b.output.capacity = a.output.capacity := hbcapacity
  obtain ⟨⟨hcres, -, -⟩, hcprops⟩ := fits_moveSettingsLayers grow after b.output b.freed (by omega)
  unfold moveAllLayers
  dsimp only
  rw [if_neg (not_not.2 hares), if_neg (not_not.2 hbres)]
  refine ⟨hcres, ?_⟩
  have hsource := congrArg Prod.fst haprops
  have houtput := congrArg Prod.snd haprops
  rw [propsOf_append, propsOf_cons] at hbprops
  rw [hbprops] at hcprops
  dsimp only at hsource houtput
  rw [houtput, hsource] at hcprops
  exact congrArg Prod.snd hcprops

theorem atOut_of_success {r : CombineResult} (h : r.res = .success) : r.atOut = r := by
  unfold CombineResult.atOut
  rw [if_neg (not_not.2 h)]

/-- The case with a marker. -/
theorem combineSettingsLayers_of_marker {memory : Bool} {settingsLayers regularLayers before after : List LayerProperties}
    {marker : LayerProperties} (hspan : settingsLayers.span
      (fun layer => layer.settingsControlValue != .unorderedLayerLocation) = (before, marker :: after)) :
    combineSettingsLayersWithRegularLayers memory settingsLayers regularLayers =
      if regularLayers = [] then (.success, settingsLayers)
      else if !memory then (.errorOutOfHostMemory, [])
      else
        (.success, (insertSettingsLayers after (insertRegularLayers
          ((insertSettingsLayers before []).1 ++ marker :: after) regularLayers (insertSettingsLayers before []).2)).2) := by
  unfold combineSettingsLayersWithRegularLayers
  rw [hspan]
  cases before with
  | nil => rfl
  | cons layer before => rfl

/-- The case without a marker. -/
theorem combineSettingsLayers_of_no_marker {memory : Bool}
    {settingsLayers regularLayers before : List LayerProperties} (hspan : settingsLayers.span
      (fun layer => layer.settingsControlValue != .unorderedLayerLocation) = (before, [])) :
    combineSettingsLayersWithRegularLayers memory settingsLayers regularLayers =
      (.success, if before.isEmpty then regularLayers else settingsLayers) := by
  unfold combineSettingsLayersWithRegularLayers
  rw [hspan]
  cases before with
  | nil => rfl
  | cons layer before => rfl

/-- **The model with owners does what the one without does**; the one request is for the array. -/
theorem combineOwnedLists_eq (settings regular : OwnedList) :
    ((combineOwnedLists grow settings regular).res, propsOf (combineOwnedLists grow settings regular).output.list) =
      combineSettingsLayersWithRegularLayers (grow 0) (propsOf settings.list) (propsOf regular.list) := by
  unfold combineOwnedLists
  have hspanProps := span_propsOf settings.list
  rcases hspan : settings.list.span fun layer => layer.props.settingsControlValue != .unorderedLayerLocation with
    ⟨before, _ | ⟨marker, after⟩⟩
  · rw [hspan] at hspanProps
    rw [combineSettingsLayers_of_no_marker hspanProps]
    simp only [hspan]
    rcases before with _ | ⟨layer, before⟩
    · rcases hregular : regular.list with _ | ⟨layer, layers⟩
      · rfl
      · rw [if_pos List.isEmpty_nil, if_neg (by simp), atOut_of_success rfl, ← hregular]
        rfl
    · rw [if_neg (by simp), atOut_of_success rfl]
      rfl
  · have hlength := congrArg List.length (eq_of_span hspan)
    rw [List.length_append, List.length_cons] at hlength
    rw [hspan] at hspanProps
    rw [combineSettingsLayers_of_marker hspanProps]
    simp only [hspan]
    rcases hregular : regular.list with _ | ⟨layer, layers⟩
    · have hempty : propsOf ([] : List OwnedLayer) = [] := rfl
      rw [if_pos List.isEmpty_nil, if_pos hempty, atOut_of_success rfl]
    · have hsome : ¬ (layer :: layers).isEmpty = true := by simp
      have hsome' : propsOf (layer :: layers) ≠ [] := List.cons_ne_nil _ _
      rw [if_neg hsome, if_neg hsome', ← hregular]
      rcases hgrow : grow 0 with _ | _
      · rfl
      · have hfits : before.length + after.length + regular.list.length ≤
            32 * (settings.list.length + regular.list.length) := by omega
        obtain ⟨hres, hprops⟩ := fits_moveAllLayers grow before after marker settings regular hfits
        have hmemory : ¬ (!true) = true := by decide
        rw [if_neg hmemory, if_neg hmemory, atOut_of_success hres, hres, hprops]

end Fits

/-! ### The order of the output -/

/-- The layers before the marker, the regular layers that the settings file does not name, if there is a marker, and the
layers after it. -/
def mergedLayers (settingsLayers regularLayers : List LayerProperties) : List LayerProperties :=
  match settingsLayers.span fun layer => layer.settingsControlValue != .unorderedLayerLocation with
  | (before, []) => before
  | (before, _ :: after) =>
    before ++ regularLayers.filter (fun p => decide (p.layerName ∉ settingsLayers.map LayerProperties.layerName)) ++ after

/-- The merged layers, where both lists have some; otherwise the list that has. -/
def combinedLayers (settingsLayers regularLayers : List LayerProperties) : List LayerProperties :=
  if settingsLayers.isEmpty then regularLayers
  else if regularLayers.isEmpty then settingsLayers
  else mergedLayers settingsLayers regularLayers

/-- The names of the two lists: distinct and not empty in each, but for one marker at most, which has no name. -/
structure MergeableNames (settingsLayers regularLayers : List LayerProperties) : Prop where
  settings : ((settingsLayers.filter fun p => p.settingsControlValue != .unorderedLayerLocation).map
    LayerProperties.layerName).Nodup
  settingsNamed : ∀ p ∈ settingsLayers, p.settingsControlValue ≠ .unorderedLayerLocation → p.layerName ≠ ""
  markerUnnamed : ∀ p ∈ settingsLayers, p.settingsControlValue = .unorderedLayerLocation → p.layerName = ""
  oneMarker : settingsLayers.countP (fun p => p.settingsControlValue == .unorderedLayerLocation) ≤ 1
  regular : (regularLayers.map LayerProperties.layerName).Nodup
  regularNamed : ∀ p ∈ regularLayers, p.layerName ≠ ""

section Order

variable {layers outputLayers settingsLayers : List LayerProperties} {p : LayerProperties} {considerLibPath : Bool}

theorem checkIfLayerIsInList_of_not_mem (h : p.layerName ∉ layers.map LayerProperties.layerName) :
    checkIfLayerIsInList layers p considerLibPath = false := by
  induction layers with
  | nil => rfl
  | cons item items ih =>
    rw [List.map_cons, List.mem_cons, not_or] at h
    unfold checkIfLayerIsInList
    rw [if_neg (by simpa using Ne.symm h.1), ih h.2]

theorem checkIfLayerIsInList_of_mem (h : p.layerName ∈ layers.map LayerProperties.layerName) :
    checkIfLayerIsInList layers p false = true := by
  induction layers with
  | nil => cases h
  | cons item items ih =>
    unfold checkIfLayerIsInList
    by_cases hname : item.layerName = p.layerName
    · simp [hname]
    · rw [if_neg (by simpa using hname)]
      rw [List.map_cons, List.mem_cons] at h
      exact ih (h.resolve_left (Ne.symm hname))

/-- Settings layers of new names are all inserted. -/
theorem insertSettingsLayers_of_nodup
    (hnd : ((outputLayers ++ layers).map LayerProperties.layerName).Nodup) :
    insertSettingsLayers layers outputLayers = (layers.map fun _ => .zero, outputLayers ++ layers) := by
  induction layers generalizing outputLayers with
  | nil => simp [insertSettingsLayers]
  | cons layer layers ih =>
    have hnew : layer.layerName ∉ outputLayers.map LayerProperties.layerName := by
      rw [List.map_append, List.map_cons, List.nodup_append] at hnd
      exact fun hmem => hnd.2.2 _ hmem _ List.mem_cons_self rfl
    unfold insertSettingsLayers
    rw [checkIfLayerIsInList_of_not_mem hnew, if_pos Bool.not_false]
    rw [List.append_cons] at hnd
    rw [ih hnd]
    simp

/-- Regular layers are inserted that neither list has. -/
theorem insertRegularLayers_of_nodup (hnd : (layers.map LayerProperties.layerName).Nodup) :
    insertRegularLayers settingsLayers layers outputLayers = outputLayers ++ layers.filter fun p =>
      decide (p.layerName ∉ (outputLayers ++ settingsLayers).map LayerProperties.layerName) := by
  induction layers generalizing outputLayers with
  | nil => simp [insertRegularLayers]
  | cons layer layers ih =>
    obtain ⟨hnew, hnd⟩ := List.nodup_cons.1 hnd
    unfold insertRegularLayers
    by_cases hin : layer.layerName ∈ (outputLayers ++ settingsLayers).map LayerProperties.layerName
    · have hordered : (checkIfLayerIsInList outputLayers layer false ||
          checkIfLayerIsInList settingsLayers layer false) = true := by
        rw [List.map_append, List.mem_append] at hin
        rw [Bool.or_eq_true]
        exact hin.imp checkIfLayerIsInList_of_mem checkIfLayerIsInList_of_mem
      rw [if_pos hordered, ih hnd, List.filter_cons, if_neg (by rw [decide_eq_true_eq, not_not]; exact hin)]
    · have hordered : (checkIfLayerIsInList outputLayers layer false ||
          checkIfLayerIsInList settingsLayers layer false) = false := by
        rw [List.map_append, List.mem_append, not_or] at hin
        rw [checkIfLayerIsInList_of_not_mem hin.1, checkIfLayerIsInList_of_not_mem hin.2]
        rfl
      rw [hordered, if_neg Bool.false_ne_true, ih hnd, List.filter_cons, if_pos (by simpa using hin), List.append_assoc]
      refine congrArg (fun l => outputLayers ++ layer :: l) ?_
      refine List.filter_congr fun p hp => ?_
      have hne : p.layerName ≠ layer.layerName := fun hname => hnew (hname ▸ List.mem_map_of_mem hp)
      simp [hne]

/-- The settings list of mergeable names around its marker. -/
structure AroundMarker (before : List LayerProperties) (marker : LayerProperties) (after : List LayerProperties) :
    Prop where
  nodup : ((before ++ after).map LayerProperties.layerName).Nodup
  unnamed : marker.layerName = ""

theorem aroundMarker_of_mergeableNames {before after regularLayers : List LayerProperties} {marker : LayerProperties}
    (h : MergeableNames (before ++ marker :: after) regularLayers)
    (hbefore : ∀ p ∈ before, (p.settingsControlValue != .unorderedLayerLocation) = true)
    (hmarker : (marker.settingsControlValue != .unorderedLayerLocation) = false) : AroundMarker before marker after := by
  have hmarker' : marker.settingsControlValue = .unorderedLayerLocation := by simpa using hmarker
  have hafter : ∀ p ∈ after, (p.settingsControlValue != .unorderedLayerLocation) = true := by
    have hcount := h.oneMarker
    rw [List.countP_append, List.countP_cons_of_pos (by simpa using hmarker')] at hcount
    have hzero : after.countP (fun p => p.settingsControlValue == .unorderedLayerLocation) = 0 := by omega
    intro p hp
    simpa using List.countP_eq_zero.1 hzero p hp
  refine ⟨?_, h.markerUnnamed marker (by simp) hmarker'⟩
  have hnd := h.settings
  rwa [List.filter_append, List.filter_cons_of_neg (by simp [hmarker]), List.filter_eq_self.2 hbefore,
    List.filter_eq_self.2 hafter] at hnd

/-- The three loops. -/
theorem AroundMarker.insert_eq {before after regularLayers : List LayerProperties} {marker : LayerProperties}
    (h : AroundMarker before marker after) (hregular : (regularLayers.map LayerProperties.layerName).Nodup)
    (hnamed : ∀ p ∈ regularLayers, p.layerName ≠ "") :
    (insertSettingsLayers after (insertRegularLayers ((insertSettingsLayers before []).1 ++ marker :: after) regularLayers
      (insertSettingsLayers before []).2)).2 =
      before ++ regularLayers.filter
        (fun p => decide (p.layerName ∉ (before ++ marker :: after).map LayerProperties.layerName)) ++ after := by
  have hnd := h.nodup
  rw [List.map_append, List.nodup_append] at hnd
  obtain ⟨hbefore, hafter, hapart⟩ := hnd
  -- a regular layer has a name, so neither the marker nor the zeros have it
  have hfilter : (regularLayers.filter fun p => decide (p.layerName ∉ (before ++
        ((before.map fun _ => LayerProperties.zero) ++ marker :: after)).map LayerProperties.layerName)) =
      regularLayers.filter
        fun p => decide (p.layerName ∉ (before ++ marker :: after).map LayerProperties.layerName) := by
    refine List.filter_congr fun p hp => decide_eq_decide.2 (not_congr ?_)
    have hzero : p.layerName ∉ (before.map fun _ => LayerProperties.zero).map LayerProperties.layerName := by
      intro hmem
      obtain ⟨q, hq, hname⟩ := List.mem_map.1 hmem
      obtain ⟨_, -, rfl⟩ := List.mem_map.1 hq
      exact hnamed p hp hname.symm
    rw [List.map_append, List.map_append, List.map_append, List.mem_append, List.mem_append, List.mem_append]
    exact or_congr_right (or_iff_right hzero)
  have hnew : ∀ n ∈ (regularLayers.filter fun p =>
      decide (p.layerName ∉ (before ++ marker :: after).map LayerProperties.layerName)).map LayerProperties.layerName,
      n ∉ before.map LayerProperties.layerName ∧ n ∉ after.map LayerProperties.layerName := by
    intro n hn
    obtain ⟨p, hp, rfl⟩ := List.mem_map.1 hn
    have hnot := of_decide_eq_true (List.mem_filter.1 hp).2
    rw [List.map_append, List.map_cons, List.mem_append, List.mem_cons, not_or, not_or] at hnot
    exact ⟨hnot.1, hnot.2.2⟩
  have hfirst : insertSettingsLayers before [] = (before.map fun _ => .zero, before) :=
    insertSettingsLayers_of_nodup hbefore
  rw [hfirst]
  dsimp only
  rw [insertRegularLayers_of_nodup hregular, hfilter, insertSettingsLayers_of_nodup]
  rw [List.map_append, List.map_append, List.nodup_append, List.nodup_append]
  refine ⟨⟨hbefore, hregular.sublist (List.filter_sublist.map _), ?_⟩, hafter, ?_⟩
  · rintro n hn _ hn' rfl
    exact (hnew n hn').1 hn
  · rintro n hn _ hn' rfl
    rcases List.mem_append.1 hn with hn | hn
    · exact hapart n hn n hn' rfl
    · exact (hnew n hn).2 hn'

/-- **The order of the output** of a call that succeeds. -/
theorem combineSettingsLayers_eq_combinedLayers {memory : Bool} {regularLayers : List LayerProperties}
    (h : MergeableNames settingsLayers regularLayers)
    (hres : (combineSettingsLayersWithRegularLayers memory settingsLayers regularLayers).1 = .success) :
    (combineSettingsLayersWithRegularLayers memory settingsLayers regularLayers).2 =
      combinedLayers settingsLayers regularLayers := by
  unfold combinedLayers mergedLayers
  rcases hspan : settingsLayers.span fun layer => layer.settingsControlValue != .unorderedLayerLocation with
    ⟨before, _ | ⟨marker, after⟩⟩
  · rw [combineSettingsLayers_of_no_marker hspan]
    simp only [hspan]
    rw [List.span_eq_takeWhile_dropWhile, Prod.mk.injEq] at hspan
    obtain rfl : settingsLayers = before := by
      rw [← List.takeWhile_append_dropWhile (l := settingsLayers), hspan.1, hspan.2, List.append_nil]
    split_ifs
    · rfl
    · rfl
    · rfl
  · rw [combineSettingsLayers_of_marker hspan] at hres ⊢
    simp only [hspan]
    rw [List.span_eq_takeWhile_dropWhile, Prod.mk.injEq] at hspan
    obtain ⟨htake, hdrop⟩ := hspan
    have hlist : settingsLayers = before ++ marker :: after := by
      rw [← htake, ← hdrop, List.takeWhile_append_dropWhile]
    have hsome : ¬ settingsLayers.isEmpty = true := by simp [hlist]
    rw [if_neg hsome]
    rcases regularLayers with _ | ⟨layer, layers⟩
    · rfl
    · rw [if_neg (List.cons_ne_nil _ _)] at hres ⊢
      cases memory with
      | false => cases hres
      | true =>
        have hbefore : ∀ p ∈ before, (p.settingsControlValue != .unorderedLayerLocation) = true := by
          intro p hp
          rw [← htake] at hp
          have hne := List.mem_takeWhile_imp hp
          exact hne
        have hmarker : (marker.settingsControlValue != .unorderedLayerLocation) = false := by
          have hhead := List.head?_dropWhile_not
            (fun layer => layer.settingsControlValue != .unorderedLayerLocation) settingsLayers
          rwa [hdrop] at hhead
        have haround := aroundMarker_of_mergeableNames (hlist ▸ h) hbefore hmarker
        have hmemory : ¬ (!true) = true := by decide
        have hsome : ¬ (layer :: layers).isEmpty = true := by simp
        rw [if_neg hmemory, if_neg hsome, haround.insert_eq h.regular h.regularNamed, ← hlist]

end Order

/-! ### The combination -/

/-- What `combine_settings_layers_with_regular_layers` does: `layers` gives the output of a call that succeeds, the
output of one that fails is empty, and either way every block of the two lists is owned once or was freed once. -/
structure CombinesInto (layers : List LayerProperties → List LayerProperties → List LayerProperties)
    (settings regular : OwnedList) (r : CombineResult) : Prop where
  output : r.res = .success → propsOf r.output.list = layers (propsOf settings.list) (propsOf regular.list)
  failed : r.res ≠ .success → r.output.list = []
  owned : (blocksOf r.output.list ++ blocksOf r.settings.list ++ blocksOf r.regular.list ++ r.freed).Perm
    (blocksOf settings.list ++ blocksOf regular.list)

/-- **No layer is lost, none is there twice, and none has two owners.** -/
theorem combinesInto_combinedLayers (grow : ℕ → Bool) {settings regular : OwnedList}
    (h : MergeableNames (propsOf settings.list) (propsOf regular.list)) :
    CombinesInto combinedLayers settings regular (combineOwnedLists grow settings regular) := by
  refine ⟨fun hres => ?_, fun hfail => ?_, owned_combineOwnedLists grow settings regular⟩
  · have heq := combineOwnedLists_eq grow settings regular
    have hres' := (congrArg Prod.fst heq).symm.trans hres
    exact (congrArg Prod.snd heq).trans (combineSettingsLayers_eq_combinedLayers h hres')
  · have houtput : (combineOwnedLists grow settings regular).output = .zero := output_of_failure hfail
    rw [houtput]
    rfl

/-- A layer of this name that owns the block. -/
def ownedLayer (name : String) (block : ℕ) : OwnedLayer := ⟨{ LayerProperties.zero with layerName := name }, [block]⟩

/-- The marker, which owns nothing. -/
def ownedMarker : OwnedLayer := ⟨unorderedMarker, []⟩

theorem combinesInto_combinedLayers_example :
    CombinesInto combinedLayers ⟨[ownedLayer "A" 1, ownedMarker, ownedLayer "B" 2], 32⟩
      ⟨[ownedLayer "B" 3, ownedLayer "C" 4], 32⟩
      (combineOwnedLists (fun _ => true) ⟨[ownedLayer "A" 1, ownedMarker, ownedLayer "B" 2], 32⟩
        ⟨[ownedLayer "B" 3, ownedLayer "C" 4], 32⟩) :=
  combinesInto_combinedLayers _ (by
    refine ⟨by decide, ?_, ?_, by decide, by decide, ?_⟩
    all_goals simp [propsOf, ownedLayer, ownedMarker, unorderedMarker, LayerProperties.zero])

theorem mergeableNames_regular {layer : LayerProperties} (hname : layer.layerName ≠ "") :
    MergeableNames [] [layer] where
  settings := List.nodup_nil
  settingsNamed := fun _ hp => absurd hp List.not_mem_nil
  markerUnnamed := fun _ hp => absurd hp List.not_mem_nil
  oneMarker := Nat.zero_le 1
  regular := List.pairwise_singleton _ _
  regularNamed := by
    intro p hp
    obtain rfl := List.mem_singleton.1 hp
    exact hname

theorem mergeableNames_marker : MergeableNames [unorderedMarker] [] where
  settings := List.nodup_nil
  settingsNamed := by
    intro p hp hcontrol
    obtain rfl := List.mem_singleton.1 hp
    exact absurd rfl hcontrol
  markerUnnamed := by
    intro p hp _
    obtain rfl := List.mem_singleton.1 hp
    rfl
  oneMarker := by decide
  regular := List.nodup_nil
  regularNamed := fun _ hp => absurd hp List.not_mem_nil

/-- Where one of the lists is empty the other one is the output, without a marker or with it. -/
theorem not_combinesInto_mergedLayers :
    (MergeableNames [] (propsOf [ownedLayer "A" 1]) ∧
      ¬ CombinesInto mergedLayers .zero ⟨[ownedLayer "A" 1], 32⟩
        (combineOwnedLists (fun _ => true) .zero ⟨[ownedLayer "A" 1], 32⟩)) ∧
    (MergeableNames (propsOf [ownedMarker]) [] ∧
      ¬ CombinesInto mergedLayers ⟨[ownedMarker], 32⟩ .zero
        (combineOwnedLists (fun _ => true) ⟨[ownedMarker], 32⟩ .zero)) := by
  refine ⟨⟨mergeableNames_regular ?_, fun h => ?_⟩, mergeableNames_marker, fun h => ?_⟩
  · simp [ownedLayer]
  · exact absurd (congrArg List.length (h.output rfl)) (by decide)
  · exact absurd (congrArg List.length (h.output rfl)) (by decide)

end VulkanLoader
