import VulkanLoader.Manifests.JsonLanguage

/-!
# What the parser of JSON accepts

Whatever requests the allocator refuses, the parser stays within its buffer and comes to an end, and it either says that
it was refused memory or decides the language; it holds the blocks of the item that it gives and no others.
-/

namespace VulkanLoader

open VulkanLoader.Lib HandleEvent
open ParseBuffer

/-! ### The parser -/

section Parser

variable {content : List UInt8} {grants : ℕ → Bool} {number : NumberValue}

/-- The values of a chain of items. -/
def CJsonItem.chainTrees (items : List CJsonItem) : List CJson := (memberTrees items).map Prod.snd

/-- How a function ends that parses a value into an item. -/
def ItemEnds (content : List UInt8) (grants : ℕ → Bool) (number : NumberValue) (item : CJsonItem) (b : ParseBuffer)
    (result : Option (Bool × CJsonItem × ParseBuffer)) : Prop :=
  ∃ ok item' b', result = some (ok, item', b') ∧ (ok = false → item' = item) ∧ item'.string = item.string ∧
    ParseOutcome content grants (Reads number b.depth (b.rest content)) item.blocks item'.blocks b ok item'.tree b'

/-- `parse_value`, with enough `fuel` for what is left of the buffer. -/
def ValueEnds (content : List UInt8) (grants : ℕ → Bool) (number : NumberValue) (fuel : ℕ) : Prop :=
  ∀ item b, b.offset ≤ content.length → b.outOfMemory = false → item.IsBare →
    3 * (content.length - b.offset) + 3 ≤ fuel →
    ItemEnds content grants number item b (parseValue content grants number fuel item b)

/-- `parse_array`, at its bracket. -/
def ArrayEnds (content : List UInt8) (grants : ℕ → Bool) (number : NumberValue) (fuel : ℕ) : Prop :=
  ∀ item b, content[b.offset]? = some (ascii '[') → b.outOfMemory = false → item.IsBare →
    3 * (content.length - b.offset) + 2 ≤ fuel →
    ItemEnds content grants number item b (parseArray content grants number fuel item b)

/-- The loop of `parse_array`, which begins before the first element, and the check of the bracket. -/
def ElementsEnd (content : List UInt8) (grants : ℕ → Bool) (number : NumberValue) (fuel : ℕ) : Prop :=
  ∀ head b, b.offset < content.length → b.outOfMemory = false → 3 * (content.length - b.offset) + 1 ≤ fuel →
    ∃ ok items b', parseArrayElements content grants number fuel head b = some (ok, head ++ items, b') ∧
      ParseOutcome content grants (ReadsItems number b.depth (content.drop (b.offset + 1))) 0
        (CJsonItem.chainBlocks items) b
        (ok && content[b'.offset]? = some (ascii ']')) (CJsonItem.chainTrees items) { b' with offset := b'.offset + 1 }

/-- `parse_object`, at its brace. -/
def ObjectEnds (content : List UInt8) (grants : ℕ → Bool) (number : NumberValue) (fuel : ℕ) : Prop :=
  ∀ item b, content[b.offset]? = some (ascii '{') → b.outOfMemory = false → item.IsBare →
    3 * (content.length - b.offset) + 2 ≤ fuel →
    ItemEnds content grants number item b (parseObject content grants number fuel item b)

/-- The loop of `parse_object`, which begins before the first member, and the check of the brace. -/
def MembersEnd (content : List UInt8) (grants : ℕ → Bool) (number : NumberValue) (fuel : ℕ) : Prop :=
  ∀ head b, b.offset < content.length → b.outOfMemory = false → 3 * (content.length - b.offset) + 1 ≤ fuel →
    ∃ ok items b', parseMembers content grants number fuel head b = some (ok, head ++ items, b') ∧
      ParseOutcome content grants (ReadsMembers number b.depth (content.drop (b.offset + 1))) 0
        (CJsonItem.chainBlocks items)
        b (ok && content[b'.offset]? = some (ascii '}')) (CJsonItem.memberTrees items)
        { b' with offset := b'.offset + 1 }

/-- An item whose type and strings are set, and that has nothing below it. -/
theorem CJsonItem.blocks_of_bare {item item' : CJsonItem} (hitem : item.IsBare) (hblock : item'.block = item.block)
    (hstring : item'.string = item.string) (hvalue : item'.valuestring = none) :
    item'.blocks = CJsonItem.chainBlocks item'.child ++ item.blocks := by
  rw [CJsonItem.blocks_eq, CJsonItem.blocks_eq, hblock, hstring, hvalue, hitem.1, hitem.2]
  simp [stringBlock, chainBlocks]

/-- A value that takes no request. -/
theorem ItemEnds.token {item item' : CJsonItem} {b : ParseBuffer} {n : ℕ} (hitem : item.IsBare)
    (hblock : item'.block = item.block) (hstring : item'.string = item.string)
    (hvalue : item'.valuestring = item.valuestring) (hchild : item'.child = item.child)
    (hmemory : b.outOfMemory = false) (hpos : 0 < n) (hlength : n ≤ (b.rest content).length)
    (hreads : ∀ v r, Reads number b.depth (b.rest content) v r ↔ v = item'.tree ∧ r = (b.rest content).drop n) :
    ItemEnds content grants number item b (some (true, item', { b with offset := b.offset + n })) := by
  have hblocks : item'.blocks = item.blocks := by
    rw [CJsonItem.blocks_of_bare hitem hblock hstring (hvalue.trans hitem.1), hchild, hitem.2]
    rfl
  refine ⟨true, item', _, rfl, nofun, hstring, ?_⟩
  rw [hblocks]
  refine ⟨.of_log_eq rfl _, fun _ => hmemory, fun h => ?_, fun _ v r => ?_, fun _ => ?_, fun _ => rfl⟩
  · rw [show b.outOfMemory = true from h] at hmemory
    cases hmemory
  · rw [hreads, rest, rest, List.drop_drop]
    exact ⟨fun h => ⟨rfl, h⟩, fun h => h.2⟩
  · rw [rest, List.length_drop] at hlength
    dsimp only
    omega

/-- Nothing is read. -/
theorem ItemEnds.fail {item : CJsonItem} {b b' : ParseBuffer} (hlog : b'.log = b.log) (hmemory : b'.outOfMemory = false)
    (hreads : ∀ v r, ¬ Reads number b.depth (b.rest content) v r) :
    ItemEnds content grants number item b (some (false, item, b')) :=
  ⟨false, item, b', rfl, fun _ => rfl, rfl, .fail (.of_log_eq hlog _) hmemory hreads _⟩

theorem parseNumber_ends {item : CJsonItem} {b : ParseBuffer} {c : UInt8} {t : List UInt8}
    (hrest : b.rest content = c :: t) (hc : c = ascii '-' ∨ isDigit c) (hmemory : b.outOfMemory = false)
    (hitem : item.IsBare) : ItemEnds content grants number item b (some (parseNumber content number item b)) := by
  unfold parseNumber
  rw [show content.drop b.offset = c :: t from hrest]
  dsimp only
  split_ifs with hzero
  · refine .fail rfl hmemory fun v r h => ?_
    rw [hrest, reads_digit hc] at h
    exact h.1 hzero
  · refine .token hitem rfl rfl rfl rfl hmemory (Nat.pos_of_ne_zero hzero) ?_ fun v r => ?_
    · rw [hrest]
      exact (strtodLength_le _).trans (length_numberCString_le _)
    · rw [hrest, reads_digit hc, and_iff_right hzero]
      rfl

theorem valueEnds_succ {fuel : ℕ} (harray : ArrayEnds content grants number fuel)
    (hobject : ObjectEnds content grants number fuel) : ValueEnds content grants number (fuel + 1) := by
  intro item b hoffset hmemory hitem hfuel
  have hlength : (b.rest content).length = content.length - b.offset := List.length_drop
  unfold parseValue
  dsimp only
  rw [← rest]
  split_ifs with hnull hfalse htrue
  · obtain ⟨t, ht⟩ := List.isPrefixOf_iff_prefix.1 hnull
    refine .token hitem rfl rfl rfl rfl hmemory (by decide) (by rw [← ht]; simp [nullBytes]) fun v r => ?_
    rw [← ht, reads_null]
    rfl
  · obtain ⟨t, ht⟩ := List.isPrefixOf_iff_prefix.1 hfalse
    refine .token hitem rfl rfl rfl rfl hmemory (by decide) (by rw [← ht]; simp [falseBytes]) fun v r => ?_
    rw [← ht, reads_false]
    rfl
  · obtain ⟨t, ht⟩ := List.isPrefixOf_iff_prefix.1 htrue
    refine .token hitem rfl rfl rfl rfl hmemory (by decide) (by rw [← ht]; simp [trueBytes]) fun v r => ?_
    rw [← ht, reads_true]
    rfl
  · rcases hfirst : content[b.offset]? with _ | c
    · have hrest : b.rest content = [] := List.drop_eq_nil_of_le (List.getElem?_eq_none_iff.1 hfirst)
      refine .fail rfl hmemory fun v r h => ?_
      obtain ⟨c, t, hs, -⟩ := needsToken_reads _ h
      rw [hrest] at hs
      cases hs
    · obtain ⟨hlt, hc⟩ := List.getElem?_eq_some_iff.1 hfirst
      have hrest : b.rest content = c :: content.drop (b.offset + 1) := by
        rw [rest, List.drop_eq_getElem_cons hlt, hc]
      dsimp only
      split_ifs with hquote hdigit hbracket hbrace
      · subst hquote
        obtain ⟨ok, item', b', hparse, hsame, hset, houtcome⟩ := parseString_ends hlt hmemory hitem
        have hreads : ∀ v r, Reads number b.depth (b.rest content) v r ↔
            ∃ text, ReadsText (b.rest content) text r ∧ v = .string text := fun v r => by rw [hrest, reads_quote]
        rcases ok with _ | _
        · refine ⟨false, item', b', hparse, hsame, congrArg _ (hsame rfl), ?_⟩
          refine houtcome.of_fail (.of_log_eq rfl _) rfl rfl (fun v r h => ?_) _
          obtain ⟨text, htext, -⟩ := (hreads v r).1 h
          exact ⟨text, r, htext⟩
        · obtain ⟨v, hv⟩ := hset rfl
          have htree : item'.tree = .string (CJsonItem.stringText item'.valuestring) := by
            rw [hv]
            rfl
          refine ⟨true, item', b', hparse, fun h => absurd h (by decide), by rw [hv], ?_⟩
          rw [htree]
          exact houtcome.after _ (.of_log_eq rfl _) le_rfl rfl hreads
      · exact parseNumber_ends hrest hdigit hmemory hitem
      · exact harray item b (hbracket ▸ hfirst) hmemory hitem (by omega)
      · exact hobject item b (hbrace ▸ hfirst) hmemory hitem (by omega)
      · refine .fail rfl hmemory fun v r h => ?_
        rw [hrest] at h hnull hfalse htrue
        rcases reads_cons h with ⟨-, hs, -⟩ | ⟨-, hs, -⟩ | ⟨-, hs, -⟩ | ⟨hc, -⟩ | ⟨hc, -⟩ | ⟨hc, -⟩ | ⟨hc, -⟩
        · exact hnull (List.isPrefixOf_iff_prefix.2 ⟨r, hs.symm⟩)
        · exact hfalse (List.isPrefixOf_iff_prefix.2 ⟨r, hs.symm⟩)
        · exact htrue (List.isPrefixOf_iff_prefix.2 ⟨r, hs.symm⟩)
        · exact hquote hc
        · exact hdigit hc
        · exact hbracket hc
        · exact hbrace hc

/-- A byte at the offset, and the bytes from there on. -/
theorem rest_of_getElem? {b : ParseBuffer} {c : UInt8} (h : content[b.offset]? = some c) :
    b.offset < content.length ∧ b.rest content = c :: content.drop (b.offset + 1) := by
  obtain ⟨hlt, rfl⟩ := List.getElem?_eq_some_iff.1 h
  exact ⟨hlt, List.drop_eq_getElem_cons hlt⟩

theorem readsItems_congr {depth : ℕ} {t t' r : List UInt8} {items : List CJson} (h : afterBlanks t = afterBlanks t') :
    ReadsItems number depth t items r ↔ ReadsItems number depth t' items r := by
  rw [readsItems_iff, readsItems_iff, h]

theorem readsMembers_congr {depth : ℕ} {t t' r : List UInt8} {members : List (String × CJson)}
    (h : afterBlanks t = afterBlanks t') :
    ReadsMembers number depth t members r ↔ ReadsMembers number depth t' members r := by
  rw [readsMembers_iff, readsMembers_iff]
  simp only [ReadsMember, h]

/-- An array or an object with nothing in it. -/
theorem ItemEnds.empty {b : ParseBuffer} {offset : ℕ} {item item' : CJsonItem} (hoffset : b.offset ≤ offset)
    (hlength : offset < content.length) (hmemory : b.outOfMemory = false) (hitem : item.IsBare)
    (hblock : item'.block = item.block) (hstring : item'.string = item.string)
    (hvalue : item'.valuestring = item.valuestring) (hchild : item'.child = [])
    (hreads : ∀ v r, Reads number b.depth (b.rest content) v r ↔ v = item'.tree ∧ r = content.drop (offset + 1)) :
    ItemEnds content grants number item b (some (true, item', { b with depth := b.depth, offset := offset + 1 })) := by
  have hstate : ({ b with offset := offset + 1 } : ParseBuffer) =
      { b with offset := b.offset + (offset + 1 - b.offset) } := by
    rw [Nat.add_sub_cancel' (by omega)]
  rw [hstate]
  refine .token hitem hblock hstring hvalue (hchild.trans hitem.2.symm) hmemory (by omega) ?_ fun v r => ?_
  · rw [rest, List.length_drop]
    omega
  · rw [hreads, rest, List.drop_drop, Nat.add_sub_cancel' (by omega)]

/-- An array or an object whose loop has ended. -/
theorem ItemEnds.close {τ : Type*} {readsChain : τ → List UInt8 → Prop} {wrap : τ → CJson} {bracket : UInt8}
    {b b₁ b' : ParseBuffer} {ok : Bool} {items : List CJsonItem} {result : τ} {item item' : CJsonItem}
    (h : ParseOutcome content grants readsChain 0 (CJsonItem.chainBlocks items) b₁
      (ok && content[b'.offset]? = some bracket) result { b' with offset := b'.offset + 1 })
    (hlog : b₁.log = b.log) (hoffset : b.offset ≤ b₁.offset) (hdepth : b₁.depth = b.depth + 1) (hitem : item.IsBare)
    (hblock : item'.block = item.block) (hstring : item'.string = item.string)
    (hvalue : item'.valuestring = item.valuestring) (hchild : item'.child = items) (htree : item'.tree = wrap result)
    (hreads : ∀ v r, Reads number b.depth (b.rest content) v r ↔ ∃ w, readsChain w r ∧ v = wrap w) :
    ItemEnds content grants number item b
      (some (if ok ∧ content[b'.offset]? = some bracket then
        (true, item', { b' with depth := b'.depth - 1, offset := b'.offset + 1 })
      else (false, item, b'.free (CJsonItem.chainBlocks items)))) := by
  have hholds : Holds item.blocks (CJsonItem.chainBlocks items + item.blocks) b b' := by
    have hframe := h.holds.frame (item.blocks : Multiset ℕ)
    rw [Multiset.zero_add] at hframe
    exact (Holds.of_log_eq hlog _).trans hframe
  split_ifs with hclose
  · have hok : (ok && content[b'.offset]? = some bracket) = true := by simpa using hclose
    rw [hok] at h
    refine ⟨true, item', _, rfl, nofun, hstring, ?_⟩
    rw [CJsonItem.blocks_of_bare hitem hblock hstring (hvalue.trans hitem.1), hchild, htree]
    refine ⟨hholds, h.granted, h.refused, fun hmemory v r => ?_, fun _ => ?_, fun _ => ?_⟩
    · rw [hreads]
      constructor
      · rintro ⟨w, hw, rfl⟩
        obtain ⟨-, rfl, hr⟩ := (h.reading hmemory w r).1 hw
        exact ⟨rfl, rfl, hr⟩
      · rintro ⟨-, rfl, hr⟩
        exact ⟨result, (h.reading hmemory result r).2 ⟨rfl, rfl, hr⟩, rfl⟩
    · exact ⟨hoffset.trans_lt (h.bounds rfl).1, (h.bounds rfl).2⟩
    · have hd := h.depth rfl
      dsimp only at hd ⊢
      omega
  · have hok : (ok && content[b'.offset]? = some bracket) = false := by simpa using hclose
    rw [hok] at h
    refine ⟨false, item, _, rfl, fun _ => rfl, rfl, ?_⟩
    refine ⟨hholds.trans (.free _ _), h.granted, fun _ => rfl, fun hmemory v r => ⟨fun hv => ?_, nofun⟩, nofun, nofun⟩
    obtain ⟨w, hw, -⟩ := (hreads v r).1 hv
    cases ((h.reading hmemory w r).1 hw).1

/-- **An array or an object**, behind its first bracket: `loop` goes over what is in it. -/
theorem ItemEnds.brackets {τ : Type*} (readsChain : List UInt8 → τ → List UInt8 → Prop) (wrap : τ → CJson)
    (trees : List CJsonItem → τ) {bracket : UInt8} {type : CJsonType} {b : ParseBuffer} {item : CJsonItem}
    {loop : ParseBuffer → Option (Bool × List CJsonItem × ParseBuffer)} (hlt : b.offset < content.length)
    (hmemory : b.outOfMemory = false) (hitem : item.IsBare) (hbracket : isBlank bracket = false)
    (hcongr : ∀ {t t' w r}, afterBlanks t = afterBlanks t' → (readsChain t w r ↔ readsChain t' w r))
    (hhead : ∀ {t w r}, readsChain t w r → ∃ c s, afterBlanks t = c :: s ∧ c ≠ bracket)
    (hreads : ∀ v r, Reads number b.depth (b.rest content) v r ↔
      afterBlanks (content.drop (b.offset + 1)) = bracket :: r ∧ v = wrap (trees []) ∨
        ∃ w, readsChain (content.drop (b.offset + 1)) w r ∧ v = wrap w)
    (htree : ∀ items, CJsonItem.tree { item with type := type, child := items } = wrap (trees items))
    (hloop : ∀ b₁ : ParseBuffer, b.offset ≤ b₁.offset → b₁.offset < content.length → b₁.outOfMemory = false →
      b₁.depth = b.depth + 1 → ∃ ok items b', loop b₁ = some (ok, items, b') ∧
        ParseOutcome content grants (readsChain (content.drop (b₁.offset + 1))) 0 (CJsonItem.chainBlocks items) b₁
          (ok && content[b'.offset]? = some bracket) (trees items) { b' with offset := b'.offset + 1 }) :
    ItemEnds content grants number item b
      (let b := bufferSkipWhitespace content { b with offset := b.offset + 1, depth := b.depth + 1 }
      match content[b.offset]? with
      | none => some (false, item, { b with offset := b.offset - 1 })
      | some c =>
        if c = bracket then
          some (true, { item with type := type, child := [] }, { b with depth := b.depth - 1, offset := b.offset + 1 })
        else
          (loop { b with offset := b.offset - 1 }).map fun (ok, head, b) =>
            if ok ∧ content[b.offset]? = some bracket then
              (true, { item with type := type, child := head },
                { b with depth := b.depth - 1, offset := b.offset + 1 })
            else (false, item, b.free (CJsonItem.chainBlocks head))) := by
  -- the state behind the bracket
  set b₁ : ParseBuffer := { b with offset := b.offset + 1, depth := b.depth + 1 } with hb₁
  have hoffset : b₁.offset ≤ content.length := hlt
  have hafter := afterBlanks_eq_of_skip hoffset
  have hget := @afterBlanks_of_getElem? content b₁ hoffset
  have hget' := @getElem?_of_afterBlanks content b₁ hoffset
  obtain ⟨offset, hskip, hle, -, -, -⟩ := bufferSkipWhitespace_ends hoffset
  have hle' : b.offset + 1 ≤ offset := hle
  rw [hskip] at hget hget' hafter ⊢
  change ∀ v r, _ ↔ afterBlanks (b₁.rest content) = bracket :: r ∧ v = wrap (trees []) ∨
    ∃ w, readsChain (b₁.rest content) w r ∧ v = wrap w at hreads
  dsimp only at hget hget' ⊢
  rcases hnext : content[offset]? with _ | c
  · refine .fail rfl hmemory fun v r h => ?_
    rcases (hreads v r).1 h with ⟨hend, -⟩ | ⟨w, hw, -⟩
    · rw [(hget' hend).1] at hnext
      cases hnext
    · obtain ⟨c, t, hs, -⟩ := hhead hw
      rw [(hget' hs).1] at hnext
      cases hnext
  · dsimp only
    have hlt' : offset < content.length := (List.getElem?_eq_some_iff.1 hnext).1
    split_ifs with hclose
    · subst hclose
      have hend := hget hbracket hnext
      refine .empty (by exact (Nat.le_succ _).trans hle) hlt' hmemory hitem rfl rfl rfl rfl fun v r => ?_
      rw [hreads, hend, htree]
      constructor
      · rintro (⟨hr, rfl⟩ | ⟨w, hw, -⟩)
        · exact ⟨rfl, (List.cons.inj hr).2.symm⟩
        · obtain ⟨d, t, hs, hd⟩ := hhead hw
          rw [hend] at hs
          exact absurd (List.cons.inj hs).1.symm hd
      · rintro ⟨rfl, rfl⟩
        exact .inl ⟨rfl, rfl⟩
    · obtain ⟨ok, items, b', hrun, houtcome⟩ := hloop { b₁ with offset := offset - 1 } (by dsimp only; omega)
        (by dsimp only; omega) hmemory rfl
      rw [hrun, Option.map_some]
      refine ItemEnds.close houtcome rfl (by dsimp only; omega) rfl hitem rfl rfl rfl rfl (htree items) fun v r => ?_
      have hchain : ∀ w, readsChain (content.drop (offset - 1 + 1)) w r ↔ readsChain (b₁.rest content) w r :=
        fun w => by
          rw [Nat.sub_add_cancel (by omega)]
          exact hcongr hafter
      rw [hreads]
      constructor
      · rintro (⟨hend, -⟩ | ⟨w, hw, rfl⟩)
        · rw [(hget' hend).1] at hnext
          exact absurd (Option.some.inj hnext).symm hclose
        · exact ⟨w, (hchain w).2 hw, rfl⟩
      · rintro ⟨w, hw, rfl⟩
        exact .inr ⟨w, (hchain w).1 hw, rfl⟩

theorem arrayEnds_succ {fuel : ℕ} (helements : ElementsEnd content grants number fuel) :
    ArrayEnds content grants number (fuel + 1) := by
  intro item b hfirst hmemory hitem hfuel
  obtain ⟨hlt, hrest⟩ := rest_of_getElem? hfirst
  unfold parseArray
  split_ifs with hdepth
  · refine .fail rfl hmemory fun v r h => ?_
    rw [hrest, reads_bracket] at h
    omega
  · dsimp only
    rw [hfirst, Option.bind_some, if_neg (by simp)]
    refine ItemEnds.brackets (ReadsItems number (b.depth + 1)) .array CJsonItem.chainTrees hlt hmemory hitem (by decide)
      readsItems_congr (fun h => ?_) (fun v r => ?_) (fun _ => rfl) fun b₁ hle hlt' hmemory' hdepth' => ?_
    · obtain ⟨first, u, hfirst, -⟩ := readsItems_iff.1 h
      obtain ⟨c, t, hs, -⟩ := needsToken_reads _ hfirst
      rw [hs] at hfirst
      refine ⟨c, t, hs, ?_⟩
      rintro rfl
      exact absurd (startsValue_of_reads hfirst) (by decide)
    · rw [hrest, reads_bracket, and_iff_right (by omega)]
      rfl
    · obtain ⟨ok, items, b', hloop, houtcome⟩ := helements [] b₁ hlt' hmemory' (by omega)
      rw [hdepth'] at houtcome
      exact ⟨ok, items, b', hloop, houtcome⟩

theorem objectEnds_succ {fuel : ℕ} (hmembers : MembersEnd content grants number fuel) :
    ObjectEnds content grants number (fuel + 1) := by
  intro item b hfirst hmemory hitem hfuel
  obtain ⟨hlt, hrest⟩ := rest_of_getElem? hfirst
  unfold parseObject
  split_ifs with hdepth
  · refine .fail rfl hmemory fun v r h => ?_
    rw [hrest, reads_brace] at h
    omega
  · dsimp only
    rw [if_neg (by simp [hfirst])]
    refine ItemEnds.brackets (ReadsMembers number (b.depth + 1)) .object CJsonItem.memberTrees hlt hmemory hitem
      (by decide) readsMembers_congr (fun h => ?_) (fun v r => ?_) (fun _ => rfl)
      fun b₁ hle hlt' hmemory' hdepth' => ?_
    · obtain ⟨member, w, ⟨u, ⟨bytes, ⟨body, -, hs, -⟩, -⟩, -⟩, -⟩ := readsMembers_iff.1 h
      exact ⟨_, _, hs, by decide⟩
    · rw [hrest, reads_brace, and_iff_right (by omega)]
      rfl
    · obtain ⟨ok, items, b', hloop, houtcome⟩ := hmembers [] b₁ hlt' hmemory' (by omega)
      rw [hdepth'] at houtcome
      exact ⟨ok, items, b', hloop, houtcome⟩

/-- **A round of a loop**: after an entry comes another one, or what ends the loop. -/
theorem ParseOutcome.entry {τ : Type*} (readsEntry : List UInt8 → τ → List UInt8 → Prop)
    {readsChain : List UInt8 → List τ → List UInt8 → Prop} {bracket : UInt8} {t : List UInt8} {b b₁ : ParseBuffer}
    {item : CJsonItem} {entry : τ}
    (hiff : ∀ {t vs r}, readsChain t vs r ↔ ∃ v u, readsEntry t v u ∧ (afterBlanks u = bracket :: r ∧ vs = [v] ∨
      ∃ t' rest, afterBlanks u = ascii ',' :: t' ∧ readsChain t' rest r ∧ vs = v :: rest))
    (hbracket : isBlank bracket = false) (hcomma : bracket ≠ ascii ',')
    (h : ParseOutcome content grants (readsEntry t) 0 item.blocks b true entry b₁) :
    (content[(bufferSkipWhitespace content b₁).offset]? ≠ some (ascii ',') →
      ParseOutcome content grants (readsChain t) 0 (CJsonItem.chainBlocks [item]) b
        (content[(bufferSkipWhitespace content b₁).offset]? = some bracket) [entry]
        { bufferSkipWhitespace content b₁ with offset := (bufferSkipWhitespace content b₁).offset + 1 }) ∧
    (content[(bufferSkipWhitespace content b₁).offset]? = some (ascii ',') →
      ∀ ok items (entries : List τ) b', ParseOutcome content grants
        (readsChain (content.drop ((bufferSkipWhitespace content b₁).offset + 1))) 0 (CJsonItem.chainBlocks items)
        (bufferSkipWhitespace content b₁) ok entries b' →
      ParseOutcome content grants (readsChain t) 0 (CJsonItem.chainBlocks (item :: items)) b ok (entry :: entries)
        b') := by
  have hmemory : b₁.outOfMemory = false := Bool.eq_false_iff.2 fun h' => by cases h.refused h'
  obtain ⟨hprogress, hlength⟩ := h.bounds rfl
  have hdepth := h.depth rfl
  have hentry : ∀ v u, readsEntry t v u ↔ v = entry ∧ u = b₁.rest content := fun v u => by
    rw [h.reading hmemory, and_iff_right rfl]
  have hget := @afterBlanks_of_getElem? content b₁ hlength
  have hget' := @getElem?_of_afterBlanks content b₁ hlength
  obtain ⟨offset, hskip, hle, hend, -, -⟩ := bufferSkipWhitespace_ends hlength
  rw [hskip] at hget hget' ⊢
  dsimp only at hget hget' ⊢
  have hholds : Holds 0 item.blocks b { b₁ with offset := offset } := h.holds.trans (.of_log_eq rfl _)
  refine ⟨fun hnext => ?_, fun hnext ok items entries b' houtcome => ?_⟩
  · have hreads : ∀ vs r, readsChain t vs r ↔ afterBlanks (b₁.rest content) = bracket :: r ∧ vs = [entry] := by
      intro vs r
      rw [hiff]
      constructor
      · rintro ⟨v, u, hv, hrest⟩
        obtain ⟨rfl, rfl⟩ := (hentry v u).1 hv
        rcases hrest with hlast | ⟨t', rest, hmore, -⟩
        · exact hlast
        · exact absurd (hget' hmore).1 hnext
      · intro hlast
        exact ⟨entry, _, (hentry _ _).2 ⟨rfl, rfl⟩, .inl hlast⟩
    have hblocks : CJsonItem.chainBlocks [item] = item.blocks := List.append_nil _
    rw [hblocks]
    refine ⟨hholds.trans (.of_log_eq rfl _), fun _ => hmemory, fun h' => ?_, fun _ vs r => ?_, fun hok => ?_,
      fun _ => hdepth⟩
    · rw [show b₁.outOfMemory = true from h'] at hmemory
      cases hmemory
    · rw [hreads, decide_eq_true_iff]
      constructor
      · rintro ⟨hlast, rfl⟩
        exact ⟨(hget' hlast).1, rfl, (hget' hlast).2⟩
      · rintro ⟨hlast, rfl, rfl⟩
        exact ⟨hget hbracket hlast, rfl⟩
    · have hlt : offset < content.length := (List.getElem?_eq_some_iff.1 (of_decide_eq_true hok)).1
      dsimp only
      omega
  · have hmore := hget (by decide) hnext
    have hblocks : (CJsonItem.chainBlocks (item :: items) : Multiset ℕ) =
        CJsonItem.chainBlocks items + (item.blocks : Multiset ℕ) := by
      rw [Multiset.add_comm, Multiset.coe_add]
      rfl
    rw [hblocks]
    refine (houtcome.frame item.blocks).after _ (by rwa [Multiset.zero_add]) (by dsimp only; omega) hdepth
      fun vs r => ?_
    rw [hiff]
    constructor
    · rintro ⟨v, u, hv, hrest⟩
      obtain ⟨rfl, rfl⟩ := (hentry v u).1 hv
      rcases hrest with ⟨hlast, -⟩ | ⟨t', rest, hmore', hchain, rfl⟩
      · rw [hmore] at hlast
        exact absurd (List.cons.inj hlast).1.symm hcomma
      · rw [hmore] at hmore'
        rw [← (List.cons.inj hmore').2] at hchain
        exact ⟨rest, hchain, rfl⟩
    · rintro ⟨rest, hchain, rfl⟩
      exact ⟨entry, _, (hentry _ _).2 ⟨rfl, rfl⟩, .inr ⟨_, _, hmore, hchain, rfl⟩⟩

/-- The end of a round, behind an entry that has been read. -/
theorem ParseOutcome.round {τ : Type*} (readsEntry : List UInt8 → τ → List UInt8 → Prop)
    {readsChain : List UInt8 → List τ → List UInt8 → Prop} {bracket : UInt8} {t : List UInt8} {b b₁ : ParseBuffer}
    {head : List CJsonItem} {item : CJsonItem} {entry : τ} (trees : List CJsonItem → List τ)
    {loop : List CJsonItem → ParseBuffer → Option (Bool × List CJsonItem × ParseBuffer)}
    (hiff : ∀ {t vs r}, readsChain t vs r ↔ ∃ v u, readsEntry t v u ∧ (afterBlanks u = bracket :: r ∧ vs = [v] ∨
      ∃ t' rest, afterBlanks u = ascii ',' :: t' ∧ readsChain t' rest r ∧ vs = v :: rest))
    (hbracket : isBlank bracket = false) (hcomma : bracket ≠ ascii ',')
    (hentry : ParseOutcome content grants (readsEntry t) 0 item.blocks b true entry b₁)
    (hnil : trees [] = []) (htrees : ∀ items, trees (item :: items) = entry :: trees items)
    (hloop : ∀ b₂ : ParseBuffer, b.offset < b₂.offset → b₂.offset < content.length → b₂.outOfMemory = false →
      b₂.depth = b.depth → ∃ ok items b', loop (head ++ [item]) b₂ = some (ok, (head ++ [item]) ++ items, b') ∧
        ParseOutcome content grants (readsChain (content.drop (b₂.offset + 1))) 0 (CJsonItem.chainBlocks items) b₂
          (ok && content[b'.offset]? = some bracket) (trees items) { b' with offset := b'.offset + 1 }) :
    ∃ ok items b', (if content[(bufferSkipWhitespace content b₁).offset]? = some (ascii ',') then
        loop (head ++ [item]) (bufferSkipWhitespace content b₁)
      else some (true, head ++ [item], bufferSkipWhitespace content b₁)) = some (ok, head ++ items, b') ∧
        ParseOutcome content grants (readsChain t) 0 (CJsonItem.chainBlocks items) b
          (ok && content[b'.offset]? = some bracket) (trees items) { b' with offset := b'.offset + 1 } := by
  obtain ⟨hstop, hmore⟩ := ParseOutcome.entry readsEntry hiff hbracket hcomma hentry
  obtain ⟨hprogress, hlength⟩ := hentry.bounds rfl
  have hmemory : b₁.outOfMemory = false := Bool.eq_false_iff.2 fun h => by cases hentry.refused h
  obtain ⟨offset, hskip, hle, -, -, -⟩ := bufferSkipWhitespace_ends hlength
  rw [hskip] at hstop hmore ⊢
  dsimp only at hstop hmore ⊢
  split_ifs with hnext
  · have hlt : offset < content.length := (List.getElem?_eq_some_iff.1 hnext).1
    obtain ⟨ok, items, b', hrun, hrest⟩ := hloop { b₁ with offset := offset } (hprogress.trans_le hle) hlt hmemory
      (hentry.depth rfl)
    rw [hrun]
    refine ⟨ok, item :: items, b', by rw [List.append_assoc]; rfl, ?_⟩
    rw [htrees]
    exact hmore hnext _ _ _ _ hrest
  · refine ⟨true, [item], _, rfl, ?_⟩
    rw [Bool.true_and, htrees, hnil]
    exact hstop hnext

/-- A value after blanks. -/
theorem ValueEnds.afterBlanks {fuel : ℕ} (hvalue : ValueEnds content grants number fuel) {item : CJsonItem}
    {b : ParseBuffer} (hoffset : b.offset ≤ content.length) (hmemory : b.outOfMemory = false) (hitem : item.IsBare)
    (hfuel : 3 * (content.length - b.offset) + 3 ≤ fuel) : ∃ ok item' b',
      parseValue content grants number fuel item (bufferSkipWhitespace content b) = some (ok, item', b') ∧
      item'.string = item.string ∧ ParseOutcome content grants
        (Reads number b.depth (VulkanLoader.afterBlanks (b.rest content))) item.blocks item'.blocks b ok item'.tree b' := by
  have hreads : ∀ v r, Reads number b.depth ((bufferSkipWhitespace content b).rest content) v r ↔
      Reads number b.depth (VulkanLoader.afterBlanks (b.rest content)) v r := fun v r =>
    rest_bufferSkipWhitespace hoffset needsToken_reads
  obtain ⟨offset, hskip, hle, hend, -, -⟩ := bufferSkipWhitespace_ends hoffset
  rw [hskip] at hreads ⊢
  obtain ⟨ok, item', b', hparse, -, hstring, houtcome⟩ := hvalue item { b with offset := offset } hend hmemory hitem
    (by dsimp only; omega)
  refine ⟨ok, item', b', hparse, hstring, houtcome.after id (.of_log_eq rfl _) hle rfl fun v r => ?_⟩
  rw [← hreads]
  exact ⟨fun h => ⟨v, h, rfl⟩, by rintro ⟨w, h, rfl⟩; exact h⟩

theorem elementsEnd_succ {fuel : ℕ} (hvalue : ValueEnds content grants number fuel)
    (helements : ElementsEnd content grants number fuel) : ElementsEnd content grants number (fuel + 1) := by
  intro head b hlt hmemory hfuel
  unfold parseArrayElements
  rcases hcalloc : b.calloc grants with ⟨_ | newItem, b₁⟩
  · obtain ⟨-, rfl⟩ := calloc_none hcalloc
    refine ⟨false, [], _, by rw [List.append_nil], ?_⟩
    exact .refusal hcalloc (by rfl) (by exact .of_log_eq rfl _) _
  have hblock := Holds.calloc hcalloc 0
  obtain rfl := calloc_some hcalloc
  dsimp only at hblock ⊢
  obtain ⟨ok, item, b₁, hparse, -, houtcome⟩ := @ValueEnds.afterBlanks _ _ _ _ hvalue (.new newItem)
    ⟨b.offset + 1, b.depth, b.requests + 1, b.log ++ [made newItem], b.outOfMemory⟩ hlt hmemory ⟨rfl, rfl⟩
    (by dsimp only; omega)
  rw [hparse, Option.bind_some]
  rcases ok with _ | _
  · refine ⟨false, [item], b₁, rfl, ?_⟩
    rw [Bool.false_and, show CJsonItem.chainBlocks [item] = item.blocks from List.append_nil _]
    refine houtcome.of_fail (by exact hblock) (by exact rfl) (by exact rfl) (fun vs r h => ?_) _
    obtain ⟨v, u, hv, -⟩ := readsItems_iff.1 h
    exact ⟨v, u, hv⟩
  · have hentry : ParseOutcome content grants (Reads number b.depth (afterBlanks (content.drop (b.offset + 1)))) 0
        item.blocks b true item.tree b₁ :=
      houtcome.after id hblock (Nat.le_succ _) rfl fun v r => ⟨fun h => ⟨v, h, rfl⟩, by rintro ⟨w, h, rfl⟩; exact h⟩
    refine ParseOutcome.round (fun t => Reads number b.depth (afterBlanks t)) CJsonItem.chainTrees readsItems_iff
      (by decide)
      (by decide) hentry rfl (fun _ => rfl) fun b₂ hlt₂ hend₂ hmemory₂ hdepth₂ => ?_
    rw [← hdepth₂]
    exact helements (head ++ [item]) b₂ hend₂ hmemory₂ (by omega)

theorem membersEnd_succ {fuel : ℕ} (hvalue : ValueEnds content grants number fuel)
    (hmembers : MembersEnd content grants number fuel) : MembersEnd content grants number (fuel + 1) := by
  intro head b hlt hmemory hfuel
  unfold parseMembers
  rcases hcalloc : b.calloc grants with ⟨_ | newItem, b₁⟩
  · obtain ⟨-, rfl⟩ := calloc_none hcalloc
    refine ⟨false, [], _, by rw [List.append_nil], ?_⟩
    exact .refusal hcalloc (by rfl) (by exact .of_log_eq rfl _) _
  have hblock := Holds.calloc hcalloc 0
  obtain rfl := calloc_some hcalloc
  dsimp only at hblock ⊢
  have hchain : ∀ item : CJsonItem, CJsonItem.chainBlocks [item] = item.blocks := fun item => List.append_nil _
  split_ifs with hlast
  · -- nothing comes after the comma
    refine ⟨false, [.new newItem], _, rfl, ?_⟩
    rw [Bool.false_and, hchain]
    refine .fail (by exact hblock) (by exact hmemory) (fun vs r h => ?_) _
    obtain ⟨member, w, ⟨u, ⟨bytes, ⟨body, -, hs, -⟩, -⟩, -⟩, -⟩ := readsMembers_iff.1 h
    rw [List.drop_eq_nil_of_le hlast] at hs
    cases hs
  -- the state before the blanks
  set b₁ : ParseBuffer := { b with
    offset := b.offset + 1, requests := b.requests + 1, log := b.log ++ [made newItem] } with hb₁
  have hoffset : b₁.offset ≤ content.length := hlt
  have hkey : ∀ key u, ReadsText ((bufferSkipWhitespace content b₁).rest content) key u ↔
      ReadsText (afterBlanks (content.drop (b.offset + 1))) key u := fun key u =>
    rest_bufferSkipWhitespace hoffset needsToken_readsText
  obtain ⟨offset, hskip, hle, -, hend, -⟩ := bufferSkipWhitespace_ends hoffset
  have hle' : b.offset + 1 ≤ offset := hle
  rw [hskip] at hkey ⊢
  obtain ⟨ok, item, b₂, hparse, hsame, hset, houtcome⟩ := @parseString_ends content grants (.new newItem)
    { b₁ with offset := offset } (hend (by show b.offset + 1 < content.length; omega)) hmemory ⟨rfl, rfl⟩
  have hholds : Holds 0 (CJsonItem.new newItem).blocks b { b₁ with offset := offset } := hblock
  rw [hparse, Option.bind_some]
  rcases ok with _ | _
  · refine ⟨false, [item], b₂, rfl, ?_⟩
    rw [Bool.false_and, hchain]
    refine houtcome.of_fail hholds (by exact rfl) (by exact rfl) (fun vs r h => ?_) _
    obtain ⟨member, w, ⟨u, hu, -⟩, -⟩ := readsMembers_iff.1 h
    exact ⟨_, u, (hkey _ u).2 hu⟩
  -- the key has been read
  obtain ⟨⟨block, bytes⟩, rfl⟩ := hset rfl
  obtain ⟨hprogress, hlength⟩ := houtcome.bounds rfl
  have hmemory' : b₂.outOfMemory = false := Bool.eq_false_iff.2 fun h => by cases houtcome.refused h
  have hread : ∀ key u, ReadsText (afterBlanks (content.drop (b.offset + 1))) key u ↔
      key = CJsonItem.stringText (some (block, bytes)) ∧ u = b₂.rest content := fun key u => by
    rw [← hkey, houtcome.reading hmemory', and_iff_right rfl]
  have hget := @afterBlanks_of_getElem? content b₂ hlength
  have hget' := @getElem?_of_afterBlanks content b₂ hlength
  have hdepth := houtcome.depth rfl
  have hheld := hholds.trans houtcome.holds
  obtain ⟨offset₂, hskip₂, hle₂, -, -, -⟩ := bufferSkipWhitespace_ends hlength
  dsimp only at hprogress hdepth ⊢
  rw [hskip₂] at hget hget' ⊢
  dsimp only at hget hget' ⊢
  set item : CJsonItem := { CJsonItem.new newItem with
    type := .string, string := some (block, bytes), valuestring := none } with hitem
  have hheld' : Holds 0 item.blocks b { b₂ with offset := offset₂ } := hheld.trans (.of_log_eq rfl _)
  split_ifs with hcolon
  · refine ⟨false, [item], _, rfl, ?_⟩
    rw [Bool.false_and, hchain]
    refine .fail (by exact hheld') (by exact hmemory') (fun vs r h => ?_) _
    obtain ⟨member, w, ⟨u, hu, u', hu', -⟩, -⟩ := readsMembers_iff.1 h
    obtain ⟨-, rfl⟩ := (hread _ u).1 hu
    exact hcolon (hget' hu').1
  have hcolon := hget (by decide) (not_not.1 hcolon)
  have hlt₂ : offset₂ < content.length := by
    have hnext := (hget' hcolon).1
    exact (List.getElem?_eq_some_iff.1 hnext).1
  obtain ⟨ok, item', b₃, hparse', hstring, houtcome'⟩ := @ValueEnds.afterBlanks _ _ _ _ hvalue item
    { b₂ with offset := offset₂ + 1 } hlt₂ hmemory' ⟨rfl, rfl⟩ (by dsimp only; omega)
  rw [hparse', Option.bind_some]
  have hmember : ∀ m w, ReadsMember number b.depth (content.drop (b.offset + 1)) m w ↔
      ∃ v, Reads number b₂.depth (afterBlanks (content.drop (offset₂ + 1))) v w ∧
        m = (CJsonItem.stringText (some (block, bytes)), v) := by
    rintro ⟨key, v⟩ w
    rw [show b₂.depth = b.depth from hdepth]
    constructor
    · rintro ⟨u, hu, u', hu', hv⟩
      obtain ⟨rfl, rfl⟩ := (hread _ u).1 hu
      rw [hcolon] at hu'
      rw [← (List.cons.inj hu').2] at hv
      exact ⟨v, hv, rfl⟩
    · rintro ⟨v', hv, hm⟩
      obtain ⟨rfl, rfl⟩ := Prod.mk.inj hm
      exact ⟨_, (hread _ _).2 ⟨rfl, rfl⟩, _, hcolon, hv⟩
  rcases ok with _ | _
  · refine ⟨false, [item'], b₃, rfl, ?_⟩
    rw [Bool.false_and, hchain]
    refine houtcome'.of_fail (by exact hheld') (by exact rfl) (by exact rfl) (fun vs r h => ?_) _
    obtain ⟨m, w, hm, -⟩ := readsMembers_iff.1 h
    obtain ⟨v, hv, -⟩ := (hmember m w).1 hm
    exact ⟨v, w, hv⟩
  · have hentry : ParseOutcome content grants (ReadsMember number b.depth (content.drop (b.offset + 1))) 0
        item'.blocks b true
        (CJsonItem.stringText (some (block, bytes)), item'.tree) b₃ :=
      houtcome'.after _ hheld' (by dsimp only; omega) hdepth hmember
    refine ParseOutcome.round (ReadsMember number b.depth) CJsonItem.memberTrees readsMembers_iff (by decide) (by decide)
      hentry rfl (fun items => ?_) fun b₄ hlt₄ hend₄ hmemory₄ hdepth₄ => ?_
    · rw [CJsonItem.memberTrees, hstring]
    · rw [← hdepth₄]
      exact hmembers (head ++ [item']) b₄ hend₄ hmemory₄ (by omega)

/-- Every function of the parser ends, with enough fuel. -/
theorem parser_ends (content : List UInt8) (grants : ℕ → Bool) (number : NumberValue) (fuel : ℕ) :
    ValueEnds content grants number fuel ∧ ArrayEnds content grants number fuel ∧
      ElementsEnd content grants number fuel ∧ ObjectEnds content grants number fuel ∧
      MembersEnd content grants number fuel := by
  induction fuel with
  | zero =>
    refine ⟨?_, ?_, ?_, ?_, ?_⟩
    · exact fun _ _ _ _ _ hfuel => absurd hfuel (by omega)
    · exact fun _ _ _ _ _ hfuel => absurd hfuel (by omega)
    · exact fun _ _ _ _ hfuel => absurd hfuel (by omega)
    · exact fun _ _ _ _ _ hfuel => absurd hfuel (by omega)
    · exact fun _ _ _ _ hfuel => absurd hfuel (by omega)
  | succ fuel ih =>
    obtain ⟨hvalue, harray, helements, hobject, hmembers⟩ := ih
    exact ⟨valueEnds_succ harray hobject, arrayEnds_succ helements, elementsEnd_succ hvalue helements,
      objectEnds_succ hmembers, membersEnd_succ hvalue hmembers⟩

/-- Where a value is looked for: after a byte order mark and blanks. -/
def textStart (content : List UInt8) : List UInt8 :=
  afterBlanks (if 4 < content.length ∧ [0xEF, 0xBB, 0xBF].isPrefixOf content then content.drop 3 else content)

/-- The blocks of what the parser gives. -/
def heldBlocks (item : Option CJsonItem) : List ℕ := (item.map CJsonItem.blocks).getD []

theorem parseWithLength_ends (content : List UInt8) (grants : ℕ → Bool) (number : NumberValue) :
    ∃ item b, parseWithLength content grants number = some (item, b) ∧
      outstanding 0 b.log = some (heldBlocks item : Multiset ℕ) ∧
      ((∀ i, grants i = true) → b.outOfMemory = false) ∧ (b.outOfMemory = true → item = none) ∧
      (b.outOfMemory = false → ∀ v, item.map CJsonItem.tree = some v ↔ ∃ r, Reads number 0 (textStart content) v r) := by
  unfold parseWithLength
  split_ifs with hempty
  · refine ⟨none, .start, rfl, rfl, fun _ => rfl, nofun, fun _ v => ⟨nofun, ?_⟩⟩
    rintro ⟨r, hr⟩
    obtain ⟨c, t, hs, -⟩ := needsToken_reads _ hr
    rw [hempty] at hs
    cases hs
  · rcases hcalloc : ParseBuffer.start.calloc grants with ⟨_ | newItem, b₁⟩
    · obtain ⟨hrefused, rfl⟩ := calloc_none hcalloc
      refine ⟨none, _, rfl, rfl, fun hall => ?_, fun _ => rfl, nofun⟩
      rw [hall] at hrefused
      cases hrefused
    · have hblock := Holds.calloc hcalloc 0
      obtain rfl := calloc_some hcalloc
      -- the state behind a byte order mark
      obtain ⟨offset, hbom, hoffset, hrest⟩ : ∃ offset, skipUtf8Bom content
          { start with requests := start.requests + 1, log := start.log ++ [made newItem] } =
          ⟨offset, 0, 1, [made newItem], false⟩ ∧ offset ≤ content.length ∧
          afterBlanks (content.drop offset) = textStart content := by
        unfold skipUtf8Bom textStart
        split_ifs with hbom
        · exact ⟨3, rfl, by omega, rfl⟩
        · exact ⟨0, rfl, Nat.zero_le _, rfl⟩
      dsimp only at hblock ⊢
      rw [hbom]
      obtain ⟨ok, item, b, hparse, -, houtcome⟩ := @ValueEnds.afterBlanks _ _ _ _
        (parser_ends content grants number (3 * content.length + 3)).1 (.new newItem)
        ⟨offset, 0, 1, [made newItem], false⟩ hoffset rfl ⟨rfl, rfl⟩ (by dsimp only; omega)
      have hholds : Holds 0 item.blocks .start b := hblock.trans houtcome.holds
      obtain ⟨log, hlog, hheld⟩ := hholds
      rw [hparse, Option.map_some]
      rcases ok with _ | _
      · refine ⟨none, _, rfl, ?_, houtcome.granted, fun _ => rfl, fun hmemory v => ⟨nofun, ?_⟩⟩
        · rw [free, hlog]
          refine outstanding_trans hheld ?_
          have hfree := outstanding_givenBack_list item.blocks 0
          rwa [Multiset.add_zero] at hfree
        · rintro ⟨r, hr⟩
          rw [← hrest] at hr
          cases ((houtcome.reading hmemory v r).1 hr).1
      · refine ⟨some item, b, rfl, ?_, houtcome.granted, fun h => ?_, fun hmemory v => ?_⟩
        · rw [hlog]
          exact hheld
        · cases houtcome.refused h
        · rw [Option.map_some, Option.some.injEq, ← hrest]
          constructor
          · rintro rfl
            exact ⟨_, (houtcome.reading hmemory _ _).2 ⟨rfl, rfl, rfl⟩⟩
          · rintro ⟨r, hr⟩
            exact ((houtcome.reading hmemory v r).1 hr).2.1.symm

/-- **The parser decides its language**: if no request is refused, it gives the tree of the value that the text begins
with, and `NULL` if it begins with none. -/
theorem parseWithLength_iff (content : List UInt8) (number : NumberValue) :
    ∃ item b, parseWithLength content (fun _ => true) number = some (item, b) ∧
      ∀ v, item.map CJsonItem.tree = some v ↔ ∃ r, Reads number 0 (textStart content) v r := by
  obtain ⟨item, b, hparse, -, hgranted, -, hreads⟩ := parseWithLength_ends content (fun _ => true) number
  exact ⟨item, b, hparse, hreads (hgranted fun _ => rfl)⟩

/-- **Memory**: whatever requests are refused, either the parser says so and gives `NULL`, or it gives what it gives if
none is; and what it has allocated is freed with its item, once. -/
theorem parseWithLength_refused (content : List UInt8) (grants : ℕ → Bool) (number : NumberValue) :
    ∃ item b item' b', parseWithLength content grants number = some (item, b) ∧
      parseWithLength content (fun _ => true) number = some (item', b') ∧
      (b.outOfMemory = true ∧ item = none ∨
        b.outOfMemory = false ∧ item.map CJsonItem.tree = item'.map CJsonItem.tree) ∧
      outstanding 0 b.log = some (heldBlocks item : Multiset ℕ) ∧
      Settled (b.log ++ (heldBlocks item).map givenBack) := by
  obtain ⟨item, b, hparse, hlog, -, hrefused, hreads⟩ := parseWithLength_ends content grants number
  obtain ⟨item', b', hparse', -, hgranted, -, hreads'⟩ := parseWithLength_ends content (fun _ => true) number
  refine ⟨item, b, item', b', hparse, hparse', ?_, hlog, ?_⟩
  · rcases hmemory : b.outOfMemory
    · refine .inr ⟨rfl, Option.ext fun v => ?_⟩
      exact (hreads hmemory v).trans (hreads' (hgranted fun _ => rfl) v).symm
    · exact .inl ⟨rfl, hrefused hmemory⟩
  · have hfree := outstanding_givenBack_list (heldBlocks item) 0
    rw [Multiset.add_zero] at hfree
    exact outstanding_trans hlog hfree

end Parser

end VulkanLoader
