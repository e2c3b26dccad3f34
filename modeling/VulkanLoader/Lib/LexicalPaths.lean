import Mathlib.Data.List.TakeWhile
import Mathlib.Tactic.Common

/-!
# Paths, lexically

A path is a first component, and others that each follow a separator.  An absolute path begins with a separator, so its
first component is empty.  Lexically a path is resolved component by component: an empty component and the component
`.` stay where they are, `..` leaves the directory (the root is its own parent), any other component enters one.  A
location is the list of the directories entered, the last one first.
-/

namespace VulkanLoader.Lib

section Slashed

variable {α : Type*}

/-- Components that each follow a separator. -/
def slashed (sep : α) (cs : List (List α)) : List α := cs.flatMap fun c => sep :: c

@[simp] theorem slashed_nil (sep : α) : slashed sep [] = [] := rfl

@[simp] theorem slashed_cons (sep : α) (w : List α) (cs : List (List α)) :
    slashed sep (w :: cs) = sep :: w ++ slashed sep cs := rfl

@[simp] theorem slashed_append (sep : α) (cs cs' : List (List α)) :
    slashed sep (cs ++ cs') = slashed sep cs ++ slashed sep cs' := List.flatMap_append

theorem exists_slashed_eq_cons (sep : α) (cs : List (List α)) (last : List α) :
    ∃ q, slashed sep (cs ++ [last]) = sep :: q := by
  rcases cs with _ | ⟨c, cs⟩
  · exact ⟨_, rfl⟩
  · exact ⟨_, rfl⟩

end Slashed

variable {α : Type*} [DecidableEq α]

/-- The first component of a path, and those that follow. -/
def components (sep : α) : List α → List α × List (List α)
  | [] => ([], [])
  | a :: p =>
    if a = sep then ([], (components sep p).1 :: (components sep p).2)
    else (a :: (components sep p).1, (components sep p).2)

/-- The path begins with a separator. -/
def IsAbsolutePath (sep : α) (p : List α) : Prop := p.head? = some sep

instance (sep : α) (p : List α) : Decidable (IsAbsolutePath sep p) := inferInstanceAs (Decidable (_ = _))

/-- The components that stay where they are. -/
def stays (dot : α) (c : List α) : Bool := c == [] || c == [dot]

/-- Where a component leads. -/
def resolveComponent (dot : α) (location : List (List α)) (c : List α) : List (List α) :=
  if stays dot c then location else if c = [dot, dot] then location.tail else c :: location

/-- The location of a path; a relative one starts from `base`. -/
def resolvePath (sep dot : α) (base : List (List α)) (p : List α) : List (List α) :=
  (components sep p).2.foldl (resolveComponent dot)
    (resolveComponent dot (if IsAbsolutePath sep p then [] else base) (components sep p).1)

section Components

variable {sep a : α} {p q w first : List α} {cs : List (List α)}

/-- A path is made of its components. -/
theorem components_eq (sep : α) (p : List α) : (components sep p).1 ++ slashed sep (components sep p).2 = p := by
  induction p with
  | nil => rfl
  | cons a p ih =>
    unfold components
    split_ifs with ha
    · rw [slashed_cons, ← List.append_assoc, List.nil_append, List.cons_append, ih, ha]
    · rw [List.cons_append, ih]

theorem not_mem_components (sep : α) (p : List α) :
    sep ∉ (components sep p).1 ∧ ∀ c ∈ (components sep p).2, sep ∉ c := by
  induction p with
  | nil => exact ⟨List.not_mem_nil, fun c hc => absurd hc List.not_mem_nil⟩
  | cons a p ih =>
    unfold components
    split_ifs with ha
    · exact ⟨List.not_mem_nil, List.forall_mem_cons.2 ih⟩
    · refine ⟨fun h => ?_, ih.2⟩
      rcases List.mem_cons.1 h with rfl | h
      · exact ha rfl
      · exact ih.1 h

/-- A separator divides the components. -/
theorem components_append_cons (p q : List α) :
    components sep (p ++ sep :: q) =
      ((components sep p).1, (components sep p).2 ++ (components sep q).1 :: (components sep q).2) := by
  induction p with
  | nil => simp [components]
  | cons a p ih =>
    rw [List.cons_append, components, components, ih]
    split_ifs <;> rfl

theorem components_of_not_mem (hp : sep ∉ p) : components sep p = (p, []) := by
  induction p with
  | nil => rfl
  | cons a p ih =>
    obtain ⟨ha, hp⟩ := not_or.1 fun h => hp (List.mem_cons.2 h)
    rw [components, if_neg (Ne.symm ha), ih hp]

/-- **The components of a path that is made of components.** -/
theorem components_slashed (hfirst : sep ∉ first) (hcs : ∀ c ∈ cs, sep ∉ c) :
    components sep (first ++ slashed sep cs) = (first, cs) := by
  induction cs generalizing first with
  | nil => rw [slashed_nil, List.append_nil, components_of_not_mem hfirst]
  | cons c cs ih =>
    obtain ⟨hc, hcs⟩ := List.forall_mem_cons.1 hcs
    rw [slashed_cons, List.cons_append, components_append_cons, components_of_not_mem hfirst, ih hc hcs, List.nil_append]

/-- What stands between two separators is a component, and not the last one. -/
theorem mem_dropLast_components (hw : sep ∉ w) (h : sep :: w ++ [sep] <:+: p) : w ∈ (components sep p).2.dropLast := by
  obtain ⟨a, b, rfl⟩ := h
  have hsplit : a ++ (sep :: w ++ [sep]) ++ b = a ++ sep :: (w ++ sep :: b) := by simp
  rw [hsplit, components_append_cons, components_append_cons, components_of_not_mem hw]
  simp [List.dropLast_append_of_ne_nil]

/-- An absolute path has an empty first component, and others. -/
theorem isAbsolutePath_iff (sep : α) (p : List α) :
    IsAbsolutePath sep p ↔ (components sep p).1 = [] ∧ (components sep p).2 ≠ [] := by
  unfold IsAbsolutePath
  rcases p with _ | ⟨a, p⟩
  · simp [components]
  · unfold components
    split_ifs with ha <;> simp [ha]

end Components

section Resolve

variable {dot : α} {c : List α} {cs : List (List α)} {location : List (List α)}

theorem resolveComponent_of_stays (h : stays dot c) (location : List (List α)) :
    resolveComponent dot location c = location := if_pos h

@[simp] theorem stays_parent (dot : α) : stays dot [dot, dot] = false := by simp [stays]

@[simp] theorem resolveComponent_parent (dot : α) (location : List (List α)) :
    resolveComponent dot location [dot, dot] = location.tail := by
  unfold resolveComponent
  rw [if_neg (by simp), if_pos rfl]

theorem resolveComponent_of_enters (hstays : ¬ stays dot c) (hparent : c ≠ [dot, dot]) (location : List (List α)) :
    resolveComponent dot location c = c :: location := by
  unfold resolveComponent
  rw [if_neg hstays, if_neg hparent]

/-- Components that stay where they are can be left out. -/
theorem foldl_resolveComponent_filter (dot : α) (location : List (List α)) (cs : List (List α)) :
    (cs.filter fun c => !stays dot c).foldl (resolveComponent dot) location =
      cs.foldl (resolveComponent dot) location := by
  induction cs generalizing location with
  | nil => rfl
  | cons c cs ih =>
    by_cases h : stays dot c
    · rw [List.filter_cons_of_neg (by simpa using h), List.foldl_cons, resolveComponent_of_stays h, ih]
    · rw [List.filter_cons_of_pos (by simpa using h), List.foldl_cons, List.foldl_cons, ih]

/-- Directories that are entered one after the other. -/
theorem foldl_resolveComponent_of_enters (h : ∀ c ∈ cs, ¬ stays dot c ∧ c ≠ [dot, dot]) (location : List (List α)) :
    cs.foldl (resolveComponent dot) location = cs.reverse ++ location := by
  induction cs generalizing location with
  | nil => rfl
  | cons c cs ih =>
    obtain ⟨hc, hcs⟩ := List.forall_mem_cons.1 h
    rw [List.foldl_cons, resolveComponent_of_enters hc.1 hc.2, ih hcs]
    simp

end Resolve

/-! ### Directories entered and left -/

section Depth

variable {dot : α} {first c : List α} {cs ds : List (List α)} {n : ℕ}

/-- At no time have more directories been left than entered, `n` of them before. -/
def StaysBelow (dot : α) (n : ℕ) (cs : List (List α)) : Prop :=
  ∀ pre, pre <+: cs → pre.count [dot, dot] ≤ n + pre.countP (· ≠ [dot, dot])

theorem staysBelow_nil (dot : α) (n : ℕ) : StaysBelow dot n [] := by
  intro pre hpre
  rw [List.prefix_nil.1 hpre]
  exact Nat.zero_le _

theorem staysBelow_cons_parent : StaysBelow dot n ([dot, dot] :: cs) ↔ 0 < n ∧ StaysBelow dot (n - 1) cs := by
  have hcount : ∀ pre : List (List α), ([dot, dot] :: pre).count [dot, dot] ≤
      n + ([dot, dot] :: pre).countP (· ≠ [dot, dot]) ↔
      pre.count [dot, dot] + 1 ≤ n + pre.countP (· ≠ [dot, dot]) := by
    intro pre
    rw [List.count_cons_self, List.countP_cons_of_neg (by simp)]
  constructor
  · intro h
    have hpos : 0 < n := by
      have hone := (hcount []).1 (h _ (List.prefix_append [[dot, dot]] cs))
      exact hone
    refine ⟨hpos, fun pre hpre => ?_⟩
    have hle := (hcount pre).1 (h _ (List.cons_prefix_cons.2 ⟨rfl, hpre⟩))
    omega
  · rintro ⟨hpos, h⟩ pre hpre
    rcases List.prefix_cons_iff.1 hpre with rfl | ⟨pre, rfl, htail⟩
    · exact Nat.zero_le _
    · have hle := h pre htail
      exact (hcount pre).2 (by omega)

theorem staysBelow_cons_of_ne (hc : c ≠ [dot, dot]) : StaysBelow dot n (c :: cs) ↔ StaysBelow dot (n + 1) cs := by
  have hcount : ∀ pre : List (List α), (c :: pre).count [dot, dot] ≤ n + (c :: pre).countP (· ≠ [dot, dot]) ↔
      pre.count [dot, dot] ≤ n + 1 + pre.countP (· ≠ [dot, dot]) := by
    intro pre
    rw [List.count_cons_of_ne hc, List.countP_cons_of_pos (by simpa using hc), Nat.add_assoc, Nat.add_comm 1]
  constructor
  · exact fun h pre hpre => (hcount pre).1 (h _ (List.cons_prefix_cons.2 ⟨rfl, hpre⟩))
  · intro h pre hpre
    rcases List.prefix_cons_iff.1 hpre with rfl | ⟨pre, rfl, htail⟩
    · exact Nat.zero_le _
    · exact (hcount pre).2 (h pre htail)

/-- A stack of components, the first one below it: a parent takes the top away, or the first one. -/
def stackStep (dot : α) (state : List α × List (List α)) (c : List α) : List α × List (List α) :=
  if c = [dot, dot] then
    match state.2 with
    | [] => ([], [])
    | _ :: ds => (state.1, ds)
  else (state.1, c :: state.2)

theorem stackStep_of_ne (hc : c ≠ [dot, dot]) : stackStep dot (first, ds) c = (first, c :: ds) := if_neg hc

@[simp] theorem stackStep_parent_nil : stackStep dot (first, []) [dot, dot] = ([], []) := if_pos rfl

@[simp] theorem stackStep_parent_cons : stackStep dot (first, c :: ds) [dot, dot] = (first, ds) := if_pos rfl

/-- An empty first component is never lost. -/
theorem foldl_stackStep_nil (dot : α) (cs ds : List (List α)) : (cs.foldl (stackStep dot) ([], ds)).1 = [] := by
  induction cs generalizing ds with
  | nil => rfl
  | cons c cs ih =>
    rw [List.foldl_cons]
    by_cases hc : c = [dot, dot]
    · subst hc
      cases ds with
      | nil => rw [stackStep_parent_nil, ih]
      | cons d ds => rw [stackStep_parent_cons, ih]
    · rw [stackStep_of_ne hc, ih]

/-- The first component stays, or is lost. -/
theorem foldl_stackStep_first (dot : α) (first : List α) (cs ds : List (List α)) :
    (cs.foldl (stackStep dot) (first, ds)).1 = first ∨ (cs.foldl (stackStep dot) (first, ds)).1 = [] := by
  induction cs generalizing ds with
  | nil => exact .inl rfl
  | cons c cs ih =>
    rw [List.foldl_cons]
    by_cases hc : c = [dot, dot]
    · subst hc
      cases ds with
      | nil =>
        rw [stackStep_parent_nil]
        exact .inr (foldl_stackStep_nil dot cs [])
      | cons d ds =>
        rw [stackStep_parent_cons]
        exact ih ds
    · rw [stackStep_of_ne hc]
      exact ih _

/-- **The first component is lost** where more directories are left than were entered. -/
theorem foldl_stackStep_lost (h : ¬ StaysBelow dot ds.length cs) : (cs.foldl (stackStep dot) (first, ds)).1 = [] := by
  induction cs generalizing ds with
  | nil => exact absurd (staysBelow_nil dot _) h
  | cons c cs ih =>
    rw [List.foldl_cons]
    by_cases hc : c = [dot, dot]
    · subst hc
      rw [staysBelow_cons_parent] at h
      cases ds with
      | nil =>
        rw [stackStep_parent_nil]
        exact foldl_stackStep_nil dot cs []
      | cons d ds =>
        rw [stackStep_parent_cons]
        exact ih fun hbelow => h ⟨Nat.succ_pos _, hbelow⟩
    · rw [stackStep_of_ne hc]
      exact ih fun hbelow => h ((staysBelow_cons_of_ne hc).2 hbelow)

/-- Without a parent every component is put on the stack. -/
theorem foldl_stackStep_of_ne (hcs : ∀ c ∈ cs, c ≠ [dot, dot]) :
    cs.foldl (stackStep dot) (first, ds) = (first, cs.reverse ++ ds) := by
  induction cs generalizing ds with
  | nil => rfl
  | cons c cs ih =>
    obtain ⟨hc, htail⟩ := List.forall_mem_cons.1 hcs
    rw [List.foldl_cons, stackStep_of_ne hc, ih htail, List.reverse_cons, List.append_assoc]
    rfl

/-- **The stack is the location** relative to the first component, as long as that is there, or at the root. -/
theorem foldl_stackStep_kept (hcs : ∀ c ∈ cs, ¬ stays dot c) (h : first = [] ∨ StaysBelow dot ds.length cs) :
    ∃ ds', cs.foldl (stackStep dot) (first, ds) = (first, ds') ∧
      ∀ location, (first = [] → location = []) →
        cs.foldl (resolveComponent dot) (ds ++ location) = ds' ++ location := by
  induction cs generalizing ds with
  | nil => exact ⟨ds, rfl, fun _ _ => rfl⟩
  | cons c cs ih =>
    obtain ⟨hc, htail⟩ := List.forall_mem_cons.1 hcs
    by_cases hparent : c = [dot, dot]
    · subst hparent
      rw [staysBelow_cons_parent] at h
      simp only [List.foldl_cons, resolveComponent_parent]
      cases ds with
      | nil =>
        -- the root is its own parent
        have hfirst : first = [] := h.resolve_right fun h => absurd h.1 (Nat.lt_irrefl 0)
        subst hfirst
        obtain ⟨ds', hfold, hlocation⟩ := @ih [] htail (.inl rfl)
        refine ⟨ds', by rw [stackStep_parent_nil, hfold], fun location hnil => ?_⟩
        obtain rfl := hnil rfl
        exact hlocation [] fun _ => rfl
      | cons d ds =>
        obtain ⟨ds', hfold, hlocation⟩ := ih htail (h.imp_right fun h => h.2)
        exact ⟨ds', by rw [stackStep_parent_cons, hfold], hlocation⟩
    · rw [staysBelow_cons_of_ne hparent] at h
      obtain ⟨ds', hfold, hlocation⟩ := @ih (c :: ds) htail h
      refine ⟨ds', by rw [List.foldl_cons, stackStep_of_ne hparent, hfold], fun location hnil => ?_⟩
      rw [List.foldl_cons, resolveComponent_of_enters hc hparent]
      exact hlocation location hnil

/-- What stands on the stack was put there. -/
theorem mem_foldl_stackStep (hds : ∀ d ∈ ds, d ≠ [dot, dot]) (h : c ∈ (cs.foldl (stackStep dot) (first, ds)).2) :
    (c ∈ ds ∨ c ∈ cs) ∧ c ≠ [dot, dot] := by
  induction cs generalizing first ds with
  | nil => exact ⟨.inl h, hds c h⟩
  | cons d cs ih =>
    rw [List.foldl_cons] at h
    by_cases hd : d = [dot, dot]
    · subst hd
      cases ds with
      | nil =>
        rw [stackStep_parent_nil] at h
        obtain ⟨hmem, hne⟩ := ih (fun d hd => absurd hd List.not_mem_nil) h
        exact ⟨.inr (List.mem_cons_of_mem _ (hmem.resolve_left List.not_mem_nil)), hne⟩
      | cons d ds =>
        rw [stackStep_parent_cons] at h
        obtain ⟨hmem, hne⟩ := ih (fun e he => hds e (List.mem_cons_of_mem _ he)) h
        exact ⟨hmem.imp (List.mem_cons_of_mem _) (List.mem_cons_of_mem _), hne⟩
    · rw [stackStep_of_ne hd] at h
      obtain ⟨hmem, hne⟩ := ih (List.forall_mem_cons.2 ⟨hd, hds⟩) h
      refine ⟨?_, hne⟩
      rcases hmem with hmem | hmem
      · rcases List.mem_cons.1 hmem with rfl | hmem
        · exact .inr List.mem_cons_self
        · exact .inl hmem
      · exact .inr (List.mem_cons_of_mem _ hmem)

end Depth

end VulkanLoader.Lib
