import VulkanLoader.Handles.DebugCallbacks
import Mathlib.Order.WellFounded

/-!
# The flags of debug messages (`debug_utils_ReportFlagsToAnnotFlags`, `debug_utils_AnnotFlagsToReportFlags`)

A messenger looks at the severity and the type of a message, a report callback at its flags; a message of one kind is
translated for the callbacks of the other.  Who accepts a message and what it is given is told by a relation,
`DebugMessage.Receives`, on the flags that masks share.
-/

namespace VulkanLoader

/-! ### Flags -/

/-- `VkDebugUtilsMessageSeverityFlagBitsEXT`. -/
def severityVerboseBit : ℕ := 0x1
def severityInfoBit : ℕ := 0x10
def severityWarningBit : ℕ := 0x100
def severityErrorBit : ℕ := 0x1000

/-- `VkDebugUtilsMessageTypeFlagBitsEXT`. -/
def typeGeneralBit : ℕ := 0x1
def typeValidationBit : ℕ := 0x2
def typePerformanceBit : ℕ := 0x4

/-- `VkDebugReportFlagBitsEXT`. -/
def reportInformationBit : ℕ := 0x1
def reportWarningBit : ℕ := 0x2
def reportPerformanceWarningBit : ℕ := 0x4
def reportErrorBit : ℕ := 0x8
def reportDebugBit : ℕ := 0x10

/-- `debug_utils_ReportFlagsToAnnotFlags`: the severity and the type. -/
def debugUtilsReportFlagsToAnnotFlags (drFlags : ℕ) (defaultFlagIsSpec : Bool) : ℕ × ℕ :=
  let (daSeverity, daType, typeSet) :=
    if drFlags &&& reportInformationBit ≠ 0 then (severityInfoBit, typeGeneralBit, true)
    else if drFlags &&& (reportWarningBit ||| reportPerformanceWarningBit) ≠ 0 then (severityWarningBit, 0, false)
    else if drFlags &&& reportErrorBit ≠ 0 then (severityErrorBit, 0, false)
    else if drFlags &&& reportDebugBit ≠ 0 then (severityVerboseBit, typeGeneralBit, true)
    else (0, 0, false)
  if drFlags &&& reportPerformanceWarningBit ≠ 0 then (daSeverity, daType ||| typePerformanceBit)
  else if !typeSet then (daSeverity, daType ||| if defaultFlagIsSpec then typeValidationBit else typeGeneralBit)
  else (daSeverity, daType)

/-- `debug_utils_AnnotFlagsToReportFlags`. -/
def debugUtilsAnnotFlagsToReportFlags (daSeverity daType : ℕ) : ℕ :=
  if daSeverity &&& severityErrorBit ≠ 0 then reportErrorBit
  else if daSeverity &&& severityWarningBit ≠ 0 then
    if daType &&& typePerformanceBit ≠ 0 then reportPerformanceWarningBit else reportWarningBit
  else if daSeverity &&& severityInfoBit ≠ 0 then reportInformationBit
  else if daSeverity &&& severityVerboseBit ≠ 0 then reportDebugBit
  else 0

/-- A report flag on its own comes back from the translation. -/
theorem annotFlags_of_reportFlags {drFlags : ℕ} (defaultFlagIsSpec : Bool)
    (h : drFlags ∈ [reportInformationBit, reportWarningBit, reportPerformanceWarningBit, reportErrorBit, reportDebugBit]) :
    debugUtilsAnnotFlagsToReportFlags (debugUtilsReportFlagsToAnnotFlags drFlags defaultFlagIsSpec).1
      (debugUtilsReportFlagsToAnnotFlags drFlags defaultFlagIsSpec).2 = drFlags := by
  revert drFlags
  cases defaultFlagIsSpec <;> decide

/-! ### A message -/

/-- A call of a user's function, with the flags that it is given. -/
inductive CallbackCall where
  | messenger (pfnUserCallback messageSeverity messageTypes pUserData : ℕ)
  | report (pfnCallback flags pUserData : ℕ)
  deriving DecidableEq

/-- A message of either kind; a build with `VULKANSC` has no report callbacks. -/
inductive DebugMessage where
  | annot (vulkanSC : Bool) (messageSeverity messageTypes : ℕ)
  | report (msgFlags : ℕ)

namespace DebugMessage

/-- The severity and the types that a messenger is given. -/
def annotFlags : DebugMessage → ℕ × ℕ
  | annot _ messageSeverity messageTypes => (messageSeverity, messageTypes)
  | report msgFlags => debugUtilsReportFlagsToAnnotFlags msgFlags false

/-- The flags that a report callback is given. -/
def reportFlags : DebugMessage → ℕ
  | annot _ messageSeverity messageTypes => debugUtilsAnnotFlagsToReportFlags messageSeverity messageTypes
  | report msgFlags => msgFlags

/-- The build has report callbacks. -/
def hasReports : DebugMessage → Bool
  | annot vulkanSC .. => !vulkanSC
  | report _ => true

/-- The call of a callback that accepts the message. -/
def call (message : DebugMessage) : DebugCreateInfo → Option CallbackCall
  | .messenger pfnUserCallback messageSeverity messageType pUserData =>
    let (severity, types) := message.annotFlags
    if messageSeverity &&& severity ≠ 0 ∧ messageType &&& types ≠ 0 then
      some (.messenger pfnUserCallback severity types pUserData)
    else none
  | .report pfnCallback flags pUserData =>
    if message.hasReports ∧ flags &&& message.reportFlags ≠ 0 then
      some (.report pfnCallback message.reportFlags pUserData)
    else none

/-- The calls for a list of callbacks, and whether one of them returns true. -/
def answer (message : DebugMessage) (returns : ℕ → Bool) (callbacks : List (Handle × DebugCreateInfo)) :
    Bool × List CallbackCall :=
  let calls := callbacks.filterMap fun c => message.call c.2
  ((List.range calls.length).any returns, calls)

end DebugMessage

/-! ### Kinds of messages -/

/-- Two masks have a flag in common. -/
def ShareFlag (a b : ℕ) : Prop := ∃ i, a.testBit i = true ∧ b.testBit i = true

theorem and_ne_zero_iff {a b : ℕ} : a &&& b ≠ 0 ↔ ShareFlag a b := by
  constructor
  · intro h
    obtain ⟨i, hi⟩ := Nat.exists_testBit_of_ne_zero h
    rw [Nat.testBit_and, Bool.and_eq_true] at hi
    exact ⟨i, hi⟩
  · rintro ⟨i, ha, hb⟩ h
    have hi := Nat.testBit_and a b i
    rw [h, Nat.zero_testBit, ha, hb] at hi
    exact Bool.false_ne_true hi

theorem and_eq_zero_iff {a b : ℕ} : a &&& b = 0 ↔ ¬ ShareFlag a b := by
  rw [← and_ne_zero_iff, not_not]

instance (a b : ℕ) : Decidable (ShareFlag a b) := decidable_of_iff _ and_ne_zero_iff

theorem shareFlag_or {a b c : ℕ} : ShareFlag a (b ||| c) ↔ ShareFlag a b ∨ ShareFlag a c := by
  simp only [ShareFlag, Nat.testBit_or, Bool.or_eq_true, and_or_left, exists_or]

/-- The kinds of messages that both extensions know. -/
inductive MessageKind where
  | information | warning | performanceWarning | error | debug
  deriving DecidableEq

namespace MessageKind

def reportFlag : MessageKind → ℕ
  | information => reportInformationBit
  | warning => reportWarningBit
  | performanceWarning => reportPerformanceWarningBit
  | error => reportErrorBit
  | debug => reportDebugBit

def severity : MessageKind → ℕ
  | information => severityInfoBit
  | warning | performanceWarning => severityWarningBit
  | error => severityErrorBit
  | debug => severityVerboseBit

theorem forall_iff {P : MessageKind → Prop} :
    (∀ k, P k) ↔ P information ∧ P warning ∧ P performanceWarning ∧ P error ∧ P debug := by
  constructor
  · intro h
    exact ⟨h _, h _, h _, h _, h _⟩
  · rintro ⟨hinfo, hwarning, hperformance, herror, hdebug⟩ k
    cases k <;> assumption

end MessageKind

/-- The kind of a report is that of its first flag. -/
def ReportKind (msgFlags : ℕ) (kind : MessageKind) : Prop :=
  ShareFlag msgFlags kind.reportFlag ∧ ∀ k : MessageKind, ShareFlag msgFlags k.reportFlag → kind.reportFlag ≤ k.reportFlag

/-- The types of a report: performance if it has that flag, and general if it is an information or has no other. -/
inductive ReportTypes (msgFlags : ℕ) : ℕ → Prop
  | general (h : ¬ ShareFlag msgFlags reportPerformanceWarningBit) : ReportTypes msgFlags typeGeneralBit
  | performance (h : ShareFlag msgFlags reportPerformanceWarningBit)
      (hinfo : ¬ ShareFlag msgFlags reportInformationBit) : ReportTypes msgFlags typePerformanceBit
  | both (h : ShareFlag msgFlags reportPerformanceWarningBit) (hinfo : ShareFlag msgFlags reportInformationBit) :
      ReportTypes msgFlags (typeGeneralBit ||| typePerformanceBit)

/-- The kind of a message is that of its highest severity; its types tell the two kinds of warnings apart. -/
def AnnotKind (messageSeverity messageTypes : ℕ) (kind : MessageKind) : Prop :=
  ShareFlag messageSeverity kind.severity ∧
    (∀ k : MessageKind, ShareFlag messageSeverity k.severity → k.severity ≤ kind.severity) ∧
    (kind.severity = severityWarningBit → (kind = .performanceWarning ↔ ShareFlag messageTypes typePerformanceBit))

section Translation

variable {msgFlags severity types : ℕ} {kind : MessageKind}

/-- The first flag of a report decides its severity. -/
theorem severity_of_reportKind (h : ReportKind msgFlags kind) :
    (debugUtilsReportFlagsToAnnotFlags msgFlags false).1 = kind.severity := by
  have hnot : ∀ k : MessageKind, k.reportFlag < kind.reportFlag → ¬ ShareFlag msgFlags k.reportFlag :=
    fun k hk hk' => absurd (h.2 k hk') (Nat.not_le_of_lt hk)
  unfold debugUtilsReportFlagsToAnnotFlags
  cases kind with
  | information =>
    have hflag : ShareFlag msgFlags reportInformationBit := h.1
    simp [and_eq_zero_iff, apply_ite Prod.fst, hflag, MessageKind.severity]
  | warning =>
    have hflag : ShareFlag msgFlags reportWarningBit := h.1
    have hinfo : ¬ ShareFlag msgFlags reportInformationBit := hnot .information (by decide)
    simp [and_eq_zero_iff, shareFlag_or, apply_ite Prod.fst, hflag, hinfo, MessageKind.severity]
  | performanceWarning =>
    have hflag : ShareFlag msgFlags reportPerformanceWarningBit := h.1
    have hinfo : ¬ ShareFlag msgFlags reportInformationBit := hnot .information (by decide)
    simp [and_eq_zero_iff, shareFlag_or, hflag, hinfo, MessageKind.severity]
  | error =>
    have hflag : ShareFlag msgFlags reportErrorBit := h.1
    have hinfo : ¬ ShareFlag msgFlags reportInformationBit := hnot .information (by decide)
    have hwarning : ¬ ShareFlag msgFlags reportWarningBit := hnot .warning (by decide)
    have hperformance : ¬ ShareFlag msgFlags reportPerformanceWarningBit := hnot .performanceWarning (by decide)
    simp [and_eq_zero_iff, shareFlag_or, hflag, hinfo, hwarning, hperformance, MessageKind.severity]
  | debug =>
    have hflag : ShareFlag msgFlags reportDebugBit := h.1
    have hinfo : ¬ ShareFlag msgFlags reportInformationBit := hnot .information (by decide)
    have hwarning : ¬ ShareFlag msgFlags reportWarningBit := hnot .warning (by decide)
    have hperformance : ¬ ShareFlag msgFlags reportPerformanceWarningBit := hnot .performanceWarning (by decide)
    have herror : ¬ ShareFlag msgFlags reportErrorBit := hnot .error (by decide)
    simp [and_eq_zero_iff, shareFlag_or, hflag, hinfo, hwarning, hperformance, herror, MessageKind.severity]

/-- A report without flags has no severity. -/
theorem severity_of_no_reportKind (h : ∀ kind, ¬ ReportKind msgFlags kind) :
    (debugUtilsReportFlagsToAnnotFlags msgFlags false).1 = 0 := by
  have hnot : ∀ k : MessageKind, ¬ ShareFlag msgFlags k.reportFlag := by
    intro k hk
    obtain ⟨kind, hkind, hfirst⟩ := (measure MessageKind.reportFlag).wf.has_min
      {k | ShareFlag msgFlags k.reportFlag} ⟨k, hk⟩
    exact h kind ⟨hkind, fun k' hk' => Nat.le_of_not_lt (hfirst k' hk')⟩
  simp only [MessageKind.forall_iff, MessageKind.reportFlag] at hnot
  unfold debugUtilsReportFlagsToAnnotFlags
  simp [and_eq_zero_iff, shareFlag_or, hnot]

/-- The types of a report. -/
theorem types_of_report : ReportTypes msgFlags (debugUtilsReportFlagsToAnnotFlags msgFlags false).2 := by
  unfold debugUtilsReportFlagsToAnnotFlags
  by_cases hp : ShareFlag msgFlags reportPerformanceWarningBit <;>
    by_cases hi : ShareFlag msgFlags reportInformationBit
  · simpa [and_eq_zero_iff, shareFlag_or, hp, hi] using ReportTypes.both hp hi
  · simpa [and_eq_zero_iff, shareFlag_or, hp, hi] using ReportTypes.performance hp hi
  · simpa [and_eq_zero_iff, shareFlag_or, hp, hi] using ReportTypes.general hp
  · have hgeneral := ReportTypes.general hp
    by_cases hw : ShareFlag msgFlags reportWarningBit
    · simpa [and_eq_zero_iff, shareFlag_or, hp, hi, hw] using hgeneral
    by_cases he : ShareFlag msgFlags reportErrorBit
    · simpa [and_eq_zero_iff, shareFlag_or, hp, hi, hw, he] using hgeneral
    by_cases hd : ShareFlag msgFlags reportDebugBit <;>
      simpa [and_eq_zero_iff, shareFlag_or, hp, hi, hw, he, hd] using hgeneral

theorem ReportTypes.unique {types' : ℕ} (h : ReportTypes msgFlags types) (h' : ReportTypes msgFlags types') :
    types = types' := by
  cases h <;> cases h' <;> first | rfl | contradiction

/-- The kind of a message decides the flag of its report. -/
theorem reportFlag_of_annotKind (h : AnnotKind severity types kind) :
    debugUtilsAnnotFlagsToReportFlags severity types = kind.reportFlag := by
  obtain ⟨hseverity, hhighest, htype⟩ := h
  have hnot : ∀ k : MessageKind, kind.severity < k.severity → ¬ ShareFlag severity k.severity :=
    fun k hk hk' => absurd (hhighest k hk') (Nat.not_le_of_lt hk)
  unfold debugUtilsAnnotFlagsToReportFlags
  simp only [and_ne_zero_iff]
  cases kind with
  | error => exact if_pos hseverity
  | warning =>
    have herror := hnot .error (by decide)
    have hperformance : ¬ ShareFlag types typePerformanceBit := fun h => absurd ((htype rfl).2 h) (by decide)
    exact ((if_neg herror).trans (if_pos hseverity)).trans (if_neg hperformance)
  | performanceWarning =>
    have herror := hnot .error (by decide)
    exact ((if_neg herror).trans (if_pos hseverity)).trans (if_pos ((htype rfl).1 rfl))
  | information =>
    have herror := hnot .error (by decide)
    have hwarning := hnot .warning (by decide)
    exact ((if_neg herror).trans (if_neg hwarning)).trans (if_pos hseverity)
  | debug =>
    have herror := hnot .error (by decide)
    have hwarning := hnot .warning (by decide)
    have hinfo := hnot .information (by decide)
    exact (((if_neg herror).trans (if_neg hwarning)).trans (if_neg hinfo)).trans (if_pos hseverity)

theorem ShareFlag.exists_annotKind {k : MessageKind} (h : ShareFlag severity k.severity) (types : ℕ) :
    ∃ kind, AnnotKind severity types kind := by
  obtain ⟨kind, hkind, hlast⟩ := (measure fun k : MessageKind => severityErrorBit - k.severity).wf.has_min
    {k | ShareFlag severity k.severity} ⟨k, h⟩
  have hhighest : ∀ k : MessageKind, ShareFlag severity k.severity → k.severity ≤ kind.severity := by
    intro k hk
    have hle : k.severity ≤ severityErrorBit := by cases k <;> decide
    have hlast := hlast k hk
    simp only [InvImage, WellFoundedRelation.rel] at hlast
    omega
  by_cases hwarning : kind.severity = severityWarningBit
  · replace hkind : ShareFlag severity severityWarningBit := hwarning ▸ hkind
    rw [hwarning] at hhighest
    by_cases htype : ShareFlag types typePerformanceBit
    · exact ⟨.performanceWarning, hkind, hhighest, fun _ => iff_of_true rfl htype⟩
    · exact ⟨.warning, hkind, hhighest, fun _ => iff_of_false (by decide) htype⟩
  · exact ⟨kind, hkind, hhighest, fun h => absurd h hwarning⟩

/-- A message without a severity has no flag. -/
theorem reportFlag_of_no_annotKind (h : ∀ kind, ¬ AnnotKind severity types kind) :
    debugUtilsAnnotFlagsToReportFlags severity types = 0 := by
  have hnot : ∀ k : MessageKind, ¬ ShareFlag severity k.severity := by
    intro k hk
    obtain ⟨kind, hkind⟩ := hk.exists_annotKind types
    exact h kind hkind
  simp only [MessageKind.forall_iff, MessageKind.severity] at hnot
  simp [debugUtilsAnnotFlagsToReportFlags, and_eq_zero_iff, hnot]

end Translation

/-! ### Who accepts a message -/

namespace DebugMessage

variable {message : DebugMessage} {callback : DebugCreateInfo} {c : CallbackCall}

/-- **A callback receives a message**: each of its masks shares a flag with the message, as the callbacks of its kind
know the message, and this is what it is given. -/
inductive Receives : DebugMessage → DebugCreateInfo → CallbackCall → Prop
  | annotMessenger {vulkanSC : Bool} {severity types pfn messageSeverity messageType pUserData : ℕ}
      (hseverity : ShareFlag messageSeverity severity) (htype : ShareFlag messageType types) :
      Receives (.annot vulkanSC severity types) (.messenger pfn messageSeverity messageType pUserData)
        (.messenger pfn severity types pUserData)
  | reportMessenger {msgFlags types pfn messageSeverity messageType pUserData : ℕ} {kind : MessageKind}
      (hkind : ReportKind msgFlags kind) (htypes : ReportTypes msgFlags types)
      (hseverity : ShareFlag messageSeverity kind.severity) (htype : ShareFlag messageType types) :
      Receives (.report msgFlags) (.messenger pfn messageSeverity messageType pUserData)
        (.messenger pfn kind.severity types pUserData)
  | annotReport {severity types pfn flags pUserData : ℕ} {kind : MessageKind} (hkind : AnnotKind severity types kind)
      (hflag : ShareFlag flags kind.reportFlag) :
      Receives (.annot false severity types) (.report pfn flags pUserData) (.report pfn kind.reportFlag pUserData)
  | reportReport {msgFlags pfn flags pUserData : ℕ} (hflag : ShareFlag flags msgFlags) :
      Receives (.report msgFlags) (.report pfn flags pUserData) (.report pfn msgFlags pUserData)

theorem receives_of_call (h : message.call callback = some c) : message.Receives callback c := by
  unfold call at h
  cases callback with
  | messenger pfn messageSeverity messageType pUserData =>
    obtain ⟨⟨hseverity, htype⟩, hc⟩ := Option.ite_none_right_eq_some.1 h
    obtain rfl := Option.some.inj hc
    rw [and_ne_zero_iff] at hseverity htype
    cases message with
    | annot vulkanSC severity types => exact .annotMessenger hseverity htype
    | report msgFlags =>
      by_cases hkind : ∃ kind, ReportKind msgFlags kind
      · obtain ⟨kind, hkind⟩ := hkind
        have heq := severity_of_reportKind hkind
        simp only [heq] at hseverity ⊢
        exact .reportMessenger hkind types_of_report hseverity htype
      · have heq := severity_of_no_reportKind (not_exists.1 hkind)
        simp only [heq] at hseverity
        exact absurd hseverity (by simp [ShareFlag])
  | report pfn flags pUserData =>
    obtain ⟨⟨hreports, hflag⟩, hc⟩ := Option.ite_none_right_eq_some.1 h
    obtain rfl := Option.some.inj hc
    rw [and_ne_zero_iff] at hflag
    cases message with
    | annot vulkanSC severity types =>
      obtain rfl : vulkanSC = false := by simpa [hasReports] using hreports
      by_cases hkind : ∃ kind, AnnotKind severity types kind
      · obtain ⟨kind, hkind⟩ := hkind
        have heq := reportFlag_of_annotKind hkind
        simp only [reportFlags, heq] at hflag ⊢
        exact .annotReport hkind hflag
      · have heq := reportFlag_of_no_annotKind (not_exists.1 hkind)
        simp only [reportFlags, heq] at hflag
        exact absurd hflag (by simp [ShareFlag])
    | report msgFlags => exact .reportReport hflag

theorem call_of_receives (h : message.Receives callback c) : message.call callback = some c := by
  cases h with
  | annotMessenger hseverity htype => exact if_pos ⟨and_ne_zero_iff.2 hseverity, and_ne_zero_iff.2 htype⟩
  | reportMessenger hkind htypes hseverity htype =>
    rw [htypes.unique types_of_report] at htype ⊢
    rw [← severity_of_reportKind hkind] at hseverity ⊢
    exact if_pos ⟨and_ne_zero_iff.2 hseverity, and_ne_zero_iff.2 htype⟩
  | annotReport hkind hflag =>
    rw [← reportFlag_of_annotKind hkind] at hflag ⊢
    exact if_pos ⟨rfl, and_ne_zero_iff.2 hflag⟩
  | reportReport hflag => exact if_pos ⟨rfl, and_ne_zero_iff.2 hflag⟩

/-- **The test of the loop** finds who receives the message, and what of it. -/
theorem call_eq_some_iff : message.call callback = some c ↔ message.Receives callback c :=
  ⟨receives_of_call, call_of_receives⟩

/-- A message goes along a list of callbacks: one that receives it is called, the others are passed over. -/
inductive Delivered (message : DebugMessage) : List (Handle × DebugCreateInfo) → List CallbackCall → Prop
  | nil : Delivered message [] []
  | called {handle : Handle} {callback : DebugCreateInfo} {c : CallbackCall}
      {callbacks : List (Handle × DebugCreateInfo)} {calls : List CallbackCall} (hc : message.Receives callback c)
      (h : Delivered message callbacks calls) : Delivered message ((handle, callback) :: callbacks) (c :: calls)
  | passed {handle : Handle} {callback : DebugCreateInfo} {callbacks : List (Handle × DebugCreateInfo)}
      {calls : List CallbackCall} (hc : ∀ c, ¬ message.Receives callback c) (h : Delivered message callbacks calls) :
      Delivered message ((handle, callback) :: callbacks) calls

theorem delivered_filterMap (message : DebugMessage) (callbacks : List (Handle × DebugCreateInfo)) :
    message.Delivered callbacks (callbacks.filterMap fun c => message.call c.2) := by
  induction callbacks with
  | nil => exact .nil
  | cons entry callbacks ih =>
    obtain ⟨handle, callback⟩ := entry
    rcases hcall : message.call callback with _ | c
    · rw [List.filterMap_cons_none (f := fun c : Handle × DebugCreateInfo => message.call c.2) hcall]
      refine .passed (fun c hc => ?_) ih
      rw [call_eq_some_iff.2 hc] at hcall
      exact Option.some_ne_none c hcall
    · rw [List.filterMap_cons_some (f := fun c : Handle × DebugCreateInfo => message.call c.2) hcall]
      exact .called (call_eq_some_iff.1 hcall) ih

/-- **What a message comes to** on a list of callbacks: those that receive it are called in the order of the list, and
the answer is true if one of them returns true. -/
structure Answered (message : DebugMessage) (returns : ℕ → Bool) (callbacks : List (Handle × DebugCreateInfo))
    (out : Bool × List CallbackCall) : Prop where
  calls : message.Delivered callbacks out.2
  bail : out.1 = true ↔ ∃ i < out.2.length, returns i = true

theorem answered_answer (message : DebugMessage) (returns : ℕ → Bool) (callbacks : List (Handle × DebugCreateInfo)) :
    message.Answered returns callbacks (message.answer returns callbacks) where
  calls := delivered_filterMap message callbacks
  bail := by simp [answer]

end DebugMessage

end VulkanLoader
