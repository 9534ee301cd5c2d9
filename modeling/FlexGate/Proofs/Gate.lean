import FlexGate.Pipeline
import FlexGate.Proofs.Loop.Agreement

/-!
# The gate before the executor

The gate judges one text, the source or its mended form (`judged`), and everything that leaves the
gate is about that text: the report, the request to the executor and the outcome (`gate_eq`). To
count the calls of an executor it is run with a list of the requests that it was given
(`recording`), which changes nothing else (`gate_recording`).

Mending leaves no critical loop behind, so the report on the judged text has none if mending was
asked for (`hasCriticalLoop_judged`).
-/

set_option autoImplicit false
set_option relaxedAutoImplicit false

namespace FlexGate.Pipeline

/-- The text that is judged: the mended source if mending is wanted and the report on the source
has a critical loop, else the source. -/
def judged (options : AnalysisOptions) (autoFix : Bool) (source : String) : String :=
  if autoFix && (Report.ofSource options source).hasCriticalLoop then Repair.mended source
  else source

theorem examine_eq (options : AnalysisOptions) (autoFix : Bool) (source : String) :
    examine options autoFix source =
      (judged options autoFix source, Report.ofSource options (judged options autoFix source)) := by
  simp only [examine, judged]
  split <;> rfl

theorem hasCriticalLoop_judged (options : AnalysisOptions) (source : String) :
    (Report.ofSource options (judged options true source)).hasCriticalLoop = false := by
  rw [judged, Bool.true_and]
  split
  case isTrue => exact hasCriticalLoop_ofSource_eq_false_iff.mpr (isLoopSafe_mended source)
  case isFalse h => exact Bool.eq_false_iff.mpr h

section Gate

variable {σ : Type} (execute : RunRequest → σ → σ × Except Failure RunResult)
  (options : AnalysisOptions) (autoFix : Bool) (template : RunRequest) (source : String)

/-- The gate rejects the judged text, or asks for it to be run and answers with its report. -/
theorem gate_eq (s : σ) :
    gate execute options autoFix template source s =
      let text := judged options autoFix source
      let report := Report.ofSource options text
      if report.findings = [] then
        (execute (template.withSource text) s).map id fun answer ↦
          answer.map (.executed report text)
      else (s, .ok (.rejected report text)) := by
  rw [gate, examine_eq]
  dsimp only
  generalize Report.ofSource options (judged options autoFix source) = report
  by_cases h : report.findings = []
  · have hacceptable : report.isAcceptable = true := List.isEmpty_iff.mpr h
    have hpass : (!report.isAcceptable || report.hasCriticalLoop) = false := by
      rw [hacceptable, Report.hasCriticalLoop_eq_false_of_isAcceptable hacceptable]
      rfl
    rw [hpass, if_neg Bool.false_ne_true, if_pos h]
    generalize execute _ s = answered
    obtain ⟨t, failure | result⟩ := answered <;> rfl
  · have hacceptable : report.isAcceptable = false :=
      Bool.eq_false_iff.mpr fun hacceptable ↦ h (List.isEmpty_iff.mp hacceptable)
    rw [hacceptable, if_neg h]
    rfl

/-- An executor that notes each request that it is given. -/
def recording (request : RunRequest) (s : σ × List RunRequest) :
    (σ × List RunRequest) × Except Failure RunResult :=
  let (t, answer) := execute request s.1
  ((t, s.2 ++ [request]), answer)

/-- The requests that the gate makes of an executor. -/
def calls (s : σ) : List RunRequest :=
  (gate (recording execute) options autoFix template source (s, [])).1.2

theorem calls_eq (s : σ) :
    calls execute options autoFix template source s =
      let text := judged options autoFix source
      if (Report.ofSource options text).findings = [] then [template.withSource text] else [] := by
  rw [calls, gate_eq]
  dsimp only
  split <;> rfl

/-- To note the requests changes neither the answer nor the state of the executor. -/
theorem gate_recording (s : σ) :
    gate (recording execute) options autoFix template source (s, []) =
      let (t, answer) := gate execute options autoFix template source s
      ((t, calls execute options autoFix template source s), answer) := by
  rw [calls_eq, gate_eq, gate_eq]
  dsimp only
  split <;> rfl

theorem exists_rejected_iff (s : σ) :
    (∃ report text, (gate execute options autoFix template source s).2 =
        .ok (.rejected report text)) ↔
      calls execute options autoFix template source s = [] := by
  rw [calls_eq, gate_eq]
  dsimp only
  split
  case isTrue =>
    generalize execute _ s = answered
    obtain ⟨t, failure | result⟩ := answered <;> simp [Except.map]
  case isFalse => simp

theorem outcome_is_about_judged {s : σ} {outcome : Outcome}
    (h : (gate execute options autoFix template source s).2 = .ok outcome) :
    outcome.report = Report.ofSource options (judged options autoFix source) ∧
      outcome.source = judged options autoFix source := by
  rw [gate_eq] at h
  dsimp only at h
  split at h
  case isTrue =>
    generalize execute _ s = answered at h
    obtain ⟨t, failure | result⟩ := answered
    · cases h
    · cases h
      exact ⟨rfl, rfl⟩
  case isFalse =>
    cases h
    exact ⟨rfl, rfl⟩

/-- The gate validates, then executes. An executor is called just when the judged text has no
finding, once, with the template's request for that text; the source is rejected just when no call
is made; and what is answered is about the judged text. The executor is not disturbed by being
watched, and `run` is the gate before the executor of the program. -/
theorem gate_validates_then_executes (s : σ) :
    let text := judged options autoFix source
    let made := calls execute options autoFix template source s
    let answer := (gate execute options autoFix template source s).2
    (made ≠ [] ↔ (Report.ofSource options text).findings = []) ∧
    made.length ≤ 1 ∧
    (∀ request ∈ made, request.source = text ∧ request.fileName = template.fileName ∧
      request.keep = template.keep ∧ request.timeoutSecs = template.timeoutSecs) ∧
    ((∃ report rejected, answer = .ok (.rejected report rejected)) ↔ made = []) ∧
    (∀ outcome, answer = .ok outcome →
      outcome.report = Report.ofSource options text ∧ outcome.source = text) ∧
    (gate (recording execute) options autoFix template source (s, [])).2 = answer ∧
    (∀ (τ : Type) (m : Machine τ) (settings : Settings),
      run m settings options autoFix template source =
        gate (Executor.execute m settings) options autoFix template source) := by
  refine ⟨?_, ?_, ?_, exists_rejected_iff execute options autoFix template source s,
    fun outcome ↦ outcome_is_about_judged execute options autoFix template source, ?_,
    fun τ m settings ↦ rfl⟩
  · rw [calls_eq]
    dsimp only
    split <;> simp [*]
  · rw [calls_eq]
    dsimp only
    split <;> simp
  · intro request hrequest
    rw [calls_eq] at hrequest
    dsimp only at hrequest
    split at hrequest
    · rw [List.mem_singleton.mp hrequest]
      exact ⟨rfl, rfl, rfl, rfl⟩
    · simp at hrequest
  · rw [gate_recording]

end Gate

/-- Mending leaves no critical loop, so mending again changes nothing, and with mending a source
never leaves the gate with a report that has a critical loop. -/
theorem autoFix_settles_loops {σ : Type} (m : Machine σ) (settings : Settings)
    (options : AnalysisOptions) (template : RunRequest) (source : String) (s : RunState σ) :
    isLoopSafe (Repair.mended source).toList = true ∧
    Repair.mended (Repair.mended source) = Repair.mended source ∧
    ∀ outcome, (run m settings options true template source s).2 = .ok outcome →
      outcome.report.hasCriticalLoop = false := by
  refine ⟨isLoopSafe_mended source, Repair.mended_mended source, fun outcome houtcome ↦ ?_⟩
  rw [(outcome_is_about_judged _ options true template source houtcome).1]
  exact hasCriticalLoop_judged options source

end FlexGate.Pipeline
