import FlexGate.Pipeline
import FlexGate.Proofs.Execution.Approach

/-!
# Results are coherent

A result is made in one of two ways, when a run is refused and when a process was waited for, and
its fields must not contradict each other. Each result accounts for what was seen of the process
(`RunResult.Accounts`): it says that the run succeeded just when the process ended by itself with
status zero while it had not been told to end. Its exit code is told by the status that the process
left, which is its own unless it was made to end (`Sighting.LeavesStatus`). It is not enough for a
success that this code is zero: a process that is ended because its time is up may exit with zero
(`slowExit`).
-/

set_option autoImplicit false
set_option relaxedAutoImplicit false

namespace FlexGate

open Executor

/-- A process ended by itself, with status zero, and was not told to end before. -/
def Executor.Sighting.EndedWell (sighting : Sighting) : Prop :=
  (∀ reason, sighting.mailbox ≠ .told reason) ∧ sighting.course.ending = .exited (.exited 0)

/-- A process was made to end: it was told to, or did not end by itself. -/
def Executor.Sighting.MadeToEnd (sighting : Sighting) : Prop :=
  (∃ reason, sighting.mailbox = .told reason) ∨ ∀ own, sighting.course.ending ≠ .exited own

/-- The status that a process left is its own, unless it was made to end. -/
inductive Executor.Sighting.LeavesStatus (sighting : Sighting) (status : ExitStatus) : Prop
  | own (huntold : ∀ reason, sighting.mailbox ≠ .told reason)
    (hending : sighting.course.ending = .exited status)
  | forced (hmade : sighting.MadeToEnd) (hforced : sighting.course.forced = some status)

namespace RunResult

/-- A result accounts for what was seen of the process of its run, if there was one. -/
structure Accounts (seen : Option Sighting) (r : RunResult) : Prop where
  succeeded_iff : r.succeeded = true ↔ ∃ sighting, seen = some sighting ∧ sighting.EndedWell
  errorKind_eq_none_iff : r.errorKind = none ↔ r.succeeded = true
  errorText_eq_none_iff : r.errorText = none ↔ r.succeeded = true
  suggestion_isSome_iff :
    r.suggestion.isSome = true ↔ r.errorKind ≠ none ∧ r.errorKind ≠ some .cancelled
  exitCode_of_succeeded : r.succeeded = true → r.exitCode = 0
  exitCode_of_status : ∀ sighting code, seen = some sighting →
    sighting.LeavesStatus (.exited code) → r.exitCode = code
  exitCode_of_none : (∀ sighting code, seen = some sighting →
    ¬ sighting.LeavesStatus (.exited code)) → r.exitCode = -1
  errorText_of_stderr : r.errorKind = some .nonZeroExit → (Text.trimmed r.stderr).isEmpty = false →
    r.errorText = some (Text.trimmed r.stderr)

/-- The exit code that the outcome of a run has for its result: zero for a success, one of its own
for a run that was out of time, and one for all other failures, as for the failures themselves. -/
structure HasExitCode (r : RunResult) (code : Nat) : Prop where
  success_iff : code = 0 ↔ r.succeeded = true
  timeout_iff : code = 6 ↔ r.errorKind = some .timeout
  process_iff : code = 9 ↔ r.succeeded = false ∧ r.errorKind ≠ some .timeout
  of_failure : ∀ f : RunFailure, r.errorKind = some f.kind → code = (Failure.run f).exitCode

end RunResult

namespace Executor

theorem exitCodeOf_exited (code : Nat) : exitCodeOf (some (.exited code)) = code := rfl

theorem exitCodeOf_of_ne {status : Option ExitStatus} (h : ∀ code, status ≠ some (.exited code)) :
    exitCodeOf status = -1 := by
  match status with
  | none => rfl
  | some (.signalled _) => rfl
  | some (.exited code) => exact absurd rfl (h code)

theorem isSuccess_iff {status : ExitStatus} :
    status.isSuccess = true ↔ status = .exited 0 := by
  cases status <;> simp [ExitStatus.isSuccess]

theorem failureOfEnding_eq_none_iff {l : Launch} {stderr : String} {ending : Ending} :
    failureOfEnding l stderr ending = none ↔ ending = .exited (.exited 0) := by
  cases ending with
  | exited status => simp [failureOfEnding, isSuccess_iff]
  | _ => simp [failureOfEnding]

theorem failureOf_of_not_told {l : Launch} {mailbox : Mailbox} (c : Course)
    (h : ∀ reason, mailbox ≠ .told reason) :
    failureOf l mailbox c = failureOfEnding l c.output.stderrText c.ending := by
  cases mailbox with
  | told reason => exact absurd rfl (h reason)
  | _ => rfl

theorem failureOf_eq_none_iff {l : Launch} {sighting : Sighting} :
    failureOf l sighting.mailbox sighting.course = none ↔ sighting.EndedWell := by
  rw [Sighting.EndedWell]
  by_cases htold : ∃ reason, sighting.mailbox = .told reason
  · obtain ⟨reason, htold⟩ := htold
    simp [htold, failureOf]
  · have hnot : ∀ reason, sighting.mailbox ≠ .told reason := fun reason h ↦ htold ⟨reason, h⟩
    rw [failureOf_of_not_told _ hnot, failureOfEnding_eq_none_iff]
    exact (and_iff_right hnot).symm

theorem statusOf_of_exited {sighting : Sighting} {own : ExitStatus}
    (huntold : ∀ reason, sighting.mailbox ≠ .told reason)
    (hending : sighting.course.ending = .exited own) :
    statusOf sighting.mailbox sighting.course = some own := by
  cases hmailbox : sighting.mailbox with
  | told reason => exact absurd hmailbox (huntold reason)
  | _ => simp only [statusOf, hending]

theorem statusOf_of_made {sighting : Sighting} (hmade : sighting.MadeToEnd) :
    statusOf sighting.mailbox sighting.course = sighting.course.forced := by
  obtain ⟨reason, htold⟩ | hending := hmade
  · rw [htold, statusOf]
  · cases hown : sighting.course.ending with
    | exited own => exact absurd hown (hending own)
    | _ => cases sighting.mailbox <;> simp only [statusOf, hown]

/-- The executor gives a process the status that it left. -/
theorem statusOf_eq_some_iff {sighting : Sighting} {status : ExitStatus} :
    statusOf sighting.mailbox sighting.course = some status ↔ sighting.LeavesStatus status := by
  constructor
  · intro h
    by_cases hmade : sighting.MadeToEnd
    · exact .forced hmade ((statusOf_of_made hmade).symm.trans h)
    · obtain ⟨huntold, own, hending⟩ : (∀ reason, sighting.mailbox ≠ .told reason) ∧
          ∃ own, sighting.course.ending = .exited own := by
        simpa [Sighting.MadeToEnd] using hmade
      obtain rfl : own = status :=
        Option.some.inj ((statusOf_of_exited huntold hending).symm.trans h)
      exact .own huntold hending
  · rintro (⟨huntold, hending⟩ | ⟨hmade, hforced⟩)
    · exact statusOf_of_exited huntold hending
    · rw [statusOf_of_made hmade, hforced]

/-- A process that failed with a status of its own failed with what it wrote about that. -/
theorem eq_exitedWith_of_failureOf {l : Launch} {mailbox : Mailbox} {c : Course} {f : RunFailure}
    (h : failureOf l mailbox c = some f) (hkind : f.kind = .nonZeroExit) :
    ∃ code, f = .exitedWith code c.output.stderrText := by
  by_cases htold : ∃ reason, mailbox = .told reason
  · obtain ⟨reason, rfl⟩ := htold
    obtain rfl : RunFailure.cancelled reason = f := Option.some.inj h
    cases hkind
  · rw [failureOf_of_not_told c fun reason h ↦ htold ⟨reason, h⟩] at h
    cases hending : c.ending with
    | exited status =>
      rw [hending, failureOfEnding] at h
      split at h
      · cases h
      · exact ⟨_, (Option.some.inj h).symm⟩
    | _ =>
      rw [hending, failureOfEnding] at h
      obtain rfl := Option.some.inj h
      cases hkind

end Executor

theorem RunFailure.suggestion_isSome_iff (f : RunFailure) :
    f.suggestion.isSome = true ↔ f.kind ≠ .cancelled := by
  rw [← not_iff_not, not_not, Option.not_isSome_iff_eq_none]
  exact f.suggestion_eq_none_iff

/-- The report on a process that failed with a status of its own is what it wrote, if it wrote
something that is not blank. -/
theorem RunFailure.reportText_exitedWith {code : Int} {stderr : String}
    (h : (Text.trimmed stderr).isEmpty = false) :
    (RunFailure.exitedWith code stderr).reportText = Text.trimmed stderr := by
  simp [RunFailure.reportText, h]

namespace RunResult

theorem accounts_refused (f : RunFailure) (elapsedMs : Nat) (script : Option String) :
    Accounts none (refused f elapsedMs script) where
  succeeded_iff := by simp [refused]
  errorKind_eq_none_iff := by simp [refused]
  errorText_eq_none_iff := by simp [refused]
  suggestion_isSome_iff := by simpa [refused] using f.suggestion_isSome_iff
  exitCode_of_succeeded := by simp [refused]
  exitCode_of_status := by simp
  exitCode_of_none := fun _ ↦ rfl
  errorText_of_stderr := by
    -- nothing was written by a process that was not started
    have hblank : (Text.trimmed "").isEmpty = true := by decide
    intro _ hstderr
    exact absurd (hblank.symm.trans hstderr) (by decide)

theorem accounts_ended (l : Launch) (sighting : Sighting) (elapsedMs : Nat) (script : String) :
    Accounts (some sighting) (ended (failureOf l sighting.mailbox sighting.course)
      sighting.course.output (statusOf sighting.mailbox sighting.course) elapsedMs script) where
  succeeded_iff := by simp [ended, failureOf_eq_none_iff]
  errorKind_eq_none_iff := by simp [ended]
  errorText_eq_none_iff := by simp [ended]
  suggestion_isSome_iff := by
    cases h : failureOf l sighting.mailbox sighting.course with
    | none => simp [ended]
    | some f => simpa [ended] using f.suggestion_isSome_iff
  exitCode_of_succeeded := by
    intro hsucceeded
    have hwell : sighting.EndedWell :=
      failureOf_eq_none_iff.mp (Option.isNone_iff_eq_none.mp hsucceeded)
    rw [ended, statusOf_eq_some_iff.mpr (.own hwell.1 hwell.2)]
    rfl
  exitCode_of_status := by
    intro other code hseen hleaves
    obtain rfl : sighting = other := Option.some.inj hseen
    rw [ended, statusOf_eq_some_iff.mpr hleaves, exitCodeOf_exited]
  exitCode_of_none := by
    intro hnone
    exact exitCodeOf_of_ne fun code h ↦ hnone sighting code rfl (statusOf_eq_some_iff.mp h)
  errorText_of_stderr := by
    intro hkind hstderr
    cases h : failureOf l sighting.mailbox sighting.course with
    | none => simp [ended, h] at hkind
    | some f =>
      obtain ⟨code, rfl⟩ := eq_exitedWith_of_failureOf h (by simpa [ended, h] using hkind)
      exact congrArg some (RunFailure.reportText_exitedWith hstderr)

theorem Accounts.hasExitCode {seen : Option Sighting} {r : RunResult} (h : r.Accounts seen)
    (report : Report) (source : String) :
    r.HasExitCode (Outcome.executed report source r).exitCode := by
  cases hkind : r.errorKind with
  | none =>
    have hsucceeded : r.succeeded = true := h.errorKind_eq_none_iff.mp hkind
    have hcode : (Outcome.executed report source r).exitCode = 0 := if_pos hsucceeded
    rw [hcode]
    refine ⟨?_, ?_, ?_, ?_⟩ <;> simp [hsucceeded, hkind]
  | some kind =>
    have hfailed : r.succeeded = false := by
      rw [← Bool.not_eq_true, ← h.errorKind_eq_none_iff, hkind]
      exact Option.some_ne_none kind
    have hcode : (Outcome.executed report source r).exitCode = ExitCode.ofRun kind := by
      rw [Outcome.exitCode, hfailed, if_neg Bool.false_ne_true, isTimeout, hkind]
      cases kind <;> rfl
    rw [hcode]
    refine ⟨?_, ?_, ?_, ?_⟩
    · rw [hfailed]
      cases kind <;> decide
    · rw [hkind]
      cases kind <;> decide
    · rw [hfailed, hkind]
      cases kind <;> decide
    · intro f hf
      rw [Failure.exitCode, Option.some.inj (hkind.symm.trans hf)]

end RunResult

namespace Executor

variable {σ : Type} (m : Machine σ) (settings : Settings)

theorem ScriptRuns.accounts {l : Launch} {id : RunId} {started : Nat} {s after : RunState σ}
    {answer : Except Failure RunResult} {seen : Option Sighting}
    (h : ScriptRuns m l id started s after answer seen) {r : RunResult} (hr : answer = .ok r) :
    r.Accounts seen := by
  cases h with
  | refused =>
    obtain rfl := Except.ok.inj hr
    exact RunResult.accounts_refused _ _ _
  | duplicate => cases hr
  | ended =>
    obtain rfl := Except.ok.inj hr
    exact RunResult.accounts_ended l ⟨_, _⟩ _ _

theorem accounts_settle {id : RunId} {timeoutSecs started : Nat}
    {approached : RunState σ × Except Refusal MaterializedSource} {r : RunResult}
    (h : (settle m settings id timeoutSecs started approached).2 = .ok r) :
    r.Accounts (sighting m settings id timeoutSecs approached) := by
  obtain ⟨s, refusal | source⟩ := approached
  · obtain rfl := Except.ok.inj h
    exact RunResult.accounts_refused _ _ _
  · exact (scriptRuns_runScript m _ id started s).accounts m h

/-- Results are coherent. Whatever the machine does, each result of a request or of a script that is
run where it is accounts for what was seen of the process, and its outcome has the exit code that
goes with it. -/
theorem results_cohere (s : RunState σ) :
    (∀ request r, (execute m settings request s).2 = .ok r →
      r.Accounts (sightingOf m settings request s) ∧
      ∀ report source, r.HasExitCode (Outcome.executed report source r).exitCode) ∧
    ∀ path timeoutSecs r, (executeFile m settings path timeoutSecs s).2 = .ok r →
      r.Accounts (sightingOfFile m settings path timeoutSecs s) ∧
      ∀ report source, r.HasExitCode (Outcome.executed report source r).exitCode := by
  constructor
  · intro request r hr
    rw [execute_eq] at hr
    have haccounts := accounts_settle m settings hr
    exact ⟨haccounts, haccounts.hasExitCode⟩
  · intro path timeoutSecs r hr
    rw [executeFile_eq] at hr
    have haccounts := accounts_settle m settings hr
    exact ⟨haccounts, haccounts.hasExitCode⟩

/-- A machine on which everything works, but processes run until their time is up and then exit with
zero. -/
def slowExit : Machine Unit where
  clock _ := 0
  stamp _ := ((), ⟨"20240101_000000", .ofNumber 1⟩)
  probe _ _ _ := ((), .finished (.exited 0) {})
  store :=
    { write := fun _ _ _ ↦ ((), none)
      read := fun _ _ ↦ .ok ""
      remove := fun _ _ ↦ ((), none) }
  start _ _ := ((), .ok none)
  wait _ _ := ((), { ending := .outOfTime, forced := some (.exited 0) })

/-- The exit code of such a process is zero, but its run did not succeed. -/
theorem results_cohere_slowExit :
    (∃ r, (execute slowExit {} { source := "" } ⟨(), {}⟩).2 = .ok r ∧ r.exitCode = 0 ∧
      r.succeeded = false ∧ ∀ report source, (Outcome.executed report source r).exitCode = 6) ∧
    ∃ r, (executeFile slowExit {} "a.flex".toList none ⟨(), {}⟩).2 = .ok r ∧ r.exitCode = 0 ∧
      r.succeeded = false ∧ ∀ report source, (Outcome.executed report source r).exitCode = 6 := by
  refine ⟨⟨_, rfl, rfl, rfl, fun report source ↦ ?_⟩, ⟨_, rfl, rfl, rfl, fun report source ↦ ?_⟩⟩
  · have hcode := ((results_cohere slowExit {} ⟨(), {}⟩).1 { source := "" } _ rfl).2 report source
    exact hcode.timeout_iff.mpr rfl
  · have hcode := ((results_cohere slowExit {} ⟨(), {}⟩).2 "a.flex".toList none _ rfl).2 report
      source
    exact hcode.timeout_iff.mpr rfl

end Executor

end FlexGate
