import FlexGate.Analysis
import FlexGate.Execution.Executor
import FlexGate.Repair
import FlexGate.Report.Document

/-!
The gate: a source is analysed, mended if that was asked for and it has a critical loop, and run
only if nothing was found in it.
-/

set_option autoImplicit false
set_option relaxedAutoImplicit false

namespace FlexGate

inductive Outcome
  | rejected (report : Report) (source : String)
  | executed (report : Report) (source : String) (result : RunResult)

namespace Outcome

def report : Outcome → Report
  | .rejected report _ => report
  | .executed report _ _ => report

def source : Outcome → String
  | .rejected _ source => source
  | .executed _ source _ => source

def result? : Outcome → Option RunResult
  | .rejected _ _ => none
  | .executed _ _ result => some result

def succeeded (o : Outcome) : Bool := o.result?.any RunResult.succeeded

def exitCode : Outcome → Nat
  | .rejected _ _ => ExitCode.rejected
  | .executed _ _ result =>
    if result.succeeded then ExitCode.success
    else if result.isTimeout then ExitCode.timeout
    else ExitCode.process

def json : Outcome → Json
  | .rejected report source => .object
    [("outcome", .string "rejected"), ("report", report.json), ("source", .string source)]
  | .executed report source result => .object
    [ ("outcome", .string "executed"), ("report", report.json), ("source", .string source),
      ("result", result.json) ]

end Outcome

namespace Pipeline

/-- The source that is judged, with the report on it: a source with a critical loop is mended and
analysed again if that is wanted. -/
def examine (options : AnalysisOptions) (autoFix : Bool) (source : String) : String × Report :=
  let report := Report.ofSource options source
  if autoFix && report.hasCriticalLoop then
    let mended := Repair.mended source
    (mended, Report.ofSource options mended)
  else (source, report)

/-- Lets a source through to an executor if the report on it allows. The template says how it is
run. -/
def gate {σ : Type} (execute : RunRequest → σ → σ × Except Failure RunResult)
    (options : AnalysisOptions) (autoFix : Bool) (template : RunRequest) (source : String) (s : σ) :
    σ × Except Failure Outcome :=
  let (source, report) := examine options autoFix source
  if !report.isAcceptable || report.hasCriticalLoop then (s, .ok (.rejected report source))
  else
    match execute (template.withSource source) s with
    | (s, .ok result) => (s, .ok (.executed report source result))
    | (s, .error failure) => (s, .error failure)

/-- Runs a source through the gate. -/
def run {σ : Type} (m : Machine σ) (settings : Settings) (options : AnalysisOptions)
    (autoFix : Bool) (template : RunRequest) (source : String) (s : RunState σ) :
    RunState σ × Except Failure Outcome :=
  gate (Executor.execute m settings) options autoFix template source s

end Pipeline

end FlexGate
