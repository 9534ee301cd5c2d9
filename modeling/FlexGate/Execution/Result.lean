import FlexGate.Execution.Process
import FlexGate.Failure.Run
import FlexGate.Json.Basic

/-!
The result of a run. Every run that was started or refused has exactly one.
-/

set_option autoImplicit false
set_option relaxedAutoImplicit false

namespace FlexGate

structure RunResult where
  succeeded : Bool
  stdout : String := ""
  stderr : String := ""
  errorText : Option String := none
  errorKind : Option RunFailureKind := none
  suggestion : Option String := none
  elapsedMs : Nat := 0
  /-- The file that the source stood in. -/
  script : Option String := none
  exitCode : Int := noExitCode
  deriving DecidableEq, Repr

namespace RunResult

/-- The result of a run that failed before anything was written. -/
def refused (failure : RunFailure) (elapsedMs : Nat) (script : Option String) : RunResult where
  succeeded := false
  errorText := some failure.reportText
  errorKind := some failure.kind
  suggestion := failure.suggestion
  elapsedMs := elapsedMs
  script := script

/-- The result of a run whose process was started. -/
def ended (failure : Option RunFailure) (output : CapturedOutput) (status : Option ExitStatus)
    (elapsedMs : Nat) (script : String) : RunResult where
  succeeded := failure.isNone
  stdout := output.stdoutText
  stderr := output.stderrText
  errorText := failure.map RunFailure.reportText
  errorKind := failure.map RunFailure.kind
  suggestion := failure.bind RunFailure.suggestion
  elapsedMs := elapsedMs
  script := some script
  exitCode := exitCodeOf status

def isTimeout (r : RunResult) : Bool := r.errorKind == some .timeout

def json (r : RunResult) : Json := .object
  [ ("succeeded", .bool r.succeeded),
    ("stdout_text", .string r.stdout),
    ("stderr_text", .string r.stderr),
    ("error_text", .ofOption .string r.errorText),
    ("error_kind", .ofOption (fun kind ↦ .string kind.name) r.errorKind),
    ("suggestion", .ofOption .string r.suggestion),
    ("elapsed_seconds", .double (Binary.ofQuotient .double false r.elapsedMs 1000)),
    ("materialized_path", .ofOption .string r.script),
    ("exit_code", .integer r.exitCode) ]

end RunResult

end FlexGate
