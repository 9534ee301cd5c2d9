import FlexGate.Failure.Run
import FlexGate.Failure.Settings
import FlexGate.Failure.Usage

/-!
Failures that end an operation, their wording, and the exit codes of the command line. Defects of a
program are not failures: they are data of its report.
-/

set_option autoImplicit false
set_option relaxedAutoImplicit false

namespace FlexGate

inductive Failure
  | settings (cause : SettingsFailure)
  | run (cause : RunFailure)
  | duplicateIdentity (id : String)
  | usage (cause : UsageFailure)
  | io (text : String)
  | json (text : String)
  deriving DecidableEq, Repr

namespace ExitCode

def success : Nat := 0

def general : Nat := 1

def settings : Nat := 2

def rejected : Nat := 4

def timeout : Nat := 6

def usage : Nat := 7

def process : Nat := 9

def registry : Nat := 10

/-- The exit code of a run that failed. -/
def ofRun : RunFailureKind → Nat
  | .timeout => timeout
  | _ => process

end ExitCode

namespace Failure

def message : Failure → String
  | .settings cause => "Configuration error: " ++ cause.message
  | .run cause => "Execution failed: " ++ cause.message
  | .duplicateIdentity id =>
    "Process registry failure: Execution identity already registered: " ++ id
  | .usage cause => "CLI argument error: " ++ cause.message
  | .io text => "IO operation failed: " ++ text
  | .json text => "JSON serialization failed: " ++ text

def hint? : Failure → Option String
  | .settings cause => cause.hint?
  | .run cause => cause.suggestion.map ("Help: " ++ ·)
  | .usage cause => cause.suggestion.map ("Help: " ++ ·)
  | _ => none

def exitCode : Failure → Nat
  | .settings _ => ExitCode.settings
  | .run cause => ExitCode.ofRun cause.kind
  | .duplicateIdentity _ => ExitCode.registry
  | .usage _ => ExitCode.usage
  | .io _ => ExitCode.general
  | .json _ => ExitCode.general

def label (colored : Bool) : String :=
  if colored then "\x1b[31mError: \x1b[0m" else "Error: "

/-- The text shown to a user, with the hint on a line of its own. -/
def userMessage (colored : Bool) (f : Failure) : String :=
  label colored ++ f.message ++ (f.hint?.map ("\n  " ++ ·)).getD ""

end Failure

end FlexGate
