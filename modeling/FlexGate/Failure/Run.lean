import FlexGate.Limit.Breach
import FlexGate.Text.Blank

/-!
Why a run of a script failed.
-/

set_option autoImplicit false
set_option relaxedAutoImplicit false

namespace FlexGate

inductive RunFailureKind
  | interpreterUnavailable
  | materializationFailed
  | resourceLimitExceeded
  | timeout
  | nonZeroExit
  | spawnFailed
  | cancelled
  deriving DecidableEq, Repr

def RunFailureKind.all : List RunFailureKind :=
  [.interpreterUnavailable, .materializationFailed, .resourceLimitExceeded, .timeout,
    .nonZeroExit, .spawnFailed, .cancelled]

def RunFailureKind.name : RunFailureKind → String
  | .interpreterUnavailable => "interpreter_unavailable"
  | .materializationFailed => "materialization_failed"
  | .resourceLimitExceeded => "resource_limit_exceeded"
  | .timeout => "timeout"
  | .nonZeroExit => "non_zero_exit"
  | .spawnFailed => "spawn_failed"
  | .cancelled => "cancelled"

inductive RunFailure
  | interpreterUnavailable (interpreter reason : String)
  | materializationFailed (path : Option String) (reason : String)
  | limitExceeded (breach : Breach)
  | timedOut (seconds : Nat)
  | exitedWith (code : Int) (stderr : String)
  | spawnFailed (command reason : String)
  | cancelled (reason : String)
  deriving DecidableEq, Repr

namespace RunFailure

def kind : RunFailure → RunFailureKind
  | .interpreterUnavailable _ _ => .interpreterUnavailable
  | .materializationFailed _ _ => .materializationFailed
  | .limitExceeded _ => .resourceLimitExceeded
  | .timedOut _ => .timeout
  | .exitedWith _ _ => .nonZeroExit
  | .spawnFailed _ _ => .spawnFailed
  | .cancelled _ => .cancelled

def message : RunFailure → String
  | .interpreterUnavailable interpreter reason =>
    "Flex interpreter not found or not accessible: " ++ interpreter ++ " (" ++ reason ++ ")"
  | .materializationFailed _ reason => "Failed to save code: " ++ reason
  | .limitExceeded breach => "Process killed: " ++ breach.message
  | .timedOut seconds => "Execution timed out after " ++ toString seconds ++ " seconds"
  | .exitedWith code _ => "Process exited with code " ++ toString code
  | .spawnFailed command reason => "Process spawn failed: " ++ command ++ ": " ++ reason
  | .cancelled reason => "Execution cancelled: " ++ reason

/-- What a user can do about the failure. Nothing needs doing about a cancelled run. -/
def suggestion : RunFailure → Option String
  | .interpreterUnavailable _ _ =>
    some "Install the Flex interpreter or point FLEX_CLI_PATH (interpreter.path) at it"
  | .materializationFailed (some path) _ => some ("Check that " ++ path ++ " is writable")
  | .materializationFailed none _ =>
    some "Check that the temp and output directories are writable"
  | .limitExceeded (.memory _ _) =>
    some "Reduce the script's memory use or raise limits.max_memory_mb"
  | .limitExceeded (.cpu _ _) =>
    some "Reduce the script's CPU use or raise limits.max_cpu_percent"
  | .timedOut _ =>
    some "Look for loops that never terminate, or raise the timeout (max 300 seconds)"
  | .exitedWith _ _ => some "Run `flexguard check` on the script to look for defects"
  | .spawnFailed _ _ => some "Verify that the interpreter path points to an executable"
  | .cancelled _ => none

/-- The text that the result of a run carries: what the script itself wrote about its failure, if
it wrote anything, else the message. -/
def reportText (f : RunFailure) : String :=
  match f with
  | .exitedWith _ stderr =>
    if (Text.trimmed stderr).isEmpty then f.message else Text.trimmed stderr
  | _ => f.message

theorem suggestion_eq_none_iff (f : RunFailure) : f.suggestion = none ↔ f.kind = .cancelled := by
  cases f with
  | materializationFailed path _ => cases path <;> simp [suggestion, kind]
  | limitExceeded breach => cases breach <;> simp [suggestion, kind]
  | _ => simp [suggestion, kind]

end RunFailure

end FlexGate
