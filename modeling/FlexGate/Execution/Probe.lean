import FlexGate.Execution.Process

/-!
Probing an interpreter: it is asked for its version and has to answer in time and without an error.
Its version is the first line that it writes.
-/

set_option autoImplicit false
set_option relaxedAutoImplicit false

namespace FlexGate

inductive ProbeCourse
  /-- The interpreter was not found or could not be started. -/
  | notStarted (reason : String)
  | outOfTime
  | finished (status : ExitStatus) (output : CapturedOutput)
  deriving DecidableEq, Repr

namespace ProbeCourse

/-- The answer of an interpreter that may have written it to either stream. -/
def answer (output : CapturedOutput) : String :=
  if output.stdout.isEmpty then output.stderrText else output.stdoutText

def firstLine (text : String) : String :=
  String.ofList (Text.trim (text.toList.takeWhile (· ≠ '\n')))

/-- The version, or why there is none. -/
def version (timeoutSecs : Nat) : ProbeCourse → Except String String
  | .notStarted reason => .error reason
  | .outOfTime => .error ("version probe timed out after " ++ toString timeoutSecs ++ "s")
  | .finished status output =>
    if status.isSuccess then .ok (firstLine (answer output))
    else .error ("version probe exited with " ++ status.text)

end ProbeCourse

end FlexGate
