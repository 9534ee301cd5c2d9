/-!
A request to run a source.
-/

set_option autoImplicit false
set_option relaxedAutoImplicit false

namespace FlexGate

structure RunRequest where
  source : String
  /-- The name to keep the source under. It counts only if the source is kept. -/
  fileName : Option String := none
  keep : Bool := false
  /-- Brought into the allowed range when the request is run. -/
  timeoutSecs : Nat := 30
  deriving DecidableEq, Repr

namespace RunRequest

def withTimeout (r : RunRequest) (seconds : Nat) : RunRequest := { r with timeoutSecs := seconds }

/-- The request to keep the source as well, under a name or under one of its own. -/
def kept (r : RunRequest) (fileName : Option String) : RunRequest :=
  { r with keep := true, fileName := fileName }

/-- The same request for another source. -/
def withSource (r : RunRequest) (source : String) : RunRequest := { r with source := source }

end RunRequest

end FlexGate
