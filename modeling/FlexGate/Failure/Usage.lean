/-!
Why a command line cannot be carried out.
-/

set_option autoImplicit false
set_option relaxedAutoImplicit false

namespace FlexGate

inductive UsageFailure
  | invalidArgument (argument detail : String) (suggestion : Option String)
  | conflictingArguments (first second suggestion : String)
  deriving DecidableEq, Repr

namespace UsageFailure

def message : UsageFailure → String
  | .invalidArgument argument _ _ => "Invalid argument: " ++ argument
  | .conflictingArguments first second _ =>
    "Conflicting arguments: " ++ first ++ " and " ++ second

def suggestion : UsageFailure → Option String
  | .invalidArgument _ _ suggestion => suggestion
  | .conflictingArguments _ _ suggestion => some suggestion

end UsageFailure

end FlexGate
