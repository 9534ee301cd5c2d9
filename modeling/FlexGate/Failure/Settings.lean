/-!
Why settings could not be used.
-/

set_option autoImplicit false
set_option relaxedAutoImplicit false

namespace FlexGate

inductive SettingsFailure
  | notFound (path : String) (suggestion : Option String)
  | invalidYaml (reason : String) (line column : Option Nat) (file : Option String)
  | invalidValue (reason field value expected : String)
  deriving DecidableEq, Repr

namespace SettingsFailure

def message : SettingsFailure → String
  | .notFound path _ => "Configuration file not found: " ++ path
  | .invalidYaml reason _ _ _ => "Invalid YAML syntax: " ++ reason
  | .invalidValue reason field _ _ =>
    "Invalid configuration value for " ++ field ++ ": " ++ reason

/-- The line under the message that helps a user on. -/
def hint? : SettingsFailure → Option String
  | .notFound _ suggestion => suggestion.map ("Help: " ++ ·)
  | .invalidYaml _ (some line) _ (some file) => some ("--> " ++ file ++ ":" ++ toString line)
  | .invalidYaml _ _ _ _ => none
  | .invalidValue _ _ _ expected => some ("Expected: " ++ expected)

end SettingsFailure

end FlexGate
