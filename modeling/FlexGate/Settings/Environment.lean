import FlexGate.Failure
import FlexGate.Settings.Basic

/-!
Overrides of settings from environment variables. The texts of paths and of the list of extensions
are always taken over; the timeout is taken over last, and only if it is a whole number.
-/

set_option autoImplicit false
set_option relaxedAutoImplicit false

namespace FlexGate.Settings

/-- What each variable is set to, if it is set. -/
abbrev Environment := String → Option String

/-- The texts between commas, without blanks around them, leaving out the empty ones. -/
def splitExtensions (text : String) : List String :=
  ((splitCommas text.toList).map fun part ↦ String.ofList (Text.trim part)).filter
    fun part ↦ !part.isEmpty
where
  splitCommas : List Char → List (List Char)
    | [] => [[]]
    | ',' :: rest => [] :: splitCommas rest
    | c :: rest =>
      match splitCommas rest with
      | [] => [[c]]
      | part :: parts => (c :: part) :: parts

/-- The overrides that cannot fail. -/
def overrideTexts (env : Environment) (s : Settings) : Settings :=
  { s with
    interpreter := { s.interpreter with
      path := (env "FLEX_CLI_PATH").getD s.interpreter.path }
    execution := { s.execution with
      tempDir := (env "FLEX_TEMP_DIR").getD s.execution.tempDir
      outputDir := (env "FLEX_EXAMPLES_DIR").getD s.execution.outputDir
      fileExtensions :=
        ((env "FLEX_FILE_EXTENSIONS").map splitExtensions).getD s.execution.fileExtensions } }

def setTimeout (s : Settings) (seconds : Nat) : Settings :=
  { s with execution := { s.execution with defaultTimeoutSecs := seconds } }

def timeoutFailure (text : String) : Failure :=
  .settings (.invalidValue "must be a whole number of seconds" "EXECUTION_TIMEOUT" text
    "integer in 1..=300")

/-- The settings after the overrides, and the failure if the timeout is no whole number. On a
failure the other overrides stay. -/
def applyEnvironment (env : Environment) (s : Settings) : Settings × Option Failure :=
  let s := overrideTexts env s
  match env "EXECUTION_TIMEOUT" with
  | none => (s, none)
  | some text =>
    match Word.ofText? (Text.trimmed text) with
    | some seconds => (setTimeout s seconds, none)
    | none => (s, some (timeoutFailure text))

end FlexGate.Settings
