import FlexGate.FileTree.Access
import FlexGate.Settings.Environment
import FlexGate.Settings.FromYaml

/-!
Loading settings: the defaults, then a file, then the environment, then validation. A file that was
named has to be there; the usual file may be missing.
-/

set_option autoImplicit false
set_option relaxedAutoImplicit false

namespace FlexGate.Settings

def missingFile (path : String) : Failure :=
  .settings (.notFound path
    (some ("Create a " ++ defaultSettingsFile ++ " file or omit --config to use defaults")))

def ofFile (files : FileTree) (path : String) : Except Failure Settings :=
  if files.exists? path.toList then
    match files.readText path.toList with
    | .ok text => ofYaml (some path) text
    | .error fault => .error (.io fault.message)
  else .error (missingFile path)

/-- The settings before the environment is looked at. -/
def base (files : FileTree) : Option String → Except Failure Settings
  | some path => ofFile files path
  | none =>
    if files.isFile defaultSettingsFile.toList then ofFile files defaultSettingsFile else .ok {}

def load (files : FileTree) (env : Environment) (path : Option String) :
    Except Failure Settings := do
  let settings ← base files path
  match settings.applyEnvironment env with
  | (_, some failure) => throw failure
  | (settings, none) => settings.validate

end FlexGate.Settings
