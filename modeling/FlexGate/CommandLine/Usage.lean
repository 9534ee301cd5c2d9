import FlexGate.About
import FlexGate.CommandLine.Run

/-!
What is told of arguments that make no command line: a fault, the version, or how the program is
used.
-/

set_option autoImplicit false
set_option relaxedAutoImplicit false

namespace FlexGate

namespace CommandLine

def Switch.usage (s : Switch) : String :=
  let short :=
    match s.short with
    | some c => "-" ++ String.singleton c ++ ", "
    | none => "    "
  "    " ++ short ++ "--" ++ s.name ++ (if s.arity.takesValue then " <VALUE>" else "") ++ "\n"

def CommandForm.usage (f : CommandForm) : String :=
  "  " ++ f.name ++
    (match f.operand with
      | some (name, _) => " <" ++ name ++ ">"
      | none => "") ++ "\n" ++
    String.join ((f.switches.filter fun s ↦ !commonSwitches.contains s).map Switch.usage)

def usage : String :=
  About.description ++ "\n\nUsage: " ++ About.name ++ " [OPTIONS] <COMMAND>\n\nCommands:\n" ++
    String.join (commandForms.map CommandForm.usage) ++ "\nOptions:\n" ++
    String.join (mainForm.switches.map Switch.usage)

end CommandLine

namespace ArgumentFault

def message : ArgumentFault → String
  | .unknownArgument => "an argument is not known"
  | .unknownCommand => "a command is not known"
  | .missingCommand => "a command is needed"
  | .missingArgument => "an argument is needed"
  | .invalidValue => "a value is not allowed"
  | .malformedValue => "a value cannot be read"
  | .repeated => "an argument is given twice"
  | .needlessValue => "a switch takes no value"
  | .nothingGiven => "nothing is asked for"
  | .helpWanted => "help is asked for"
  | .versionWanted => "the version is asked for"

def console (fault : ArgumentFault) : Console :=
  match fault with
  | .helpWanted => { stdout := CommandLine.usage }
  | .versionWanted => { stdout := About.name ++ " " ++ About.version ++ "\n" }
  | .nothingGiven => { stderr := CommandLine.usage, code := fault.exitCode }
  | _ => { stderr := "error: " ++ fault.message ++ "\n", code := fault.exitCode }

end ArgumentFault

end FlexGate
