import FlexGate.Number.Word

/-!
The form of a command line: which switches and operands a command takes, and which values they
accept.
-/

set_option autoImplicit false
set_option relaxedAutoImplicit false

namespace FlexGate

/-- Why arguments do not make a command line. -/
inductive ArgumentFault
  | unknownArgument
  | unknownCommand
  | missingCommand
  | missingArgument
  /-- A value that is none of those allowed, or is not there. -/
  | invalidValue
  /-- A value that does not read as what it should be. -/
  | malformedValue
  | repeated
  /-- A value for a switch that takes none. -/
  | needlessValue
  | nothingGiven
  | helpWanted
  | versionWanted
  deriving DecidableEq, Repr

namespace ArgumentFault

/-- To be asked for help or for the version is no failure. -/
def exitCode : ArgumentFault → Nat
  | .helpWanted => 0
  | .versionWanted => 0
  | _ => 2

end ArgumentFault

namespace CommandLine

inductive ValueRule
  /-- Any text. -/
  | text
  /-- Any text but the empty one. -/
  | path
  | count
  | oneOf (words : List String)
  deriving DecidableEq, Repr

def ValueRule.check : ValueRule → List Char → Option ArgumentFault
  | .text, _ => none
  | .path, value => if value.isEmpty then some .invalidValue else none
  | .count, value => if (Word.ofChars? value).isSome then none else some .malformedValue
  | .oneOf words, value =>
    if words.contains (String.ofList value) then none else some .invalidValue

/-- What a switch does, or how many values it takes. -/
inductive Arity
  | flag
  | one (rule : ValueRule)
  /-- One value or none. None stands for the empty text. -/
  | upToOne (rule : ValueRule)
  | help
  | version
  deriving DecidableEq, Repr

namespace Arity

def takesValue : Arity → Bool
  | .one _ => true
  | .upToOne _ => true
  | _ => false

end Arity

structure Switch where
  name : String
  short : Option Char := none
  arity : Arity
  deriving DecidableEq, Repr

/-- A command that takes arguments: switches, at most one operand, and commands below it. -/
structure CommandForm where
  name : String
  operand : Option (String × ValueRule) := none
  switches : List Switch := []
  deriving DecidableEq, Repr

def commonSwitches : List Switch :=
  [ ⟨"verbose", some 'v', .flag⟩, ⟨"quiet", some 'q', .flag⟩, ⟨"config", some 'c', .one .path⟩,
    ⟨"color", none, .one .text⟩, ⟨"help", some 'h', .help⟩ ]

def formatSwitch : Switch := ⟨"format", none, .one (.oneOf ["text", "json"])⟩

def mainForm : CommandForm where
  name := "flexguard"
  switches := ⟨"version", some 'V', .version⟩ :: commonSwitches

def shells : List String := ["bash", "elvish", "fish", "powershell", "zsh"]

def commandForms : List CommandForm :=
  [ { name := "check", operand := some ("file", .path)
      switches := formatSwitch :: commonSwitches },
    { name := "fix", operand := some ("file", .path)
      switches := ⟨"write", some 'w', .flag⟩ :: commonSwitches },
    { name := "run", operand := some ("file", .path)
      switches :=
        [ ⟨"timeout", some 't', .one .count⟩, ⟨"fix", none, .flag⟩,
          ⟨"save", none, .upToOne .text⟩, formatSwitch ] ++ commonSwitches },
    { name := "probe", switches := formatSwitch :: commonSwitches },
    { name := "examples", switches := commonSwitches },
    { name := "completion", operand := some ("shell", .oneOf shells)
      switches := commonSwitches } ]

def helpCommand : String := "help"

def commandNames : List String := commandForms.map CommandForm.name ++ [helpCommand]

def CommandForm.long? (f : CommandForm) (name : List Char) : Option Switch :=
  f.switches.find? fun s ↦ s.name.toList = name

def CommandForm.short? (f : CommandForm) (c : Char) : Option Switch :=
  f.switches.find? fun s ↦ s.short = some c

end CommandLine

end FlexGate
