import FlexGate.CommandLine.Reading

/-!
Commands with their options.
-/

set_option autoImplicit false
set_option relaxedAutoImplicit false

namespace FlexGate

inductive OutputForm
  | text
  | json
  deriving DecidableEq, Repr

inductive Command
  | check (file : String) (form : OutputForm)
  | fix (file : String) (write : Bool)
  | run (file : String) (timeout : Option Nat) (fix : Bool) (save : Option String)
      (form : OutputForm)
  | probe (form : OutputForm)
  | examples
  | completion (shell : String)
  deriving DecidableEq, Repr

structure CommandLine where
  command : Command
  verbose : Bool := false
  quiet : Bool := false
  config : Option String := none
  color : Option String := none
  deriving DecidableEq, Repr

namespace CommandLine

def outputForm (r : Reading) : OutputForm :=
  if r.value? "format" = some "json" then .json else .text

def commandOf (form : CommandForm) (r : Reading) : Command :=
  let file := (r.value? "file").getD ""
  match form.name with
  | "check" => .check file (outputForm r)
  | "fix" => .fix file (r.has "write")
  | "run" =>
    .run file ((r.value? "timeout").bind Word.ofText?) (r.has "fix") (r.value? "save")
      (outputForm r)
  | "probe" => .probe (outputForm r)
  | "completion" => .completion ((r.value? "shell").getD "")
  | _ => .examples

/-- What is given after the command goes before what is given ahead of it. -/
def ofReadings (before : Reading) (form : CommandForm) (after : Reading) : CommandLine where
  command := commandOf form after
  verbose := before.has "verbose" || after.has "verbose"
  quiet := before.has "quiet" || after.has "quiet"
  config := (after.value? "config").or (before.value? "config")
  color := (after.value? "color").or (before.value? "color")

/-- The command line that arguments make. -/
def parse (arguments : List String) : Except ArgumentFault CommandLine := do
  let (before, form, after) ← readAll {} (arguments.map String.toList)
  return ofReadings before form after

end CommandLine

end FlexGate
