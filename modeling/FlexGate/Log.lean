/-!
What the log shows, and in what form.
-/

set_option autoImplicit false
set_option relaxedAutoImplicit false

namespace FlexGate

inductive LogLevel
  | error
  | warn
  | info
  | debug
  | trace
  deriving DecidableEq, Repr

inductive LogForm
  | pretty
  | json
  | compact
  deriving DecidableEq, Repr

inductive ColorChoice
  /-- Colors are used on a terminal that has not switched them off. -/
  | auto
  | always
  | never
  deriving DecidableEq, Repr

def ColorChoice.ofText : Option String → ColorChoice
  | some "always" => .always
  | some "never" => .never
  | _ => .auto

structure LogSettings where
  level : LogLevel := .warn
  form : LogForm := .pretty
  color : ColorChoice := .auto
  showTargets : Bool := false
  deriving DecidableEq, Repr

namespace LogSettings

/-- To be quiet goes before being verbose. -/
def ofFlags (verbose quiet : Bool) (color : Option String) : LogSettings :=
  { level := if quiet then .error else if verbose then .debug else .warn
    color := ColorChoice.ofText color }

/-- Whether colors are used, given whether the output is a terminal that shows them. -/
def usesColors (s : LogSettings) (terminal : Bool) : Bool :=
  match s.color with
  | .always => true
  | .never => false
  | .auto => terminal

end LogSettings

end FlexGate
