import FlexGate.Yaml.Mark

/-!
Faults of a YAML text: what is wrong and where, and what was being read.
-/

set_option autoImplicit false
set_option relaxedAutoImplicit false

namespace FlexGate.Yaml

inductive Fault
  /-- A character that no YAML text may hold, after a number of bytes. -/
  | control (offset : Nat)
  | malformed (problem : String) (mark : Mark) (context : Option (String × Mark))
  | unknownAnchor (mark : Mark)
  deriving DecidableEq, Repr

namespace Fault

def mark : Fault → Mark
  | .control _ => {}
  | .malformed _ mark _ => mark
  | .unknownAnchor mark => mark

def located (mark : Mark) : String := if mark.isStart then "" else " at " ++ mark.text

def contextText (problem : Mark) : Option (String × Mark) → String
  | none => ""
  | some (context, mark) =>
    ", " ++ context ++ (if mark.sameSpot problem then "" else located mark)

def message : Fault → String
  | .control offset =>
    "control characters are not allowed" ++
      (if offset = 0 then "" else " at position " ++ toString offset)
  | .malformed problem mark context => problem ++ located mark ++ contextText mark context
  | .unknownAnchor mark => "unknown anchor" ++ located mark

end Fault

/-- A fault found while something that starts at a mark is read. -/
def faultIn {α : Type} (context : String) (start : Mark) (problem : String) (p : Place) :
    Except Fault α :=
  .error (.malformed problem p.mark (some (context, start)))

end FlexGate.Yaml
