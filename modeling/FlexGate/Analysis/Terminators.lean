import FlexGate.Finding

/-!
Statement terminators. A Flex statement ends at the line break, so each semicolon is a defect.
-/

set_option autoImplicit false
set_option relaxedAutoImplicit false

namespace FlexGate.Analysis

def terminatorsOnLine (line : Nat) (text : List Char) : List Finding :=
  (Shape.terminator.findAll text).map fun m ↦ ⟨.terminator, line, some (m.start + 1)⟩

/-- The semicolons of some lines, which are numbered from the given one. -/
def terminatorsFrom : Nat → List (List Char) → List Finding
  | _, [] => []
  | n, line :: rest => terminatorsOnLine n line ++ terminatorsFrom (n + 1) rest

def terminators (lines : List (List Char)) : List Finding := terminatorsFrom 1 lines

end FlexGate.Analysis
