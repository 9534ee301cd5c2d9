import FlexGate.LoopBound
import FlexGate.Text.Quoted

/-!
Findings: the defects that make a program unacceptable, each with the line it stands on. A defect
carries what its wording needs; the wording itself is a function of the defect.
-/

set_option autoImplicit false
set_option relaxedAutoImplicit false

namespace FlexGate

inductive FindingKind
  | disallowedTerminator
  | unbalancedBlock
  | criticalLoopBound
  | potentialIndex
  | divisionByZero
  | moduloByZero
  deriving DecidableEq, Repr

def FindingKind.all : List FindingKind :=
  [.disallowedTerminator, .unbalancedBlock, .criticalLoopBound, .potentialIndex, .divisionByZero,
    .moduloByZero]

def FindingKind.name : FindingKind → String
  | .disallowedTerminator => "disallowed_terminator"
  | .unbalancedBlock => "unbalanced_block"
  | .criticalLoopBound => "critical_loop_bound_defect"
  | .potentialIndex => "potential_index_defect"
  | .divisionByZero => "division_by_zero"
  | .moduloByZero => "modulo_by_zero"

inductive Defect
  | terminator
  /-- A closing brace too many, with the line of the nearest header above that lacks its brace. -/
  | closingBrace (header : Option Nat)
  /-- An opening brace too many, with the last line that leaves one open. -/
  | openingBrace (openLine : Option Nat)
  /-- An inclusive loop up to the number of elements, with its bound. -/
  | inclusiveBound (bound : List Char)
  | literalBound
  | zeroDivisor
  | zeroModulus
  deriving DecidableEq

namespace Defect

def kind : Defect → FindingKind
  | .terminator => .disallowedTerminator
  | .closingBrace _ => .unbalancedBlock
  | .openingBrace _ => .unbalancedBlock
  | .inclusiveBound _ => .criticalLoopBound
  | .literalBound => .potentialIndex
  | .zeroDivisor => .divisionByZero
  | .zeroModulus => .moduloByZero

def isCritical (d : Defect) : Bool := d.kind == .criticalLoopBound

def message : Defect → String
  | .terminator => "Semicolons are not allowed in Flex"
  | .closingBrace _ => "Unmatched closing brace"
  | .openingBrace _ => "Unmatched opening brace"
  | .inclusiveBound _ =>
    "Franco l7d loops are INCLUSIVE: this bound causes out-of-bounds array access on the last " ++
      "iteration"
  | .literalBound => "Franco loop with hardcoded limit may cause array access issues"
  | .zeroDivisor => "Division by zero detected"
  | .zeroModulus => "Modulo by zero detected"

def suggestion : Defect → String
  | .terminator => "Remove the semicolon; Flex uses curly braces for code blocks"
  | .closingBrace (some header) =>
    "Line " ++ toString header ++ " starts a block without " ++ Text.inQuotes '{' ++
      "; add it at the end of that line"
  | .closingBrace none => "Add an opening brace " ++ Text.inQuotes '{' ++ " before this line"
  | .openingBrace (some openLine) =>
    "Add closing braces " ++ Text.inQuotes '}' ++
      " to match all opening braces (last unclosed block opens on line " ++ toString openLine ++ ")"
  | .openingBrace none =>
    "Add closing braces " ++ Text.inQuotes '}' ++ " to match all opening braces"
  | .inclusiveBound bound =>
    "Change '" ++ String.ofList bound ++ "' to '" ++ String.ofList (LoopBound.adjust bound) ++
      "' for safe array access"
  | .literalBound => "Verify that the loop limit doesn't exceed array bounds"
  | .zeroDivisor => "Add a check: lw divisor != 0 { ... } before division"
  | .zeroModulus => "Add a check: lw divisor != 0 { ... } before modulo operation"

def rationale : Defect → String
  | .terminator => "Flex statements end at the line break and never take a terminator"
  | .closingBrace _ => "Always match opening and closing braces"
  | .openingBrace _ => "Always match opening and closing braces"
  | .inclusiveBound _ =>
    "l7d runs while the counter is <= the bound, so 'length(array)' indexes one element past the" ++
      " end; always use 'length(array) - 1'"
  | .literalBound => "Use 'length(array) - 1' for array iteration or verify bounds manually"
  | .zeroDivisor => "Always validate divisor is not zero before division operations"
  | .zeroModulus => "Always validate divisor is not zero before modulo operations"

end Defect

/-- A defect at a place. Lines and columns count from one, columns in characters. -/
structure Finding where
  defect : Defect
  line : Nat
  column : Option Nat
  deriving DecidableEq

namespace Finding

def kind (f : Finding) : FindingKind := f.defect.kind

def isCritical (f : Finding) : Bool := f.defect.isCritical

def place (f : Finding) : String :=
  match f.column with
  | some column => " " ++ toString f.line ++ ":" ++ toString column
  | none => " line " ++ toString f.line

/-- The lines of a finding in a text report. -/
def rendered (f : Finding) : List String :=
  ["error[" ++ f.kind.name ++ "]" ++ f.place ++ ": " ++ f.defect.message] ++
    (if f.defect.suggestion.isEmpty then [] else ["  help: " ++ f.defect.suggestion]) ++
    (if f.defect.rationale.isEmpty then [] else ["  why: " ++ f.defect.rationale])

end Finding

end FlexGate
