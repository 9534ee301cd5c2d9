import FlexGate.Finding

/-!
Balance of braces, line by line. The number of open blocks is carried from line to line; a line
that would take it below zero has a closing brace too many, and the count starts again from zero.
Blocks still open at the end are reported once, at the last line.
-/

set_option autoImplicit false
set_option relaxedAutoImplicit false

namespace FlexGate.Analysis

/-- Opening braces less closing braces. -/
def braceBalance (text : List Char) : Int := (text.count '{' : Int) - text.count '}'

/-- The number, counting from one, of the last of some lines with a match of the pattern. -/
def lastLineWith? (p : Pattern) : List (List Char) → Option Nat
  | [] => none
  | line :: rest =>
    match lastLineWith? p rest with
    | some n => some (n + 1)
    | none => if p.occursIn line then some 1 else none

/-- Goes through the lines that follow those already read, with the number of open blocks. -/
def bracesFrom (before : List (List Char)) (depth : Int) : List (List Char) → List Finding
  | [] =>
    if 0 < depth then
      [⟨.openingBrace (lastLineWith? Shape.unclosedBrace before), before.length, none⟩]
    else []
  | line :: rest =>
    let reached := depth + braceBalance line
    if reached < 0 then
      ⟨.closingBrace (lastLineWith? Shape.headerWithoutBrace before), before.length + 1, none⟩ ::
        bracesFrom (before ++ [line]) 0 rest
    else bracesFrom (before ++ [line]) reached rest

def braces (lines : List (List Char)) : List Finding := bracesFrom [] 0 lines

end FlexGate.Analysis
