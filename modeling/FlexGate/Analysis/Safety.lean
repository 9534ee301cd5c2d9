import FlexGate.Finding

/-!
Safety of loops and divisions. On a line, the first inclusive loop header is judged, then the
first division by a literal zero, then the first remainder by one.
-/

set_option autoImplicit false
set_option relaxedAutoImplicit false

namespace FlexGate.Analysis

def inclusiveBoundFinding (line : Nat) (header : LoopHeader) : Finding :=
  ⟨.inclusiveBound header.trimmedBound, line, some (header.callPosition + 1)⟩

/-- The critical loop on a line, if the first loop header there has a critical bound. -/
def criticalLoop? (line : Nat) (text : List Char) : Option Finding := do
  let header ← LoopHeader.find? text
  if header.isCritical then some (inclusiveBoundFinding line header) else none

/-- Whether the bound holds a number and no call that gives a number of elements. -/
def hasLiteralBound (header : LoopHeader) : Bool :=
  Shape.numericLiteral.occursIn header.trimmedBound &&
    !LoopBound.callsLength header.trimmedBound

/-- Whether an element is accessed by index after the header or on one of the lines ahead. -/
def indexedAhead (header : LoopHeader) (text : List Char) (ahead : List (List Char)) : Bool :=
  Shape.indexedAccess.occursIn (text.drop header.stop) ||
    ahead.any fun line ↦ Shape.indexedAccess.occursIn line

/-- The finding on the loop of a line. The lines ahead are those that are searched for an indexed
access. -/
def loopFinding? (line : Nat) (text : List Char) (ahead : List (List Char)) : Option Finding := do
  let header ← LoopHeader.find? text
  if header.isCritical then some (inclusiveBoundFinding line header)
  else if hasLiteralBound header && indexedAhead header text ahead then
    some ⟨.literalBound, line, some (header.start + 1)⟩
  else none

def zeroDivisor? (line : Nat) (text : List Char) : Option Finding :=
  (Shape.divisionByZero.find? text).map fun m ↦ ⟨.zeroDivisor, line, some (m.start + 1)⟩

def zeroModulus? (line : Nat) (text : List Char) : Option Finding :=
  (Shape.moduloByZero.find? text).map fun m ↦ ⟨.zeroModulus, line, some (m.start + 1)⟩

def safetyOnLine (line : Nat) (text : List Char) (ahead : List (List Char)) : List Finding :=
  (loopFinding? line text ahead).toList ++ (zeroDivisor? line text).toList ++
    (zeroModulus? line text).toList

def safetyFrom (lookahead : Nat) : Nat → List (List Char) → List Finding
  | _, [] => []
  | n, line :: rest =>
    safetyOnLine n line (rest.take lookahead) ++ safetyFrom lookahead (n + 1) rest

def safety (lookahead : Nat) (lines : List (List Char)) : List Finding :=
  safetyFrom lookahead 1 lines

def criticalLoopsFrom : Nat → List (List Char) → List Finding
  | _, [] => []
  | n, line :: rest => (criticalLoop? n line).toList ++ criticalLoopsFrom (n + 1) rest

/-- The critical loops alone. -/
def criticalLoops (lines : List (List Char)) : List Finding := criticalLoopsFrom 1 lines

end FlexGate.Analysis
