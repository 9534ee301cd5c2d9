import FlexGate.Text.Line
import FlexGate.Vocabulary

/-!
Bounds of inclusive loops. An `l7d` loop runs while its counter is at most the bound, so a bound
that is the number of elements reads one past the end. Such a bound is critical unless it carries
an adjustment, and it is mended by subtracting one from each call that gives a number of elements.
-/

set_option autoImplicit false
set_option relaxedAutoImplicit false

namespace FlexGate

/-- The header of an inclusive loop as it stands on a line. -/
structure LoopHeader where
  /-- Position of the bound on the line. -/
  start : Nat
  /-- The bound with the blanks that follow it. -/
  bound : List Char
  /-- Position after the opening brace. -/
  stop : Nat
  deriving DecidableEq

namespace LoopBound

/-- The spellings of an adjustment. -/
def adjustments : List String := ["- 1", "-1"]

/-- What mending puts after a call. -/
def correction : List Char := " - 1".toList

def isAdjusted (bound : List Char) : Bool :=
  adjustments.any fun a ↦ Text.hasInfix a.toList bound

def callsLength (bound : List Char) : Bool := Shape.lengthCall.occursIn bound

def isCritical (bound : List Char) : Bool := callsLength bound && !isAdjusted bound

/-- Puts a mark at each of the given positions. The number is the position of the first
character. -/
def insertAt (mark : List Char) (positions : List Nat) : Nat → List Char → List Char
  | n, [] => if n ∈ positions then mark else []
  | n, c :: rest =>
    (if n ∈ positions then mark else []) ++ c :: insertAt mark positions (n + 1) rest

/-- Where the calls in a bound end. -/
def callEnds (bound : List Char) : List Nat := (Shape.lengthCall.findAll bound).map Match.stop

/-- The bound with one subtracted from each call. -/
def adjust (bound : List Char) : List Char := insertAt correction (callEnds bound) 0 bound

@[simp] theorem insertAt_nil (mark : List Char) (n : Nat) (text : List Char) :
    insertAt mark [] n text = text := by
  induction text generalizing n with
  | nil => simp [insertAt]
  | cons c rest ih => simp [insertAt, ih]

end LoopBound

namespace LoopHeader

/-- The first inclusive loop header on a line. -/
def find? (line : List Char) : Option LoopHeader := do
  let header ← Shape.inclusiveLoop.find? line
  let bound ← header.group? 2
  return ⟨bound.start, bound.text, header.stop⟩

/-- The bound without blanks at either end. -/
def trimmedBound (h : LoopHeader) : List Char := Text.trim h.bound

def isCritical (h : LoopHeader) : Bool := LoopBound.isCritical h.trimmedBound

/-- Position of the first character of the trimmed bound on the line. -/
def trimmedStart (h : LoopHeader) : Nat := h.start + (h.bound.takeWhile Text.isBlank).length

/-- Position on the line of the call that makes the bound critical. -/
def callPosition (h : LoopHeader) : Nat :=
  h.start + ((Shape.lengthCall.find? h.bound).map Match.start).getD 0

end LoopHeader

end FlexGate
