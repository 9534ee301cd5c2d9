import FlexGate.Text.Blank
import FlexGate.Text.Digit
import FlexGate.Text.Word

/-!
Patterns of text as data, and the way one is read at a position. A repetition is greedy, the left
side of a choice is tried first, and the first complete reading wins, so a pattern has at most one
match at a position. Only single characters are repeated, which makes reading a structural
recursion on the pattern and on the text ahead.
-/

set_option autoImplicit false
set_option relaxedAutoImplicit false

namespace FlexGate

inductive CharClass
  | only (c : Char)
  | allBut (c : Char)
  | between (low high : Char)
  | word
  | digit
  | blank
  deriving DecidableEq

def CharClass.has : CharClass → Char → Bool
  | .only d, c => c == d
  | .allBut d, c => c != d
  | .between low high, c => low ≤ c && c ≤ high
  | .word, c => Text.isWord c
  | .digit, c => Text.isDigit c
  | .blank, c => Text.isBlank c

/-- A condition on a position that reads no character. -/
inductive Edge
  | word
  | textStart
  | textEnd
  deriving DecidableEq

inductive Pattern
  | nothing
  | char (s : CharClass)
  | many (s : CharClass)
  | edge (e : Edge)
  | seq (first second : Pattern)
  | either (first second : Pattern)
  | group (number : Nat) (body : Pattern)
  deriving DecidableEq

/-- A position in a text: the characters behind it, nearest first, and those ahead of it. -/
structure Cursor where
  behind : List Char
  ahead : List Char
  deriving DecidableEq

namespace Cursor

def position (c : Cursor) : Nat := c.behind.length

def text (c : Cursor) : List Char := c.behind.reverse ++ c.ahead

/-- Whether the first of some characters is a word character. -/
def leadsWithWord : List Char → Bool
  | [] => false
  | c :: _ => Text.isWord c

end Cursor

def Edge.holds (e : Edge) (c : Cursor) : Bool :=
  match e with
  | .word => Cursor.leadsWithWord c.behind != Cursor.leadsWithWord c.ahead
  | .textStart => c.behind.isEmpty
  | .textEnd => c.ahead.isEmpty

/-- The stretch of text between two positions. -/
structure Span where
  first : Cursor
  last : Cursor
  deriving DecidableEq

namespace Span

def start (s : Span) : Nat := s.first.position

def stop (s : Span) : Nat := s.last.position

def length (s : Span) : Nat := s.stop - s.start

def text (s : Span) : List Char := s.first.ahead.take s.length

end Span

/-- The spans read by numbered groups, the latest first. -/
abbrev Groups := List (Nat × Span)

namespace Pattern

/-- Reads as many characters of the set as the rest of the pattern allows. -/
def readMany {α : Type} (s : CharClass) (rest : Cursor → Option α) :
    List Char → List Char → Option α
  | behind, [] => rest ⟨behind, []⟩
  | behind, x :: ahead =>
    if s.has x then
      match readMany s rest (x :: behind) ahead with
      | some a => some a
      | none => rest ⟨behind, x :: ahead⟩
    else rest ⟨behind, x :: ahead⟩

/-- Reads the pattern at a position and hands each reading, in order of preference, to the rest
until one is accepted. -/
def read {α : Type} : Pattern → (Cursor → Groups → Option α) → Cursor → Groups → Option α
  | .nothing, rest, c, g => rest c g
  | .char s, rest, c, g =>
    match c.ahead with
    | [] => none
    | x :: ahead => if s.has x then rest ⟨x :: c.behind, ahead⟩ g else none
  | .many s, rest, c, g => readMany s (fun d ↦ rest d g) c.behind c.ahead
  | .edge e, rest, c, g => if e.holds c then rest c g else none
  | .seq p q, rest, c, g => p.read (fun d h ↦ q.read rest d h) c g
  | .either p q, rest, c, g =>
    match p.read rest c g with
    | some a => some a
    | none => q.read rest c g
  | .group n p, rest, c, g => p.read (fun d h ↦ rest d ((n, ⟨c, d⟩) :: h)) c g

/-- The numbers of the groups of a pattern, from left to right. -/
def groupNumbers : Pattern → List Nat
  | .group n p => n :: p.groupNumbers
  | .seq p q => p.groupNumbers ++ q.groupNumbers
  | .either p q => p.groupNumbers ++ q.groupNumbers
  | _ => []

def some1 (s : CharClass) : Pattern := .seq (.char s) (.many s)

def optional (p : Pattern) : Pattern := .either p .nothing

/-- The pattern of exactly these characters. -/
def exactly : List Char → Pattern
  | [] => .nothing
  | [c] => .char (.only c)
  | c :: cs => .seq (.char (.only c)) (exactly cs)

def text (s : String) : Pattern := exactly s.toList

def oneOf : List Pattern → Pattern
  | [] => .nothing
  | [p] => p
  | p :: ps => .either p (oneOf ps)

def sequence : List Pattern → Pattern
  | [] => .nothing
  | [p] => p
  | p :: ps => .seq p (sequence ps)

end Pattern

end FlexGate
