/-!
Places in a YAML text. Lines and columns count from zero here and from one in messages.
-/

set_option autoImplicit false
set_option relaxedAutoImplicit false

namespace FlexGate.Yaml

structure Mark where
  /-- How many bytes stand before the place. -/
  index : Nat := 0
  line : Nat := 0
  column : Nat := 0
  deriving DecidableEq, Repr

namespace Mark

/-- After a character that ends no line. -/
def step (c : Char) (m : Mark) : Mark :=
  { m with index := m.index + c.utf8Size, column := m.column + 1 }

/-- After characters that end no line. -/
def advance (text : List Char) (m : Mark) : Mark := text.foldl (fun m c ↦ m.step c) m

/-- After a line break of some bytes. -/
def newLine (m : Mark) (length : Nat) : Mark :=
  { index := m.index + length, line := m.line + 1, column := 0 }

/-- The very start of a text is not worth naming in a message. -/
def isStart (m : Mark) : Bool := m.line == 0 && m.column == 0

def sameSpot (m n : Mark) : Bool := m.line == n.line && m.column == n.column

def text (m : Mark) : String :=
  "line " ++ toString (m.line + 1) ++ " column " ++ toString (m.column + 1)

end Mark

def isBreak (c : Char) : Bool :=
  c == '\n' || c == '\r' || c == '\u0085' || c == '\u2028' || c == '\u2029'

def isGap (c : Char) : Bool := c == ' ' || c == '\t'

/-- What ends a token: a gap, a line break or the end of the text. -/
def endsWord : List Char → Bool
  | [] => true
  | c :: _ => isGap c || isBreak c

/-- A mark with the text from there on. -/
structure Place where
  mark : Mark
  rest : List Char
  deriving DecidableEq, Repr

namespace Place

def next (p : Place) : Place :=
  match p.rest with
  | [] => p
  | c :: rest => ⟨p.mark.step c, rest⟩

def skip (n : Nat) (p : Place) : Place := ⟨p.mark.advance (p.rest.take n), p.rest.drop n⟩

def nextLine (p : Place) : Place :=
  match p.rest with
  | [] => p
  | '\r' :: '\n' :: rest => ⟨p.mark.newLine 2, rest⟩
  | c :: rest => ⟨p.mark.newLine c.utf8Size, rest⟩

def atBreak (p : Place) : Bool := p.rest.head?.any isBreak

def atGap (p : Place) : Bool := p.rest.head?.any isGap

/-- How many bytes the text up to its end has, those before the place included. -/
def stop (p : Place) : Nat := (p.mark.advance p.rest).index

def startsWith (s : String) (p : Place) : Bool := s.toList.isPrefixOf p.rest

def headIs (c : Char) (p : Place) : Bool := p.rest.head? == some c

/-- Skips characters of a kind. -/
def skipWhile (f : Char → Bool) (p : Place) : Place := p.skip (p.rest.takeWhile f).length

/-- Skips gaps and a comment, up to a line break. -/
def skipComment (p : Place) : Place :=
  let p := p.skipWhile isGap
  if p.headIs '#' then p.skipWhile fun c ↦ !isBreak c else p

/-- Three dashes or three dots alone at the start of a line. -/
def atDocumentMark (p : Place) : Bool :=
  p.mark.column == 0 && (p.startsWith "---" || p.startsWith "...") && endsWord (p.rest.drop 3)

end Place

/-- What a line break stands for in a scalar. -/
def breakText : List Char → List Char
  | [] => []
  | '\u2028' :: _ => ['\u2028']
  | '\u2029' :: _ => ['\u2029']
  | _ => ['\n']

end FlexGate.Yaml
