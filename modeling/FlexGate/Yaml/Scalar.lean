import FlexGate.Yaml.Fault

/-!
Reading of scalars: plain and quoted ones, whose line breaks are folded into spaces, and block
scalars, which keep their lines or fold them, with the chosen treatment of the breaks at the end.
-/

set_option autoImplicit false
set_option relaxedAutoImplicit false

namespace FlexGate.Yaml

inductive ScalarStyle
  | plain
  | singleQuoted
  | doubleQuoted
  | literal
  | folded
  deriving DecidableEq, Repr

/-- Gaps and line breaks between the words of a scalar. -/
structure Between where
  broken : Bool := false
  gaps : List Char := []
  firstBreak : List Char := []
  moreBreaks : List Char := []
  deriving DecidableEq, Repr

namespace Between

/-- What stands in the scalar for the gaps and breaks: a single break becomes a space. -/
def folded (b : Between) : List Char :=
  if b.broken then
    if b.firstBreak.head? = some '\n' then
      if b.moreBreaks = [] then [' '] else b.moreBreaks
    else b.firstBreak ++ b.moreBreaks
  else b.gaps

def addGap (c : Char) (b : Between) : Between :=
  if b.broken then b else { b with gaps := b.gaps ++ [c] }

def addBreak (text : List Char) (b : Between) : Between :=
  if b.broken then { b with moreBreaks := b.moreBreaks ++ text }
  else { broken := true, gaps := [], firstBreak := text, moreBreaks := b.moreBreaks }

/-- Reads gaps and breaks. A tab before the given column of a later line is refused, where it
stands. -/
def read (indent : Nat) : Between → Mark → List Char → Except Place (Between × Place)
  | b, m, [] => .ok (b, ⟨m, []⟩)
  | b, m, '\r' :: '\n' :: rest => read indent (b.addBreak ['\n']) (m.newLine 2) rest
  | b, m, c :: rest =>
    if isGap c then
      if b.broken && c == '\t' && decide (m.column < indent) then .error ⟨m, c :: rest⟩
      else read indent (b.addGap c) (m.step c) rest
    else if isBreak c then
      read indent (b.addBreak (breakText [c])) (m.newLine c.utf8Size) rest
    else .ok (b, ⟨m, c :: rest⟩)

end Between

namespace Scalar

def flowMarks : List Char := [',', '?', '[', ']', '{', '}']

def flowEnds : List Char := [',', '[', ']', '{', '}']

/-- Whether a plain scalar ends before these characters. -/
def endsPlain (inFlow : Bool) : List Char → Bool
  | [] => true
  | ':' :: rest => endsWord rest
  | c :: _ => isGap c || isBreak c || (inFlow && flowEnds.contains c)

/-- A colon that is neither the end of a key nor part of a word. -/
def badColon (inFlow : Bool) : List Char → Bool
  | ':' :: c :: _ => inFlow && flowMarks.contains c
  | _ => false

/-- A run of characters of a plain scalar, and whether it stopped at a bad colon. -/
def plainRun (inFlow : Bool) : Mark → List Char → List Char × Place × Bool
  | m, [] => ([], ⟨m, []⟩, false)
  | m, c :: rest =>
    if isGap c || isBreak c then ([], ⟨m, c :: rest⟩, false)
    else if badColon inFlow (c :: rest) then ([], ⟨m, c :: rest⟩, true)
    else if endsPlain inFlow (c :: rest) then ([], ⟨m, c :: rest⟩, false)
    else
      let (run, p, bad) := plainRun inFlow (m.step c) rest
      (c :: run, p, bad)

/-- A plain scalar as read: its text, where it ends, what follows, and whether a line break came
after it. -/
structure Plain where
  text : List Char
  stop : Mark
  after : Place
  broken : Bool

def plainFrom (inFlow : Bool) (indent : Nat) (start : Mark) :
    Nat → List Char → Between → Mark → Place → Except Fault Plain
  | 0, text, between, stop, p => .ok ⟨text, stop, p, between.broken⟩
  | fuel + 1, text, between, stop, p =>
    if p.atDocumentMark || p.headIs '#' then .ok ⟨text, stop, p, between.broken⟩
    else
      let (run, q, bad) := plainRun inFlow p.mark p.rest
      if bad then faultIn "while scanning a plain scalar" start "found unexpected ':'" q
      else if run = [] then .ok ⟨text, stop, q, between.broken⟩
      else
        let text := text ++ between.folded ++ run
        if !(q.atGap || q.atBreak) then .ok ⟨text, q.mark, q, false⟩
        else
          match Between.read indent {} q.mark q.rest with
          | .error tab =>
            faultIn "while scanning a plain scalar" start
              "found a tab character that violates indentation" tab
          | .ok (between, after) =>
            if !inFlow && decide (after.mark.column < indent) then
              .ok ⟨text, q.mark, after, between.broken⟩
            else plainFrom inFlow indent start fuel text between q.mark after

/-- Reads a plain scalar whose further lines stand at least at the given column. -/
def plain (inFlow : Bool) (indent : Nat) (p : Place) : Except Fault Plain :=
  plainFrom inFlow indent p.mark (p.rest.length + 1) [] {} p.mark p

/-- The character for a letter after a backslash. -/
def simpleEscape? (c : Char) : Option Char :=
  match c with
  | '0' => some '\x00'
  | 'a' => some '\x07'
  | 'b' => some '\x08'
  | 't' => some '\t'
  | '\t' => some '\t'
  | 'n' => some '\n'
  | 'v' => some '\x0b'
  | 'f' => some '\x0c'
  | 'r' => some '\r'
  | 'e' => some '\x1b'
  | ' ' => some ' '
  | '"' => some '"'
  | '/' => some '/'
  | '\\' => some '\\'
  | 'N' => some '\u0085'
  | '_' => some '\u00a0'
  | 'L' => some '\u2028'
  | 'P' => some '\u2029'
  | _ => none

/-- How many hexadecimal digits follow a letter after a backslash. -/
def escapeLength? (c : Char) : Option Nat :=
  match c with
  | 'x' => some 2
  | 'u' => some 4
  | 'U' => some 8
  | _ => none

def hexValue? (c : Char) : Option Nat :=
  if '0' ≤ c ∧ c ≤ '9' then some (c.toNat - '0'.toNat)
  else if 'a' ≤ c ∧ c ≤ 'f' then some (c.toNat - 'a'.toNat + 10)
  else if 'A' ≤ c ∧ c ≤ 'F' then some (c.toNat - 'A'.toNat + 10)
  else none

/-- A number of hexadecimal digits, exactly. -/
def hexNumber? : Nat → Nat → List Char → Option Nat
  | 0, n, _ => some n
  | _ + 1, _, [] => none
  | k + 1, n, c :: rest => (hexValue? c).bind fun d ↦ hexNumber? k (n * 16 + d) rest

/-- An escape sequence that stands for a character, at a backslash. -/
def escape (start : Mark) (p : Place) : Except Fault (Char × Place) :=
  let letter := (p.rest.drop 1).head?
  match letter.bind simpleEscape? with
  | some c => .ok (c, p.skip 2)
  | none =>
    match letter.bind escapeLength? with
    | none => faultIn "while parsing a quoted scalar" start "found unknown escape character" p
    | some length =>
      let p := p.skip 2
      match hexNumber? length 0 p.rest with
      | none =>
        faultIn "while parsing a quoted scalar" start "did not find expected hexadecimal number" p
      | some n =>
        if (0xD800 ≤ n ∧ n ≤ 0xDFFF) ∨ 0x10FFFF < n then
          faultIn "while parsing a quoted scalar" start
            "found invalid Unicode character escape code" p
        else .ok (Char.ofNat n, p.skip length)

def quote (single : Bool) : Char := if single then '\'' else '"'

/-- A run of characters of a quoted scalar, and whether it ended with an escaped line break. -/
def quotedRun (single : Bool) (start : Mark) :
    Nat → List Char → Place → Except Fault (List Char × Place × Bool)
  | 0, text, p => .ok (text, p, false)
  | fuel + 1, text, p =>
    match p.rest with
    | [] => .ok (text, p, false)
    | c :: rest =>
      if isGap c || isBreak c then .ok (text, p, false)
      else if single && c == '\'' && rest.head? == some '\'' then
        quotedRun single start fuel (text ++ ['\'']) (p.skip 2)
      else if c == quote single then .ok (text, p, false)
      else if !single && c == '\\' && rest.head?.any isBreak then
        .ok (text, p.next.nextLine, true)
      else if !single && c == '\\' then
        match escape start p with
        | .error e => .error e
        | .ok (d, p) => quotedRun single start fuel (text ++ [d]) p
      else quotedRun single start fuel (text ++ [c]) p.next

def quotedFrom (single : Bool) (start : Mark) :
    Nat → List Char → Place → Except Fault (List Char × Place)
  | 0, text, p => .ok (text, p)
  | fuel + 1, text, p =>
    if p.atDocumentMark then
      faultIn "while scanning a quoted scalar" start "found unexpected document indicator" p
    else if p.rest = [] then
      faultIn "while scanning a quoted scalar" start "found unexpected end of stream" p
    else
      match quotedRun single start (p.rest.length + 1) text p with
      | .error e => .error e
      | .ok (text, p, escapedBreak) =>
        if p.headIs (quote single) then .ok (text, p.next)
        else
          match Between.read 0 { broken := escapedBreak } p.mark p.rest with
          | .error tab => .ok (text, tab)
          | .ok (between, p) => quotedFrom single start fuel (text ++ between.folded) p

/-- Reads a quoted scalar at its opening quote. Gives its text and what follows the closing one. -/
def quoted (single : Bool) (p : Place) : Except Fault (List Char × Place) :=
  quotedFrom single p.mark (p.rest.length + 1) [] p.next

/-- What is done with the line breaks at the end of a block scalar. -/
inductive Chomping
  | strip
  | clip
  | keep
  deriving DecidableEq, Repr

def chomping? : List Char → Option Chomping
  | '+' :: _ => some .keep
  | '-' :: _ => some .strip
  | _ => none

structure BlockHeader where
  chomping : Chomping := .clip
  increment : Nat := 0

def blockContext : String := "while scanning a block scalar"

def increment (start : Mark) (h : BlockHeader) (p : Place) : Except Fault (BlockHeader × Place) :=
  match p.rest with
  | c :: _ =>
    if c == '0' then
      faultIn blockContext start "found an indentation indicator equal to 0" p
    else if '1' ≤ c && c ≤ '9' then
      .ok ({ h with increment := c.toNat - '0'.toNat }, p.next)
    else .ok (h, p)
  | [] => .ok (h, p)

/-- The indicators after the first character of a block scalar, in either order. -/
def blockHeader (start : Mark) (p : Place) : Except Fault (BlockHeader × Place) :=
  match chomping? p.rest with
  | some chomping => increment start { chomping := chomping } p.next
  | none =>
    match increment start {} p with
    | .error e => .error e
    | .ok (h, q) =>
      match chomping? q.rest with
      | some chomping =>
        if h.increment = 0 then .ok (h, q) else .ok ({ h with chomping := chomping }, q.next)
      | none => .ok (h, q)

/-- The empty lines before a line of a block scalar. -/
structure Blanks where
  breaks : List Char
  widest : Nat
  stop : Mark
  after : Place

/-- Skips indentation up to a column; with no column set, all of it. -/
def skipIndent (indent : Nat) : Mark → List Char → Place
  | m, [] => ⟨m, []⟩
  | m, c :: rest =>
    if c = ' ' ∧ (indent = 0 ∨ m.column < indent) then skipIndent indent (m.step c) rest
    else ⟨m, c :: rest⟩

def blanksFrom (start : Mark) (indent : Nat) : Nat → Blanks → Except Fault Blanks
  | 0, b => .ok b
  | fuel + 1, b =>
    let p := skipIndent indent b.after.mark b.after.rest
    let b := { b with widest := max b.widest p.mark.column, after := p }
    if p.headIs '\t' && (indent == 0 || decide (p.mark.column < indent)) then
      faultIn blockContext start
        "found a tab character where an indentation space is expected" p
    else if p.atBreak then
      let q := p.nextLine
      blanksFrom start indent fuel
        { b with breaks := b.breaks ++ breakText p.rest, stop := q.mark, after := q }
    else .ok b

def blanks (start : Mark) (indent : Nat) (p : Place) : Except Fault Blanks :=
  blanksFrom start indent (p.rest.length + 1) ⟨[], 0, p.mark, p⟩

/-- The lines of a block scalar. The last break and the empty lines after it are not yet part of
the text. -/
structure Lines where
  text : List Char := []
  lastBreak : List Char := []
  leadingGap : Bool := false
  blanks : Blanks

def addLine (literal : Bool) (lines : Lines) : Lines :=
  let p := lines.blanks.after
  let startsWithGap := p.atGap
  let joined :=
    if !literal && lines.lastBreak.head? == some '\n' && !lines.leadingGap && !startsWithGap then
      if lines.blanks.breaks = [] then [' '] else lines.blanks.breaks
    else lines.lastBreak ++ lines.blanks.breaks
  let content := p.rest.takeWhile fun c ↦ !isBreak c
  let q := p.skip content.length
  { text := lines.text ++ joined ++ content
    lastBreak := breakText q.rest
    leadingGap := startsWithGap
    blanks := ⟨[], 0, q.nextLine.mark, q.nextLine⟩ }

def linesFrom (literal : Bool) (start : Mark) (indent : Nat) : Nat → Lines → Except Fault Lines
  | 0, lines => .ok lines
  | fuel + 1, lines =>
    let p := lines.blanks.after
    if p.mark.column = indent ∧ p.rest ≠ [] then
      let next := addLine literal lines
      match blanks start indent next.blanks.after with
      | .error e => .error e
      | .ok b => linesFrom literal start indent fuel { next with blanks := b }
    else .ok lines

def chomped (chomping : Chomping) (lines : Lines) : List Char :=
  match chomping with
  | .strip => lines.text
  | .clip => lines.text ++ lines.lastBreak
  | .keep => lines.text ++ lines.lastBreak ++ lines.blanks.breaks

/-- Reads a block scalar at its first character. The column of the enclosing block is one less
than the given one. Gives the text, where it ends and what follows. -/
def block (literal : Bool) (parent : Nat) (p : Place) :
    Except Fault (List Char × Mark × Place) := do
  let start := p.mark
  let (header, p) ← blockHeader start p.next
  let p := p.skipComment
  if !(p.rest.isEmpty || p.atBreak) then
    faultIn blockContext start "did not find expected comment or line break" p
  else
    let p := p.nextLine
    let fixed := if header.increment = 0 then 0 else parent - 1 + header.increment
    let b ← blanks start fixed p
    let indent := if fixed = 0 then max (max b.widest parent) 1 else fixed
    let lines ← linesFrom literal start indent (b.after.rest.length + 1) { blanks := b }
    return (chomped header.chomping lines, lines.blanks.stop, lines.blanks.after)

end Scalar

end FlexGate.Yaml
