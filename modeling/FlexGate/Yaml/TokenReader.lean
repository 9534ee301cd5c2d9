import FlexGate.Yaml.Property

/-!
Reading of tokens. Whether a word is a key is known only when the colon after it is seen, and a
block starts or ends where the indentation says so. Tokens therefore wait in a queue: a token is
handed out when no key can come to stand before it any more.
-/

set_option autoImplicit false
set_option relaxedAutoImplicit false

namespace FlexGate.Yaml

/-- A place where a key may turn out to have started, with the number of the token there. -/
structure KeyStart where
  number : Nat
  mark : Mark
  required : Bool
  deriving DecidableEq, Repr

structure TokenReader where
  place : Place
  /-- What is wrong with the text after the end, if it goes on. -/
  beyond : Option Fault := none
  queue : List Token := []
  /-- How many tokens were handed out. -/
  taken : Nat := 0
  /-- A possible key for the block context and for each open flow collection, innermost first. -/
  keys : List (Option KeyStart) := [none]
  /-- The column of the innermost block, plus one; zero outside every block. -/
  indent : Nat := 0
  outerIndents : List Nat := []
  keyAllowed : Bool := true
  atEnd : Bool := false

namespace TokenReader

def start (text : List Char) (beyond : Option Fault) : TokenReader :=
  { place := ⟨{}, text⟩, beyond := beyond }

def inFlow (r : TokenReader) : Bool := decide (1 < r.keys.length)

def mark (r : TokenReader) : Mark := r.place.mark

def push (kind : TokenKind) (start stop : Mark) (r : TokenReader) : TokenReader :=
  { r with queue := r.queue ++ [⟨kind, start, stop⟩] }

def moveTo (p : Place) (r : TokenReader) : TokenReader := { r with place := p }

def missingColon {α : Type} (k : KeyStart) (r : TokenReader) : Except Fault α :=
  faultIn "while scanning a simple key" k.mark "could not find expected ':'" r.place

/-- A key stands on one line and takes at most 1024 bytes. -/
def isStale (now : Mark) (k : KeyStart) : Bool :=
  decide (k.mark.line < now.line) || decide (k.mark.index + 1024 < now.index)

def dropStale (r : TokenReader) : Except Fault TokenReader :=
  match r.keys.reverse.find? fun k ↦ k.any fun k ↦ isStale r.mark k && k.required with
  | some (some k) => r.missingColon k
  | _ => .ok { r with keys := r.keys.map fun k ↦ k.filter fun k ↦ !isStale r.mark k }

def setKey (k : Option KeyStart) (r : TokenReader) : TokenReader :=
  { r with keys := k :: r.keys.drop 1 }

def innerKey (r : TokenReader) : Option KeyStart := r.keys.head?.join

def dropKey (r : TokenReader) : Except Fault TokenReader :=
  match r.innerKey with
  | some k => if k.required then r.missingColon k else .ok (r.setKey none)
  | none => .ok (r.setKey none)

/-- Notes that a key may start here. -/
def noteKey (r : TokenReader) : Except Fault TokenReader :=
  if r.keyAllowed then do
    let required := !r.inFlow && r.indent == r.mark.column + 1
    let r ← r.dropKey
    return r.setKey (some ⟨r.taken + r.queue.length, r.mark, required⟩)
  else .ok r

/-- Opens a block at a column if it lies deeper than the innermost one. The token goes before the
one with the given number, or to the end. -/
def openBlock (column : Nat) (number : Option Nat) (kind : TokenKind) (mark : Mark)
    (r : TokenReader) : TokenReader :=
  if !r.inFlow && decide (r.indent < column + 1) then
    let token : Token := ⟨kind, mark, mark⟩
    let spot := (number.map (· - r.taken)).getD r.queue.length
    { r with
      indent := column + 1
      outerIndents := r.indent :: r.outerIndents
      queue := r.queue.take spot ++ token :: r.queue.drop spot }
  else r

/-- Closes the blocks that are indented by more than a width. -/
def closeBlocks (width : Nat) (r : TokenReader) : TokenReader :=
  if r.inFlow then r else
    let (indent, outer, closed) := close width r.indent r.outerIndents
    { r with
      indent := indent
      outerIndents := outer
      queue := r.queue ++ List.replicate closed ⟨.blockEnd, r.mark, r.mark⟩ }
where
  close (width indent : Nat) : List Nat → Nat × List Nat × Nat
    | [] => (indent, [], 0)
    | outer :: rest =>
      if width < indent then
        let (i, o, n) := close width outer rest
        (i, o, n + 1)
      else (indent, outer :: rest, 0)

/-- Skips gaps, comments and line breaks, and a byte order mark that starts the text. -/
def skipToToken : Nat → TokenReader → TokenReader
  | 0, r => r
  | fuel + 1, r =>
    let p := if r.mark.index = 0 ∧ r.place.headIs '\uFEFF' then r.place.next else r.place
    let tabs := r.inFlow || !r.keyAllowed
    let p := p.skipWhile fun c ↦ c == ' ' || (tabs && c == '\t')
    let p := if p.headIs '#' then p.skipWhile fun c ↦ !isBreak c else p
    if p.atBreak then
      skipToToken fuel { r with place := p.nextLine, keyAllowed := r.keyAllowed || !r.inFlow }
    else { r with place := p }

def fetchEnd (r : TokenReader) : Except Fault TokenReader := do
  let mark :=
    if r.mark.column = 0 then r.mark else { r.mark with line := r.mark.line + 1, column := 0 }
  let r := (r.moveTo ⟨mark, []⟩).closeBlocks 0
  let r ← r.dropKey
  return { (r.push .textEnd mark mark) with keyAllowed := false, atEnd := true }

def fetchDirective (r : TokenReader) : Except Fault TokenReader := do
  let r ← (r.closeBlocks 0).dropKey
  let (token, p) ← Property.directive r.place
  return { r with queue := r.queue ++ [token], place := p, keyAllowed := false }

def fetchDocumentMark (kind : TokenKind) (r : TokenReader) : Except Fault TokenReader := do
  let r ← (r.closeBlocks 0).dropKey
  let p := r.place.skip 3
  return { (r.push kind r.mark p.mark) with place := p, keyAllowed := false }

/-- A token of one character. -/
def takeChar (kind : TokenKind) (r : TokenReader) : TokenReader :=
  (r.push kind r.mark r.place.next.mark).moveTo r.place.next

def fetchFlowStart (kind : TokenKind) (r : TokenReader) : Except Fault TokenReader := do
  let r ← r.noteKey
  return ({ r with keys := none :: r.keys, keyAllowed := true }).takeChar kind

def fetchFlowEnd (kind : TokenKind) (r : TokenReader) : Except Fault TokenReader := do
  let r ← r.dropKey
  let keys := if r.inFlow then r.keys.drop 1 else r.keys
  return ({ r with keys := keys, keyAllowed := false }).takeChar kind

def fetchFlowEntry (r : TokenReader) : Except Fault TokenReader := do
  let r ← r.dropKey
  return ({ r with keyAllowed := true }).takeChar .flowEntry

/-- Refuses an indicator of the block context where none may stand. -/
def refuse {α : Type} (problem : String) (r : TokenReader) : Except Fault α :=
  .error (.malformed problem r.mark none)

def fetchBlockEntry (r : TokenReader) : Except Fault TokenReader := do
  if !r.inFlow && !r.keyAllowed then
    r.refuse "block sequence entries are not allowed in this context"
  else
    let r ← (r.openBlock r.mark.column none .blockSequence r.mark).dropKey
    return ({ r with keyAllowed := true }).takeChar .blockEntry

def fetchKey (r : TokenReader) : Except Fault TokenReader := do
  if !r.inFlow && !r.keyAllowed then
    r.refuse "mapping keys are not allowed in this context"
  else
    let r ← (r.openBlock r.mark.column none .blockMapping r.mark).dropKey
    return ({ r with keyAllowed := !r.inFlow }).takeChar .key

def insertKey (k : KeyStart) (r : TokenReader) : TokenReader :=
  let token : Token := ⟨.key, k.mark, k.mark⟩
  let spot := k.number - r.taken
  let r := { r with queue := r.queue.take spot ++ token :: r.queue.drop spot }
  (r.openBlock k.mark.column (some k.number) .blockMapping k.mark).setKey none

def fetchValue (r : TokenReader) : Except Fault TokenReader :=
  match r.innerKey with
  | some k => .ok (({ (r.insertKey k) with keyAllowed := false }).takeChar .value)
  | none =>
    if !r.inFlow && !r.keyAllowed then
      r.refuse "mapping values are not allowed in this context"
    else
      let r := r.openBlock r.mark.column none .blockMapping r.mark
      .ok (({ r with keyAllowed := !r.inFlow }).takeChar .value)

/-- A token that may be a key or the start of one. -/
def fetchWord (read : Place → Except Fault (Token × Place)) (r : TokenReader) :
    Except Fault TokenReader := do
  let r ← r.noteKey
  let (token, p) ← read r.place
  return { r with queue := r.queue ++ [token], place := p, keyAllowed := false }

def fetchQuoted (single : Bool) : TokenReader → Except Fault TokenReader :=
  fetchWord fun p ↦ do
    let (text, q) ← Scalar.quoted single p
    return (⟨.scalar (if single then .singleQuoted else .doubleQuoted) text, p.mark, q.mark⟩, q)

def fetchPlain (r : TokenReader) : Except Fault TokenReader := do
  let r ← r.noteKey
  let s ← Scalar.plain r.inFlow r.indent r.place
  return { (r.push (.scalar .plain s.text) r.mark s.stop) with
    place := s.after, keyAllowed := s.broken }

def fetchBlock (literal : Bool) (r : TokenReader) : Except Fault TokenReader := do
  let r ← r.dropKey
  let (text, stop, p) ← Scalar.block literal r.indent r.place
  return { (r.push (.scalar (if literal then .literal else .folded) text) r.mark stop) with
    place := p, keyAllowed := true }

def indicators : List Char := "-?:,[]{}#&*!|>'\"%@`".toList

/-- Whether a plain scalar can start with these characters. -/
def startsPlain (inFlow : Bool) : List Char → Bool
  | [] => false
  | c :: rest =>
    !(isGap c || isBreak c || indicators.contains c) ||
      (c == '-' && !rest.head?.any isGap) ||
      (!inFlow && (c == '?' || c == ':') && !endsWord rest)

/-- Reads one token where it stands. -/
def fetchHere (r : TokenReader) : Except Fault TokenReader :=
  match r.place.rest with
  | [] => r.fetchEnd
  | c :: rest =>
    let apart := endsWord rest
    if r.mark.column = 0 ∧ c = '%' then r.fetchDirective
    else if r.place.atDocumentMark then
      r.fetchDocumentMark (if c = '-' then .documentStart else .documentEnd)
    else if c = '[' then r.fetchFlowStart .flowSequence
    else if c = '{' then r.fetchFlowStart .flowMapping
    else if c = ']' then r.fetchFlowEnd .flowSequenceEnd
    else if c = '}' then r.fetchFlowEnd .flowMappingEnd
    else if c = ',' then r.fetchFlowEntry
    else if c = '-' ∧ apart then r.fetchBlockEntry
    else if c = '?' ∧ (r.inFlow ∨ apart) then r.fetchKey
    else if c = ':' ∧ (r.inFlow ∨ apart) then r.fetchValue
    else if c = '*' then r.fetchWord (Property.anchor true)
    else if c = '&' then r.fetchWord (Property.anchor false)
    else if c = '!' then r.fetchWord (Property.tag r.inFlow)
    else if c = '|' ∧ !r.inFlow then r.fetchBlock true
    else if c = '>' ∧ !r.inFlow then r.fetchBlock false
    else if c = '\'' then r.fetchQuoted true
    else if c = '"' then r.fetchQuoted false
    else if startsPlain r.inFlow r.place.rest then r.fetchPlain
    else
      faultIn "while scanning for the next token" r.mark
        "found character that cannot start any token" r.place

/-- Refuses to look at more characters than there are, when the text goes on after its end. -/
def looking (width : Nat) (r : TokenReader) : Except Fault TokenReader :=
  match r.beyond with
  | some fault => if (r.place.rest.drop (width - 1)).isEmpty then .error fault else .ok r
  | none => .ok r

/-- What is wrong at the end is wrong with the text after it, when the text goes on. -/
def faultBefore (r : TokenReader) (fault : Fault) : Fault :=
  match r.beyond with
  | some beyond => if fault.mark.index < r.place.stop then fault else beyond
  | none => fault

/-- Reads one token, after the blocks that end before it are closed. -/
def fetch (r : TokenReader) : Except Fault TokenReader := do
  let r ← (r.skipToToken (r.place.rest.length + 1)).dropStale
  let r ← r.looking 4
  let next ← ((r.closeBlocks (r.mark.column + 1)).fetchHere).mapError r.faultBefore
  next.looking 1

/-- Hands out the token at the head of the queue once it can stay there. -/
def take : Nat → TokenReader → Except Fault (Token × TokenReader)
  | 0, r => r.refuse "the text is too long"
  | fuel + 1, r =>
    match r.queue with
    | [] => do take fuel (← r.fetch)
    | token :: rest => do
      let r ← r.dropStale
      if r.keys.any fun k ↦ k.any fun k ↦ k.number == r.taken then take fuel (← r.fetch)
      else return (token, { r with queue := rest, taken := r.taken + 1 })

end TokenReader

/-- Tokens in order, and the fault that ended the reading, if one did. -/
structure Tokens where
  tokens : List Token
  fault : Option Fault

namespace Tokens

def collect (length : Nat) : Nat → TokenReader → Tokens
  | 0, _ => ⟨[], none⟩
  | fuel + 1, r =>
    match r.take (length + 3) with
    | .error fault => ⟨[], some fault⟩
    | .ok (token, r) =>
      if token.kind = .textEnd then ⟨[token], none⟩
      else
        let rest := collect length fuel r
        ⟨token :: rest.tokens, rest.fault⟩

/-- The tokens of a text, and what is wrong after its end, if it goes on. A character gives rise to
at most a few of them. -/
def ofText (text : List Char) (beyond : Option Fault) : Tokens :=
  collect text.length (6 * text.length + 6) (TokenReader.start text beyond)

end Tokens

end FlexGate.Yaml
