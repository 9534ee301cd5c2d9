import FlexGate.Shell.Words

/-!
Reading statements. A fault names the token that was not expected, and the one that was where only
one could follow.
-/

set_option autoImplicit false
set_option relaxedAutoImplicit false

namespace FlexGate.Shell

inductive Token
  | word (word : Word)
  /-- A number that stands directly before a redirection. -/
  | channel (number : Nat)
  | operator (text : String)
  | newline
  | finish
  deriving DecidableEq, Repr

/-- A text with the number of the line that it ends on. -/
structure Source where
  text : List Char
  lastLine : Nat
  deriving DecidableEq, Repr

namespace Source

def line (s : Source) : Nat := s.lastLine - s.text.count '\n'

def skipBlanks : List Char → List Char
  | [] => []
  | '\\' :: '\n' :: rest => skipBlanks rest
  | c :: rest => if c = ' ' ∨ c = '\t' then skipBlanks rest else c :: rest

/-- The text without blanks and a comment in front. -/
def skip (text : List Char) : List Char :=
  match skipBlanks text with
  | '#' :: rest => rest.dropWhile (· ≠ '\n')
  | text => text

def operators : List String :=
  ["<<-", "<<", "<&", "<>", ">>", ">&", ">|", "<", ">", ";;", ";", "&&", "&", "||", "|", "(", ")"]

def fault {α : Type} (s : Source) (message : String) : Except SyntaxFault α :=
  .error ⟨s.line, message⟩

/-- The token in front of a source, and the source after it. -/
def next (s : Source) : Except SyntaxFault (Token × Source) :=
  match skip s.text with
  | [] => .ok (.finish, { s with text := [] })
  | '\n' :: rest => .ok (.newline, { s with text := rest })
  | text =>
    match operators.find? fun op ↦ op.toList.isPrefixOf text with
    | some op => .ok (.operator op, { s with text := text.drop op.length })
    | none =>
      let digits := text.takeWhile Char.isDigit
      let after := text.drop digits.length
      if !digits.isEmpty && (after.head? == some '<' || after.head? == some '>') then
        .ok (.channel ((String.ofList digits).toNat?.getD 0), { s with text := after })
      else
        match readWord (text.length + 1) text with
        | .ok (word, rest) => .ok (.word word, { s with text := rest })
        | .error unclosed => .error ⟨s.lastLine, unclosed.message⟩

end Source

/-- The words around a group of statements. -/
def groupStart : String := String.singleton '{'

def groupEnd : String := String.singleton '}'

def reservedWords : List String :=
  ["!", "case", "do", "done", "elif", "else", "esac", "fi", "for", "if", "in", "then", "until",
    "while", groupStart, groupEnd]

/-- Reserved words that a statement cannot begin with. -/
def closingWords : List String :=
  ["!", "do", "done", "elif", "else", "esac", "fi", "in", "then", groupEnd]

def Token.plain? : Token → Option String
  | .word w => (plainText? w).map String.ofList
  | _ => none

def Token.isRedirection : Token → Bool
  | .channel _ => true
  | .operator op => op.startsWith "<" || op.startsWith ">"
  | _ => false

/-- The words for a token in a fault. -/
def Token.describe (t : Token) (reserved : Bool) : String :=
  match t with
  | .word _ =>
    match t.plain? with
    | some text => if reserved && reservedWords.contains text then "\"" ++ text ++ "\"" else "word"
    | none => "word"
  | .channel _ => "redirection"
  | .operator op => if t.isRedirection then "redirection" else "\"" ++ op ++ "\""
  | .newline => "newline"
  | .finish => "end of file"

/-- Something read from a source. -/
abbrev Reader (α : Type) := Source → Except SyntaxFault (α × Source)

namespace Reader

def unexpected {α : Type} (t : Token) (reserved : Bool) (wanted : Option String) : Reader α :=
  fun s ↦ s.fault (t.describe reserved ++ " unexpected" ++
    (match wanted with
      | some w => " (expecting \"" ++ w ++ "\")"
      | none => ""))

def peek : Reader Token := fun s ↦ do
  let (t, _) ← s.next
  return (t, s)

def skipNewlines : Nat → Reader Unit
  | 0, s => .ok ((), s)
  | fuel + 1, s => do
    match ← s.next with
    | (.newline, s) => skipNewlines fuel s
    | _ => return ((), s)

/-- Takes a reserved word that has to follow. -/
def expectWord (wanted : String) : Reader Unit := fun s ↦ do
  let (t, rest) ← s.next
  if t.plain? = some wanted then return ((), rest) else unexpected t true (some wanted) rest

def expectOperator (wanted : String) : Reader Unit := fun s ↦ do
  let (t, rest) ← s.next
  if t = .operator wanted then return ((), rest) else unexpected t false (some wanted) rest

/-- The text of a here-document, which ends at a line that is the delimiter, and what follows. -/
def hereText (delimiter : List Char) (tabs : Bool) : List (List Char) → List Char × List Char
  | [] => ([], [])
  | line :: rest =>
    let line := if tabs then line.dropWhile (· = '\t') else line
    if line = delimiter ∨ line = delimiter ++ ['\n'] then ([], rest.flatten)
    else
      let (body, rest) := hereText delimiter tabs rest
      (line ++ body, rest)

/-- The lines of a text, each with its line feed. -/
def linesIn : List Char → List (List Char)
  | [] => []
  | '\n' :: rest => ['\n'] :: linesIn rest
  | c :: rest =>
    match linesIn rest with
    | [] => [[c]]
    | line :: others => (c :: line) :: others

/-- Takes the text of a here-document out of the source. -/
def readHere (tabs : Bool) (delimiter : Word) : Reader Word := fun s ↦ do
  let quoted := delimiter.any fun
    | .text _ q => q
    | _ => false
  let name := delimiter.flatMap fun
    | .text chars _ => chars
    | _ => []
  let line := s.text.takeWhile (· ≠ '\n')
  let after := (s.text.drop line.length).drop 1
  let (text, rest) := hereText name tabs (linesIn after)
  return (if quoted then [.text text true] else quotedWord text,
    { s with text := if rest.isEmpty then line else line ++ '\n' :: rest })

def kindOf (op : String) : RedirectionKind :=
  match op with
  | "<" => .read
  | ">>" => .append
  | "<>" => .append
  | ">&" => .duplicate
  | "<&" => .duplicate
  | "<<" => .text
  | "<<-" => .text
  | _ => .write

/-- A redirection whose channel, if one is written, was read already. -/
def readRedirection (channel : Option Nat) : Reader Redirection := fun s ↦ do
  let (t, s) ← s.next
  match t with
  | .operator op =>
    let (target, rest) ← s.next
    match target with
    | .word word =>
      let usual := if op.startsWith "<" then 0 else 1
      let (word, rest) ←
        if kindOf op = .text then readHere (op == "<<-") word rest else pure (word, rest)
      return (⟨channel.getD usual, kindOf op, word⟩, rest)
    | t => unexpected t false none rest
  | t => unexpected t false none s

def redirection? : Reader (Option Redirection) := fun s ↦ do
  let (t, rest) ← s.next
  match t with
  | .channel n => do
    let (r, s) ← readRedirection (some n) rest
    return (some r, s)
  | t =>
    if t.isRedirection then do
      let (r, s) ← readRedirection none s
      return (some r, s)
    else return (none, s)

def redirections : Nat → Reader (List Redirection)
  | 0, s => .ok ([], s)
  | fuel + 1, s => do
    match ← redirection? s with
    | (none, s) => return ([], s)
    | (some r, s) => do
      let (others, s) ← redirections fuel s
      return (r :: others, s)

/-- The words of a list up to the end of a line or a semicolon. -/
def wordList : Nat → Reader (List Word)
  | 0, s => .ok ([], s)
  | fuel + 1, s => do
    match ← s.next with
    | (.word w, s) => do
      let (others, s) ← wordList fuel s
      return (w :: others, s)
    | _ => return ([], s)

/-- The patterns of a case up to the closing parenthesis. -/
def patterns : Nat → Reader (List Word)
  | 0, s => .ok ([], s)
  | fuel + 1, s => do
    let (t, s) ← s.next
    match t with
    | .operator "(" => patterns fuel s
    | t => do
      let w : Word := match t with
        | .word w => w
        | _ => []
      let (t, s) ← s.next
      match t with
      | .operator "|" => do
        let (others, s) ← patterns fuel s
        return (w :: others, s)
      | .operator ")" => return ([w], s)
      | t => unexpected t false (some ")") s

/-- The rest of a simple command. -/
def simpleRest : Nat → SimpleCommand → Reader SimpleCommand
  | 0, c, s => .ok (c, s)
  | fuel + 1, c, s => do
    match ← redirection? s with
    | (some r, s) => simpleRest fuel { c with redirections := c.redirections ++ [r] } s
    | (none, s) =>
      match ← s.next with
      | (.word w, rest) =>
        match (if c.words.isEmpty then assignment? w else none) with
        | some a => simpleRest fuel { c with assignments := c.assignments ++ [a] } rest
        | none => simpleRest fuel { c with words := c.words ++ [w] } rest
      | _ => return (c, s)

def chained (first second : Statement) : Statement :=
  match first with
  | .nothing => second
  | first => .chain first second

/-- Whether a token ends a list of statements. -/
def endsList (t : Token) : Bool :=
  t == .finish || t == .operator ")" || t == .operator ";;" ||
    t.plain?.any fun text ↦ closingWords.contains text

mutual

/-- Statements up to a token that ends a list. There may have to be one at least. -/
def list (fuel : Nat) (mayBeEmpty : Bool) : Reader Statement := fun s ↦
  match fuel with
  | 0 => .ok (.nothing, s)
  | fuel + 1 => do
    let (_, s) ← skipNewlines (s.text.length + 1) s
    let (t, _) ← peek s
    if t = .finish ∨ (mayBeEmpty ∧ endsList t) then return (.nothing, s)
    let (first, s) ← andOr fuel s
    let (t, rest) ← s.next
    match t with
    | .operator "&" => do
      let (others, s) ← list fuel true rest
      return (.chain (.background first) others, s)
    | .operator ";" => do
      let (others, s) ← list fuel true rest
      return (.chain first others, s)
    | .newline => do
      let (others, s) ← list fuel true rest
      return (.chain first others, s)
    | _ => return (first, s)

def andOr (fuel : Nat) : Reader Statement := fun s ↦
  match fuel with
  | 0 => .ok (.nothing, s)
  | fuel + 1 => do
    let (first, s) ← pipeline fuel s
    andOrRest fuel first s

def andOrRest (fuel : Nat) (first : Statement) : Reader Statement := fun s ↦
  match fuel with
  | 0 => .ok (first, s)
  | fuel + 1 => do
    let (t, rest) ← s.next
    match t with
    | .operator "&&" => do
      let (_, rest) ← skipNewlines (rest.text.length + 1) rest
      let (second, s) ← pipeline fuel rest
      andOrRest fuel (.both first second) s
    | .operator "||" => do
      let (_, rest) ← skipNewlines (rest.text.length + 1) rest
      let (second, s) ← pipeline fuel rest
      andOrRest fuel (.either first second) s
    | _ => return (first, s)

def pipeline (fuel : Nat) : Reader Statement := fun s ↦
  match fuel with
  | 0 => .ok (.nothing, s)
  | fuel + 1 => do
    let (t, rest) ← s.next
    let isNegated := t.plain? = some "!"
    let (first, s) ← command fuel (if isNegated then rest else s)
    let (stages, s) ← stages fuel s
    let body := if stages.isEmpty then first else .pipe (first :: stages)
    return (if isNegated then .negate body else body, s)

/-- The further stages of a pipeline. -/
def stages (fuel : Nat) : Reader (List Statement) := fun s ↦
  match fuel with
  | 0 => .ok ([], s)
  | fuel + 1 => do
    let (t, rest) ← s.next
    match t with
    | .operator "|" => do
      let (_, rest) ← skipNewlines (rest.text.length + 1) rest
      let (stage, s) ← command fuel rest
      let (others, s) ← stages fuel s
      return (stage :: others, s)
    | _ => return ([], s)

/-- A command with the redirections after it. -/
def command (fuel : Nat) : Reader Statement := fun s ↦
  match fuel with
  | 0 => .ok (.nothing, s)
  | fuel + 1 => do
    let (t, rest) ← s.next
    let line := (Source.mk (Source.skip s.text) s.lastLine).line
    let compound (r : Reader Statement) : Except SyntaxFault (Statement × Source) := do
      let (body, s) ← r rest
      let (rs, s) ← redirections (s.text.length + 1) s
      return (if rs.isEmpty then body else .redirected line body rs, s)
    match t with
    | .operator "(" => compound fun s ↦ do
      let (body, s) ← list fuel false s
      let (_, s) ← expectOperator ")" s
      return (.subshell line body, s)
    | .operator op =>
      if t.isRedirection then simple fuel s else unexpected (.operator op) false none rest
    | .newline => unexpected t false none rest
    | .finish => unexpected t false none rest
    | .channel _ => simple fuel s
    | .word _ =>
      match t.plain? with
      | some "if" => compound (conditional fuel)
      | some "while" => compound (repetition fuel true)
      | some "until" => compound (repetition fuel false)
      | some "for" => compound (iteration fuel)
      | some "case" => compound (selection fuel)
      | some text =>
        if text = groupStart then
          compound fun s ↦ do
            let (body, s) ← list fuel false s
            let (_, s) ← expectWord groupEnd s
            return (body, s)
        else if closingWords.contains text then unexpected t true none rest
        else simple fuel s
      | none => simple fuel s

def simple (fuel : Nat) : Reader Statement := fun s ↦
  match fuel with
  | 0 => .ok (.nothing, s)
  | fuel + 1 => do
    let line := (Source.mk (Source.skip s.text) s.lastLine).line
    let (c, s) ← simpleRest (s.text.length + 1) { line := line } s
    match c.words with
    | [name] =>
      let (t, rest) ← s.next
      if t = .operator "(" ∧ c.assignments = [] ∧ c.redirections = [] then
        let (_, rest) ← expectOperator ")" rest
        match plainText? name with
        | some name =>
          if isName name then do
            let (_, rest) ← skipNewlines (rest.text.length + 1) rest
            let (body, rest) ← command fuel rest
            return (.define name body, rest)
          else rest.fault "Bad function name"
        | none => rest.fault "Bad function name"
      else return (.simple c, s)
    | _ => return (.simple c, s)

/-- What follows the word that begins a conditional. -/
def conditional (fuel : Nat) : Reader Statement := fun s ↦
  match fuel with
  | 0 => .ok (.nothing, s)
  | fuel + 1 => do
    let (condition, s) ← list fuel false s
    let (_, s) ← expectWord "then" s
    let (body, s) ← list fuel false s
    let (t, rest) ← s.next
    match t.plain? with
    | some "elif" => do
      let (otherwise, s) ← conditional fuel rest
      return (.choose condition body otherwise, s)
    | some "else" => do
      let (otherwise, s) ← list fuel false rest
      let (_, s) ← expectWord "fi" s
      return (.choose condition body otherwise, s)
    | _ => do
      let (_, s) ← expectWord "fi" s
      return (.choose condition body .nothing, s)

def repetition (fuel : Nat) (wanted : Bool) : Reader Statement := fun s ↦
  match fuel with
  | 0 => .ok (.nothing, s)
  | fuel + 1 => do
    let (condition, s) ← list fuel false s
    let (_, s) ← expectWord "do" s
    let (body, s) ← list fuel false s
    let (_, s) ← expectWord "done" s
    return (.loop wanted condition body, s)

def iteration (fuel : Nat) : Reader Statement := fun s ↦
  match fuel with
  | 0 => .ok (.nothing, s)
  | fuel + 1 => do
    let (t, s) ← s.next
    let name := (t.plain?.getD "").toList
    if !isName name then s.fault "Bad for loop variable"
    else do
      let (t, rest) ← s.next
      let (words, s) ←
        if t.plain? = some "in" then do
          let (words, s) ← wordList (rest.text.length + 1) rest
          pure (some words, s)
        else pure (none, s)
      let (t, rest) ← s.next
      let s := if t = .operator ";" then rest else s
      let (_, s) ← skipNewlines (s.text.length + 1) s
      let (_, s) ← expectWord "do" s
      let (body, s) ← list fuel false s
      let (_, s) ← expectWord "done" s
      return (.each name words body, s)

def selection (fuel : Nat) : Reader Statement := fun s ↦
  match fuel with
  | 0 => .ok (.nothing, s)
  | fuel + 1 => do
    let (t, s) ← s.next
    match t with
    | .word subject => do
      let (_, s) ← skipNewlines (s.text.length + 1) s
      let (_, s) ← expectWord "in" s
      let (cases, s) ← cases fuel s
      return (.select subject cases, s)
    | t => unexpected t false none s

def cases (fuel : Nat) : Reader (List (List Word × Statement)) := fun s ↦
  match fuel with
  | 0 => .ok ([], s)
  | fuel + 1 => do
    let (_, s) ← skipNewlines (s.text.length + 1) s
    let (t, rest) ← s.next
    if t.plain? = some "esac" then return ([], rest)
    let (words, s) ← patterns (s.text.length + 1) s
    let (body, s) ← list fuel true s
    let (t, rest) ← s.next
    if t = .operator ";;" then do
      let (others, s) ← cases fuel rest
      return ((words, body) :: others, s)
    else do
      let (_, s) ← expectWord "esac" s
      return ([(words, body)], s)

end

/-- The statements of the line in front of a source, or nothing at its end. -/
def lineRest : Nat → Statement → Reader Statement
  | 0, done, s => .ok (done, s)
  | fuel + 1, done, s => do
    let (t, _) ← s.next
    if t = .finish ∨ t = .newline then return (done, s)
    let (first, s) ← andOr (8 * (s.text.length + 1)) s
    let (t, rest) ← s.next
    match t with
    | .operator "&" => lineRest fuel (chained done (.background first)) rest
    | .operator ";" => lineRest fuel (chained done first) rest
    | .newline => return (chained done first, s)
    | .finish => return (chained done first, s)
    | t => unexpected t true none rest

def nextLine (s : Source) : Except SyntaxFault (Option (Statement × Source)) := do
  let (_, s) ← skipNewlines (s.text.length + 1) s
  let (t, _) ← s.next
  if t = .finish then return none
  return some (← lineRest (s.text.length + 1) .nothing s)

end Reader

end FlexGate.Shell
