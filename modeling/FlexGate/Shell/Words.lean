import FlexGate.Shell.Statement
import FlexGate.Text.Quoted

/-!
Reading the words of the shell language. A word ends at an unquoted blank or operator. A function
that reads from the front of a text gives what it read and the rest of the text, or what was begun
in the text and does not end.
-/

set_option autoImplicit false
set_option relaxedAutoImplicit false

namespace FlexGate.Shell

def isNameStart (c : Char) : Bool := c.isAlpha || c == '_'

def isNameChar (c : Char) : Bool := c.isAlphanum || c == '_'

def isName (text : List Char) : Bool :=
  match text with
  | [] => false
  | c :: rest => isNameStart c && rest.all isNameChar

/-- Characters that end a word. -/
def endsWord (c : Char) : Bool := [' ', '\t', '\n', ';', '&', '|', '<', '>', '(', ')'].contains c

def isSpecialName (c : Char) : Bool := ['@', '*', '#', '?', '-', '$', '!'].contains c

/-- What a text begins and does not end. -/
inductive Unclosed
  | quotation
  | arithmetic
  | output
  | braces
  | backquote
  deriving DecidableEq, Repr

def Unclosed.message : Unclosed → String
  | .quotation => "Unterminated quoted string"
  | .arithmetic => "Missing '))'"
  | .output => "end of file unexpected (expecting \")\")"
  | .braces => "Missing " ++ Text.inQuotes '}'
  | .backquote => "EOF in backquote substitution"

/-- The text up to the next single quote. -/
def upToQuote : List Char → Except Unclosed (List Char × List Char)
  | [] => .error .quotation
  | '\'' :: rest => .ok ([], rest)
  | c :: rest => do
    let (text, rest) ← upToQuote rest
    return (c :: text, rest)

/-- The text up to and with the next double quote, written as it is. -/
def throughDouble : List Char → Except Unclosed (List Char × List Char)
  | [] => .error .quotation
  | '"' :: rest => .ok (['"'], rest)
  | '\\' :: c :: rest => do
    let (text, rest) ← throughDouble rest
    return ('\\' :: c :: text, rest)
  | c :: rest => do
    let (text, rest) ← throughDouble rest
    return (c :: text, rest)

/-- Brackets with what is missing when they are not closed. -/
structure Brackets where
  opening : Char
  closing : Char
  missing : Unclosed
  /-- Whether a single quote stands for itself between them. -/
  plainQuotes : Bool := false

/-- The text up to the bracket that closes one open already, written as it is. -/
def upToClosing (b : Brackets) : Nat → Nat → List Char → Except Unclosed (List Char × List Char)
  | 0, _, _ => .error b.missing
  | _, _, [] => .error b.missing
  | fuel + 1, depth, '\\' :: c :: rest => do
    let (t, r) ← upToClosing b fuel depth rest
    return ('\\' :: c :: t, r)
  | fuel + 1, depth, '"' :: rest => do
    let (quoted, rest) ← throughDouble rest
    let (t, r) ← upToClosing b fuel depth rest
    return ('"' :: quoted ++ t, r)
  | fuel + 1, depth, c :: rest =>
    if c = '\'' && !b.plainQuotes then do
      let (quoted, rest) ← upToQuote rest
      let (t, r) ← upToClosing b fuel depth rest
      return ('\'' :: quoted ++ '\'' :: t, r)
    else if c = b.closing then
      if depth = 0 then .ok ([], rest)
      else do
        let (t, r) ← upToClosing b fuel (depth - 1) rest
        return (c :: t, r)
    else do
      let (t, r) ← upToClosing b fuel (if c = b.opening then depth + 1 else depth) rest
      return (c :: t, r)

/-- The text up to a closing backquote, in which a backslash keeps a backquote, a dollar sign or a
backslash. -/
def upToBackquote : List Char → Except Unclosed (List Char × List Char)
  | [] => .error .backquote
  | '\x60' :: rest => .ok ([], rest)
  | '\\' :: c :: rest => do
    let (t, r) ← upToBackquote rest
    return (if c = '\x60' ∨ c = '\\' ∨ c = '$' then c :: t else '\\' :: c :: t, r)
  | c :: rest => do
    let (t, r) ← upToBackquote rest
    return (c :: t, r)

/-- The operators that may follow the name of a parameter in braces, longer ones first. -/
def parameterOperators : List (List Char) :=
  [":-", ":=", ":+", ":?", "%%", "##", "-", "=", "+", "?", "%", "#"].map String.toList

/-- The mark of a parameter of which the length is wanted. -/
def lengthMark : List Char := "length".toList

/-- The mark of something in braces that stands for no parameter. -/
def badMark : List Char := "bad".toList

/-- The parameter that the text between braces stands for. -/
def bracedParameter (text : List Char) : Parameter :=
  match text with
  | '#' :: c :: rest => { name := c :: rest, operator := lengthMark }
  | _ =>
    let name :=
      match text with
      | c :: _ =>
        if isNameStart c then text.takeWhile isNameChar
        else if c.isDigit then text.takeWhile Char.isDigit
        else if isSpecialName c then [c]
        else []
      | [] => []
    let rest := text.drop name.length
    match parameterOperators.find? fun op ↦ op.isPrefixOf rest with
    | some op =>
      if name.isEmpty then { name := name, operator := badMark }
      else { name := name, operator := op, operand := rest.drop op.length }
    | none => { name := name, operator := if rest.isEmpty && !name.isEmpty then [] else badMark }

/-- What a dollar sign begins. One that begins nothing is text. -/
def readDollar (quoted : Bool) : List Char → Except Unclosed (WordPart × List Char)
  | '(' :: '(' :: rest => do
    let (text, rest) ← upToClosing ⟨'(', ')', .arithmetic, false⟩ (rest.length + 1) 0 rest
    match rest with
    | ')' :: rest => return (.arithmetic text quoted, rest)
    | _ => throw .arithmetic
  | '(' :: rest => do
    let (text, rest) ← upToClosing ⟨'(', ')', .output, false⟩ (rest.length + 1) 0 rest
    return (.output text quoted, rest)
  | '{' :: rest => do
    let (text, rest) ← upToClosing ⟨'{', '}', .braces, quoted⟩ (rest.length + 1) 0 rest
    return (.parameter (bracedParameter text) quoted, rest)
  | c :: rest =>
    if isNameStart c then
      .ok (.parameter { name := c :: rest.takeWhile isNameChar } quoted,
        rest.dropWhile isNameChar)
    else if c.isDigit || isSpecialName c then .ok (.parameter { name := [c] } quoted, rest)
    else .ok (.text ['$'] quoted, c :: rest)
  | [] => .ok (.text ['$'] quoted, [])

/-- Puts a character in front of the parts of a word. -/
def addChar (quoted : Bool) (c : Char) : Word → Word
  | .text chars q :: rest =>
    if q = quoted then .text (c :: chars) q :: rest else .text [c] quoted :: .text chars q :: rest
  | word => .text [c] quoted :: word

/-- The parts up to a closing double quote, or up to the end if there is none to be. -/
def readDouble (closes : Bool) : Nat → List Char → Except Unclosed (Word × List Char)
  | 0, _ => .error .quotation
  | _, [] => if closes then .error .quotation else .ok ([], [])
  | fuel + 1, '\\' :: c :: rest => do
    let (word, r) ← readDouble closes fuel rest
    if c = '\n' then return (word, r)
    else if c = '$' ∨ c = '\x60' ∨ c = '\\' ∨ (c = '"' ∧ closes) then
      return (addChar true c word, r)
    else return (addChar true '\\' (addChar true c word), r)
  | fuel + 1, '$' :: rest => do
    let (part, rest) ← readDollar true rest
    let (word, r) ← readDouble closes fuel rest
    return (part :: word, r)
  | fuel + 1, '\x60' :: rest => do
    let (text, rest) ← upToBackquote rest
    let (word, r) ← readDouble closes fuel rest
    return (.output text true :: word, r)
  | fuel + 1, c :: rest =>
    if closes && c == '"' then .ok ([], rest)
    else do
      let (word, r) ← readDouble closes fuel rest
      return (addChar true c word, r)

/-- Whether a part is all arguments, each a field of its own. There may be none. -/
def isArguments : WordPart → Bool
  | .parameter p _ => p.name == ['@'] && p.operator.isEmpty
  | _ => false

/-- A word. It is empty if the text begins with a character that ends a word. -/
def readWord : Nat → List Char → Except Unclosed (Word × List Char)
  | 0, _ => .error .quotation
  | _, [] => .ok ([], [])
  | fuel + 1, '\\' :: '\n' :: rest => readWord fuel rest
  | fuel + 1, '\\' :: c :: rest => do
    let (word, r) ← readWord fuel rest
    return (addChar true c word, r)
  | fuel + 1, '\'' :: rest => do
    let (text, rest) ← upToQuote rest
    let (word, r) ← readWord fuel rest
    return (.text text true :: word, r)
  | fuel + 1, '"' :: rest => do
    let (parts, rest) ← readDouble true (rest.length + 1) rest
    let (word, r) ← readWord fuel rest
    let mark : Word := if parts.any isArguments then [] else [.text [] true]
    return (mark ++ parts ++ word, r)
  | fuel + 1, '$' :: rest => do
    let (part, rest) ← readDollar false rest
    let (word, r) ← readWord fuel rest
    return (part :: word, r)
  | fuel + 1, '\x60' :: rest => do
    let (text, rest) ← upToBackquote rest
    let (word, r) ← readWord fuel rest
    return (.output text false :: word, r)
  | fuel + 1, c :: rest =>
    if endsWord c then .ok ([], c :: rest)
    else do
      let (word, r) ← readWord fuel rest
      return (addChar false c word, r)

/-- The word that a whole text is, blanks and operators included. -/
def wholeWord : Nat → List Char → Word
  | 0, _ => []
  | fuel + 1, text =>
    match readWord (text.length + 1) text with
    | .error _ => [.text text false]
    | .ok (word, []) => word
    | .ok (word, c :: rest) => word ++ addChar false c (wholeWord fuel rest)

/-- The parts of a text that is expanded as if it stood in double quotes. -/
def quotedWord (text : List Char) : Word :=
  match readDouble false (text.length + 1) text with
  | .ok (word, _) => word
  | .error _ => [.text text true]

/-- A text without its double quotes, except for those after a backslash. -/
def withoutDouble : List Char → List Char
  | '\\' :: '"' :: rest => '"' :: withoutDouble rest
  | '\\' :: c :: rest => '\\' :: c :: withoutDouble rest
  | '"' :: rest => withoutDouble rest
  | c :: rest => c :: withoutDouble rest
  | [] => []

/-- The text of a word of which nothing is quoted or expanded. -/
def plainText? : Word → Option (List Char)
  | [] => some []
  | .text chars false :: rest => (plainText? rest).map (chars ++ ·)
  | _ => none

/-- The name and the value of an assignment. -/
def assignment? : Word → Option (List Char × Word)
  | .text chars false :: rest =>
    let name := chars.takeWhile (· ≠ '=')
    match chars.dropWhile (· ≠ '=') with
    | '=' :: value =>
      if isName name then
        some (name, if value.isEmpty then rest else .text value false :: rest)
      else none
    | _ => none
  | _ => none

end FlexGate.Shell
