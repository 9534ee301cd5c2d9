import FlexGate.Shell.Arithmetic
import FlexGate.Shell.Pattern
import FlexGate.Text.Order

/-!
Expanding words. What an unquoted part expands to is cut into fields at separators; what is quoted,
or stands as it is, is not. A field with wildcards that are not quoted becomes the paths that fit
it, if there are any.
-/

set_option autoImplicit false
set_option relaxedAutoImplicit false

namespace FlexGate.Shell.Eval

/-- Characters with whether each is quoted. -/
abbrev Marked := List (Char × Bool)

def marked (quoted : Bool) (text : List Char) : Marked := text.map fun c ↦ (c, quoted)

/-- The fields that are complete, the last one first, and the one that is not. -/
structure Fields where
  complete : List Marked := []
  open? : Option Marked := none

namespace Fields

def add (f : Fields) (text : Marked) : Fields :=
  { f with open? := some ((f.open?.getD []) ++ text) }

def close (f : Fields) : Fields :=
  match f.open? with
  | none => f
  | some field => { complete := field :: f.complete, open? := none }

/-- Adds a text that is cut at separators. Blanks among them only part fields; each other separator
ends one, together with the blanks around it. -/
def addCut (separators : List Char) (f : Fields) : List Char → Fields := go false f
where
  go (parted : Bool) (f : Fields) : List Char → Fields
    | [] => f
    | c :: rest =>
      if !separators.contains c then go false (f.add [(c, false)]) rest
      else if c = ' ' ∨ c = '\t' ∨ c = '\n' then go (parted || f.open?.isSome) f.close rest
      else if f.open?.isSome ∨ parted then go false f.close rest
      else go false (f.add []).close rest

/-- Adds texts of which each but the first begins a field. -/
def addAll (separators : List Char) (quoted : Bool) (f : Fields) : List (List Char) → Fields
  | [] => f
  | [text] => if quoted then f.add (marked true text) else f.addCut separators text
  | text :: rest =>
    addAll separators quoted
      (if quoted then f.add (marked true text) else f.addCut separators text).close rest

def toList (f : Fields) : List Marked := f.close.complete.reverse

end Fields

def dropLastNewlines (text : List Char) : List Char :=
  (text.reverse.dropWhile (· = '\n')).reverse

def numberText (n : Nat) : List Char := (toString n).toList

def usualSeparators : List Char := [' ', '\t', '\n']

/-- What texts are cut at. -/
def separators : Eval (List Char) :=
  return ((← get).bindings.lookup "IFS".toList).getD usualSeparators

/-- The value of a parameter, if it is set. -/
def parameterValue (name : List Char) : Eval (Option (List Char)) := do
  let s ← get
  match name with
  | ['#'] => return some (numberText s.arguments.length)
  | ['?'] => return some (numberText s.status)
  | ['$'] => return some (numberText s.shell)
  | ['!'] =>
    let all := s.jobs.map Job.process ++ s.ended.map JobEnd.process
    return some ((all.max?.map numberText).getD [])
  | ['-'] => return some ((if s.strict then ['e'] else []) ++ (if s.needsSet then ['u'] else []))
  | ['@'] => return some ([' '].intercalate s.arguments)
  | ['*'] =>
    let between := (((s.bindings.lookup "IFS".toList).getD usualSeparators).take 1)
    return some (between.intercalate s.arguments)
  | ['0'] => return some s.name
  | _ =>
    if name.all Char.isDigit then
      return s.arguments[(String.ofList name).toNat?.getD 0 - 1]?
    else getVariable name

/-- The text without the part in front that fits a pattern, the shortest or the longest. -/
def withoutFront (longest : Bool) (pattern : List Wildcard) (text : List Char) : List Char :=
  let cuts := (List.range (text.length + 1)).filter fun n ↦ Wildcard.fits pattern (text.take n)
  match (if longest then cuts.getLast? else cuts.head?) with
  | some n => text.drop n
  | none => text

def withoutEnd (longest : Bool) (pattern : List Wildcard) (text : List Char) : List Char :=
  let cuts := (List.range (text.length + 1)).filter fun n ↦ Wildcard.fits pattern (text.drop n)
  match (if longest then cuts.head? else cuts.getLast?) with
  | some n => text.take n
  | none => text

def arithmeticFault (text : List Char) : Arithmetic.Fault → List Char
  | .expecting what =>
    ofString ("arithmetic expression: expecting " ++ what ++ ": \"") ++ text ++ ['"']
  | .divisionByZero => ofString "arithmetic expression: division by zero: \"" ++ text ++ ['"']
  | .illegalNumber value => ofString "Illegal number: " ++ value

/-- A word with every part quoted, so that it expands to one text. -/
def asOne (word : Word) : Word :=
  word.map fun
    | .text chars _ => .text chars true
    | .parameter p _ => .parameter p true
    | .output script _ => .output script true
    | .arithmetic expression _ => .arithmetic expression true

def isWild (field : Marked) : Bool :=
  field.any fun x ↦ !x.2 && (x.1 == '*' || x.1 == '?' || x.1 == '[')

/-- A field cut at slashes. -/
def steps : Marked → List Marked
  | [] => [[]]
  | x :: rest =>
    if x.1 = '/' then [] :: steps rest
    else
      match steps rest with
      | [] => [[x]]
      | step :: others => (x :: step) :: others

/-- The names in a directory that fit a step. Names that begin with a dot have to be asked for. -/
def namesThatFit (files : FileTree) (directory : List Char) (step : Marked) : List (List Char) :=
  let path := if directory.isEmpty then ['.'] else toText directory
  match files.find path with
  | .ok (place, .directory) =>
    let names := files.nodes.filterMap fun entry ↦
      if entry.1.dropLast = place then entry.1.getLast?.map ofText else none
    let wildcards := Wildcard.ofChars (step.length + 1) step
    let dotted := (step.head?.map Prod.fst) = some '.'
    Text.sort (names.filter fun name ↦
      (dotted || name.head? != some '.') && Wildcard.fits wildcards name)
  | _ => []

/-- The paths that begin with some front and fit the steps. -/
def pathsThatFit (files : FileTree) (front : List Char) : List Marked → List (List Char)
  | [] => [front]
  | step :: rest =>
    let ahead (name : List Char) :=
      let path := front ++ name
      if rest.isEmpty then
        if files.exists? (toText (if path.isEmpty then ['.'] else path)) then [path] else []
      else pathsThatFit files (path ++ ['/']) rest
    if isWild step then (namesThatFit files front step).flatMap ahead
    else ahead (step.map Prod.fst)

/-- The texts that a field stands for. -/
def pathsOf (files : FileTree) (field : Marked) : List (List Char) :=
  if isWild field then
    match pathsThatFit files [] (steps field) with
    | [] => [field.map Prod.fst]
    | paths => paths
  else [field.map Prod.fst]

section

variable (run : Statement → Eval Unit)

/-- A pattern from the parts that fields have. -/
def patternOf (fields : Fields) : List Wildcard :=
  let text := (fields.toList.intersperse [(' ', true)]).flatten
  Wildcard.ofChars (text.length + 1) text

/-- Ends the shell because a parameter has no value. -/
def notSet (name text : List Char) : Eval Unit := do
  complain (name ++ ofString ": " ++ (if text.isEmpty then ofString "parameter not set" else text))
  throw (.exit 2)

/-- Parameters that need no value even if all others do. -/
def alwaysSet (name : List Char) : Bool := name = ['@'] || name = ['*']

/-- Adds what the parts of a word expand to. Operands of operators are words themselves, up to a
depth. What stands as it is, is cut only where it is asked for. -/
def expandParts (cutsText : Bool) : Nat → List WordPart → Fields → Eval Fields
  | 0, _, f => return f
  | depth + 1, parts, f => parts.foldlM (fun f part ↦ do
      let between ← separators
      let added (quoted : Bool) (text : List Char) : Fields :=
        if quoted then f.add (marked true text) else f.addCut between text
      match part with
      | .text chars quoted =>
        return if cutsText && !quoted then f.addCut between chars else f.add (marked quoted chars)
      | .output script quoted =>
        let text ← captured (forked run (run (.script (← get).line script)))
        return added quoted (dropLastNewlines (text.filter (· ≠ '\x00')))
      | .arithmetic expression quoted =>
        let text ← joined depth (quotedWord expression)
        match Arithmetic.evaluate (← get).bindings text with
        | .ok (n, values) =>
          modify fun s ↦ { s with bindings := values }
          return added quoted (toString n).toList
        | .error fault =>
          complain (arithmeticFault text fault)
          throw (.exit 2)
      | .parameter p quoted =>
        let value ← parameterValue p.name
        let isFull :=
          if p.operator.head? = some ':' then value.any fun v ↦ !v.isEmpty else value.isSome
        let usual : Eval Fields := do
          match value with
          | some text =>
            if p.name = ['@'] || (p.name = ['*'] && !quoted) then
              return f.addAll between quoted (← get).arguments
            else return added quoted text
          | none =>
            if (← get).needsSet && !alwaysSet p.name && (p.operator = [] || p.operator = lengthMark)
            then notSet p.name []
            return if quoted then f.add [] else f
        let operand : Eval Fields :=
          if quoted then expandParts true depth (quotedWord (withoutDouble p.operand)) (f.add [])
          else expandParts true depth (wholeWord (p.operand.length + 1) p.operand) f
        let asText : Eval (List Char) := joined depth (wholeWord (p.operand.length + 1) p.operand)
        let cut (without : List Wildcard → List Char → List Char) : Eval Fields := do
          let word := wholeWord (p.operand.length + 1) p.operand
          let pattern := patternOf (← expandParts false depth word {})
          return added quoted (without pattern (value.getD []))
        let filled : Eval Fields := do
          if isFull then usual
          else
            let text ← asText
            setVariable p.name text
            return added quoted text
        let checked : Eval Fields := do
          if !isFull then
            let text ← asText
            let null := if p.operator.head? = some ':' then ofString " or null" else []
            notSet p.name (if text.isEmpty then ofString "parameter not set" ++ null else text)
          usual
        match String.ofList p.operator with
        | "" => usual
        | "bad" =>
          complain (ofString "Bad substitution")
          throw (.exit 2)
        | ":-" => if isFull then usual else operand
        | "-" => if isFull then usual else operand
        | ":+" => if isFull then operand else return if quoted then f.add [] else f
        | "+" => if isFull then operand else return if quoted then f.add [] else f
        | ":=" => filled
        | "=" => filled
        | ":?" => checked
        | "?" => checked
        | "#" => cut (withoutFront false)
        | "##" => cut (withoutFront true)
        | "%" => cut (withoutEnd false)
        | "%%" => cut (withoutEnd true)
        | _ =>
          if value.isNone && (← get).needsSet then notSet p.name []
          return added quoted (numberText (value.getD []).length)) f
where
  /-- The text that a word expands to when it is not cut. -/
  joined (depth : Nat) (word : Word) : Eval (List Char) := do
    let fields ← expandParts false depth (asOne word) {}
    return [' '].intercalate (fields.toList.map fun field ↦ field.map Prod.fst)

def expansionDepth : Nat := 16

/-- The fields that a word expands to. -/
def expandWord (word : Word) : Eval (List (List Char)) := do
  let fields ← expandParts run false expansionDepth word {}
  let s ← get
  return fields.toList.flatMap fun field ↦
    if s.plainPaths then [field.map Prod.fst] else pathsOf s.files field

def expandWords (words : List Word) : Eval (List (List Char)) := do
  return (← words.mapM (expandWord run)).flatten

/-- The one text that a word expands to. -/
def expandText (word : Word) : Eval (List Char) := do
  let fields ← expandParts run false expansionDepth (asOne word) {}
  return [' '].intercalate (fields.toList.map fun field ↦ field.map Prod.fst)

/-- The pattern that a word expands to, in which what is quoted stands for itself. -/
def expandPattern (word : Word) : Eval (List Wildcard) := do
  return patternOf (← expandParts run false expansionDepth word {})

end

end FlexGate.Shell.Eval
