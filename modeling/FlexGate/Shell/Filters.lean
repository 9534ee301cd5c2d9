import FlexGate.Shell.Format
import FlexGate.Shell.Pattern
import FlexGate.Shell.Programs

/-!
Programs that scripts call to make a text of another.
-/

set_option autoImplicit false
set_option relaxedAutoImplicit false

namespace FlexGate.Shell.Filters

open Eval Programs

def number? (text : List Char) : Option Nat := (String.ofList text).toNat?

/-- How much to take, from which files: the count after an option of a letter, or after a dash. -/
def countOf (letter : Char) (usual : Nat) : List (List Char) → Nat × List (List Char)
  | ['-', c] :: n :: rest =>
    if c = letter then ((number? n).getD usual, rest) else ((number? [c]).getD usual, n :: rest)
  | ('-' :: c :: digits) :: rest =>
    if c = letter then ((number? digits).getD usual, rest)
    else ((number? (c :: digits)).getD usual, rest)
  | rest => (usual, rest)

/-- Writes a part of each file, under a title if there are several. -/
def writeParts (program : String) (part : List Char → List Char) (paths : List (List Char)) :
    Eval Unit := do
  let mut first := true
  for path in (if paths.isEmpty then [['-']] else paths) do
    match ← contents program path with
    | none => pure ()
    | some text =>
      if 1 < paths.length then
        write 1 (ofString (if first then "==> " else "\n==> ") ++ path ++ ofString " <==\n")
      write 1 (part text)
      first := false

def tail (arguments : List (List Char)) : Eval Unit := do
  if arguments.any fun a ↦ ['-', 'c'].isPrefixOf a then
    let (n, paths) := countOf 'c' 0 arguments
    writeParts "tail" (fun text ↦ text.drop (text.length - n)) paths
  else
    match arguments with
    | ['-', 'n'] :: ('+' :: start) :: paths =>
      writeParts "tail"
        (fun text ↦ ((linesOf text).drop ((number? start).getD 1 - 1)).flatten) paths
    | arguments =>
      let (n, paths) := countOf 'n' 10 arguments
      writeParts "tail" (fun text ↦
        let lines := linesOf text
        (lines.drop (lines.length - n)).flatten) paths

def endless : List (List Char) := ["/dev/zero".toList]

def head (arguments : List (List Char)) : Eval Unit := do
  if arguments.any fun a ↦ ['-', 'c'].isPrefixOf a then
    let (n, paths) := countOf 'c' 0 arguments
    if paths = endless then write 1 (List.replicate n '\x00')
    else writeParts "head" (·.take n) paths
  else
    let (n, paths) := countOf 'n' 10 arguments
    writeParts "head" (fun text ↦ ((linesOf text).take n).flatten) paths

def seq (arguments : List (List Char)) : Eval Unit := do
  let (separator, arguments) :=
    match arguments with
    | ['-', 's'] :: separator :: rest => (separator, rest)
    | rest => (['\n'], rest)
  let steps (first step last : Int) : List (List Char) :=
    if step = 0 then []
    else
      let count := ((last - first) / step + 1).toNat
      let count := if (0 < step ∧ last < first) ∨ (step < 0 ∧ first < last) then 0 else count
      (List.range count).map fun (k : Nat) ↦ ofString (toString (first + k * step))
  let written (texts : List (List Char)) : Eval Unit :=
    write 1 (if texts.isEmpty then [] else separator.intercalate texts ++ ['\n'])
  match arguments.filterMap fun a ↦ (String.ofList a).toInt? with
  | [last] => written (steps 1 1 last)
  | [first, last] => written (steps first 1 last)
  | [first, step, last] => written (steps first step last)
  | _ => missingOperand "seq" "operand"

def wordCount : Bool → List Char → Nat
  | _, [] => 0
  | inside, c :: rest =>
    if c = ' ' ∨ c = '\n' ∨ c = '\t' then wordCount false rest
    else (if inside then 0 else 1) + wordCount true rest

def wc (arguments : List (List Char)) : Eval Unit := do
  let (flags, paths) := options arguments
  let wants (c : Char) : Bool := flags.isEmpty || hasFlag flags c
  let counts (text : List Char) : List Nat :=
    (if wants 'l' then [text.count '\n'] else []) ++
      (if wants 'w' then [wordCount false text] else []) ++
      (if wants 'c' || hasFlag flags 'm' then [text.length] else [])
  let mut rows := []
  for path in (if paths.isEmpty then [['-']] else paths) do
    match ← contents "wc" path with
    | some text => rows := rows ++ [(text.length, counts text, path)]
    | none => pure ()
  let total := rows.foldl (fun n r ↦ n + r.1) 0
  let single := rows.length = 1 && (rows.all fun r ↦ r.2.1.length = 1)
  let width := if single then 1 else if paths.isEmpty then 7 else (toString total).length
  let row (numbers : List Nat) (name : List Char) : List Char :=
    let padded := numbers.map fun n ↦
      let text := ofString (toString n)
      List.replicate (width - text.length) ' ' ++ text
    [' '].intercalate padded ++ (if name.isEmpty then [] else ' ' :: name) ++ ['\n']
  for (_, numbers, path) in rows do
    write 1 (row numbers (if paths.isEmpty then [] else path))
  if 1 < paths.length then
    let sums := (rows.map fun r ↦ r.2.1).foldl (fun a b ↦
      if a.isEmpty then b else List.zipWith (· + ·) a b) []
    write 1 (row sums (ofString "total"))

/-- The characters that a set of the program for translating stands for. -/
def charactersOf : Nat → List Char → List Char
  | 0, _ => []
  | _, [] => []
  | fuel + 1, '[' :: ':' :: rest =>
    let name := String.ofList (rest.takeWhile (· ≠ ':'))
    let all := (List.range 128).map Char.ofNat
    let members :=
      match name with
      | "upper" => all.filter Char.isUpper
      | "lower" => all.filter Char.isLower
      | "digit" => all.filter Char.isDigit
      | "alpha" => all.filter Char.isAlpha
      | "alnum" => all.filter Char.isAlphanum
      | "space" => all.filter fun c ↦ c = ' ' ∨ (9 ≤ c.toNat ∧ c.toNat ≤ 13)
      | _ => []
    members ++ charactersOf fuel ((rest.dropWhile (· ≠ ':')).drop 2)
  | fuel + 1, '\\' :: c :: rest =>
    if Format.isOctal c then
      let (b, rest) := Format.octal 3 (c :: rest)
      b :: charactersOf fuel rest
    else ((Format.simpleEscapes.lookup c).getD c) :: charactersOf fuel rest
  | fuel + 1, a :: '-' :: b :: rest =>
    ((List.range (b.toNat + 1 - a.toNat)).map fun k ↦ Char.ofNat (a.toNat + k)) ++
      charactersOf fuel rest
  | fuel + 1, c :: rest => c :: charactersOf fuel rest

/-- Leaves one of equal neighbours among some characters. -/
def squeeze (among : Char → Bool) : List Char → List Char
  | a :: b :: rest =>
    if a = b ∧ among a then squeeze among (b :: rest) else a :: squeeze among (b :: rest)
  | rest => rest

def tr (arguments : List (List Char)) : Eval Unit := do
  let (flags, sets) := options arguments
  let text ← takeInput
  let set (t : List Char) := charactersOf (t.length + 1) t
  let listed := set (sets.headD [])
  let isIn (c : Char) : Bool := listed.contains c != (hasFlag flags 'c' || hasFlag flags 'C')
  match sets.drop 1 with
  | [] =>
    if hasFlag flags 'd' then write 1 (text.filter fun c ↦ !isIn c)
    else write 1 (squeeze isIn text)
  | second :: _ =>
    let given := set second
    let missing := List.replicate (listed.length - given.length) (given.getLast?.getD ' ')
    let pairs := listed.zip (given ++ missing)
    let changed :=
      if hasFlag flags 'c' || hasFlag flags 'C' then
        text.map fun c ↦ if isIn c then given.getLast?.getD c else c
      else text.map fun c ↦ (pairs.lookup c).getD c
    write 1 (if hasFlag flags 's' then squeeze given.contains changed else changed)

def chomped (line : List Char) : List Char :=
  if line.getLast? = some '\n' then line.dropLast else line

def chompedLines (text : List Char) : List (List Char) := (linesOf text).map chomped

def sort (arguments : List (List Char)) : Eval Unit := do
  let (flags, paths) := options arguments
  let texts := chompedLines (← everything "sort" paths)
  let value (t : List Char) : Int := (Format.readSigned t).1
  let before (a b : List Char) : Bool :=
    if hasFlag flags 'n' then
      decide (value a < value b) || (value a == value b && Text.precedes a b)
    else Text.precedes a b
  let sorted := texts.mergeSort before
  let sorted := if hasFlag flags 'r' then sorted.reverse else sorted
  write 1 (lines (if hasFlag flags 'u' then sorted.eraseReps else sorted))

/-- Each text with how often it stands there in a row. -/
def runsOf (texts : List (List Char)) : List (Nat × List Char) :=
  (texts.splitBy (· == ·)).map fun run ↦ (run.length, run.headD [])

def uniq (arguments : List (List Char)) : Eval Unit := do
  let (flags, paths) := options arguments
  let runs := runsOf (chompedLines (← everything "uniq" paths))
  write 1 (lines (runs.map fun (n, text) ↦
    if hasFlag flags 'c' then
      let number := ofString (toString n)
      List.replicate (7 - number.length) ' ' ++ number ++ ' ' :: text
    else text))

/-- How often the program that never ends writes before whoever reads it has enough. -/
def manyTimes : Nat := 100000

def yes (arguments : List (List Char)) : Eval Unit := do
  let line := (if arguments.isEmpty then ['y'] else [' '].intercalate arguments) ++ ['\n']
  write 1 (List.replicate manyTimes line).flatten

def tee (arguments : List (List Char)) : Eval Unit := do
  let (flags, paths) := options arguments
  let text ← takeInput
  write 1 text
  for path in paths do
    let s ← get
    let old :=
      if hasFlag flags 'a' then (s.files.readBytes (toText path)).toOption.getD [] else []
    match s.files.writeBytes (toText path) (old ++ toBytes text) with
    | .ok files => set { s with files := files }
    | .error fault => failWith 1 (ofString "tee: " ++ path ++ ofString (": " ++ reason fault))

/-- The parts of a text between marks. -/
def split (mark : Char) : List Char → List (List Char)
  | [] => [[]]
  | c :: rest =>
    if c = mark then [] :: split mark rest
    else
      match split mark rest with
      | [] => [[c]]
      | part :: others => (c :: part) :: others

/-- The positions that a list of numbers and ranges means. -/
def isWanted (spec : List Char) (position : Nat) : Bool :=
  (split ',' spec).any fun part ↦
    match split '-' part with
    | [n] => number? n = some position
    | [a, b] => (number? a).getD 1 ≤ position && position ≤ (number? b).getD position
    | _ => false

/-- The value of an option, written behind its letter or as the next argument. -/
def valueOf? (letter : Char) : List (List Char) → Option (List Char)
  | [] => none
  | a :: rest =>
    if a = ['-', letter] then rest.head?
    else if ['-', letter].isPrefixOf a then some (a.drop 2)
    else valueOf? letter rest

def cut (arguments : List (List Char)) : Eval Unit := do
  let mark := ((valueOf? 'd' arguments).bind List.head?).getD '\t'
  let texts := chompedLines (← takeInput)
  let chosen (parts : List (List Char)) (spec : List Char) : List (List Char) :=
    (parts.zipIdx 1).filterMap fun (part, k) ↦ if isWanted spec k then some part else none
  match valueOf? 'f' arguments, (valueOf? 'c' arguments).or (valueOf? 'b' arguments) with
  | some spec, _ =>
    write 1 (lines (texts.map fun t ↦
      if t.contains mark then [mark].intercalate (chosen (split mark t) spec) else t))
  | none, some spec => write 1 (lines (texts.map fun t ↦ (chosen (t.map fun c ↦ [c]) spec).flatten))
  | none, none =>
    failWith 1 (ofString "cut: you must specify a list of bytes, characters, or fields")

/-- A part of a simple pattern: characters that fit, and whether they may be repeated. -/
structure Piece where
  fits : Char → Bool
  many : Bool

def pieces : Nat → List Char → List Piece
  | 0, _ => []
  | _, [] => []
  | fuel + 1, text =>
    let (fits, rest) : (Char → Bool) × List Char :=
      match text with
      | '.' :: rest => (fun _ ↦ true, rest)
      | '\\' :: c :: rest => (fun d ↦ d == c, rest)
      | '[' :: rest =>
        let inner := rest.take 1 ++ (rest.drop 1).takeWhile (· ≠ ']')
        let after := rest.drop (inner.length + 1)
        if inner.head? = some '^' then
          (fun d ↦ !(Wildcard.ranges (inner.drop 1)).any fun r ↦ r.1 ≤ d && d ≤ r.2, after)
        else (fun d ↦ (Wildcard.ranges inner).any fun r ↦ r.1 ≤ d && d ≤ r.2, after)
      | c :: rest => (fun d ↦ d == c, rest)
      | [] => (fun _ ↦ false, [])
    match rest with
    | '*' :: rest => ⟨fits, true⟩ :: pieces fuel rest
    | rest => ⟨fits, false⟩ :: pieces fuel rest

/-- The longest part in front of a text that pieces read, if they can. -/
def reads (toEnd : Bool) : Nat → List Piece → List Char → Option Nat
  | 0, _, _ => none
  | _, [], text => if toEnd && !text.isEmpty then none else some 0
  | fuel + 1, p :: rest, text =>
    match text with
    | [] => if p.many then reads toEnd fuel rest [] else none
    | c :: more =>
      if p.many then
        (if p.fits c then (reads toEnd fuel (p :: rest) more).map (· + 1) else none).or
          (reads toEnd fuel rest (c :: more))
      else if p.fits c then (reads toEnd fuel rest more).map (· + 1)
      else none

structure Simple where
  fromStart : Bool
  toEnd : Bool
  pieces : List Piece

def Simple.ofText (text : List Char) : Simple :=
  let fromStart := text.head? = some '^'
  let text := if fromStart then text.drop 1 else text
  let toEnd := text.getLast? = some '$'
  let text := if toEnd then text.dropLast else text
  ⟨fromStart, toEnd, Filters.pieces (text.length + 1) text⟩

/-- Where a pattern first fits a text, and how much of it. -/
def Simple.find? (p : Simple) (text : List Char) : Option (Nat × Nat) :=
  let positions := if p.fromStart then [0] else List.range (text.length + 1)
  positions.findSome? fun k ↦
    let fuel := 2 * (text.length + p.pieces.length + 1)
    (reads p.toEnd fuel p.pieces (text.drop k)).map fun n ↦ (k, n)

def grep (arguments : List (List Char)) : Eval Unit := do
  let (flags, operands) := options arguments
  let lower (t : List Char) := if hasFlag flags 'i' then t.map Char.toLower else t
  match operands with
  | pattern :: paths =>
    let p : Simple :=
      if hasFlag flags 'F' then ⟨false, false, pattern.map fun c ↦ ⟨fun d ↦ d == c, false⟩⟩
      else Simple.ofText (lower pattern)
    let mut found := false
    let mut failed := false
    let mut out := []
    for path in (if paths.isEmpty then [['-']] else paths) do
      match ← contents "grep" path with
      | none => failed := true
      | some text =>
        let front := if 1 < paths.length then path ++ [':'] else []
        let hits := ((chompedLines text).zipIdx 1).filter fun (t, _) ↦
          (p.find? (lower t)).isSome != hasFlag flags 'v'
        found := found || !hits.isEmpty
        if hasFlag flags 'c' then out := out ++ [front ++ ofString (toString hits.length)]
        else
          out := out ++ hits.map fun (t, k) ↦
            front ++ (if hasFlag flags 'n' then ofString (toString k ++ ":") else []) ++ t
    if !hasFlag flags 'q' then write 1 (lines out)
    setStatus (if failed then 2 else if found then 0 else 1)
  | [] => failWith 2 (ofString "Usage: grep [OPTION]... PATTERNS [FILE]...")

/-- Replaces the first or every part of a line that a pattern fits. -/
def substitute (p : Simple) (new : List Char) (everywhere : Bool) : Nat → List Char → List Char
  | 0, text => text
  | fuel + 1, text =>
    match p.find? text with
    | none => text
    | some (k, n) =>
      let rest := text.drop (k + n)
      text.take k ++ new ++
        (if !everywhere then rest
        else if n = 0 then
          match rest with
          | c :: rest => c :: substitute p new everywhere fuel rest
          | [] => []
        else if p.fromStart then rest
        else substitute p new everywhere fuel rest)

/-- Edits lines by one substitution. -/
def sed (arguments : List (List Char)) : Eval Unit := do
  let (_, operands) := options arguments
  match operands with
  | ('s' :: mark :: script) :: paths =>
    match split mark script with
    | [old, new, flags] =>
      let p := Simple.ofText old
      let texts := chompedLines (← everything "sed" paths)
      write 1 (lines (texts.map fun t ↦ substitute p new (flags.contains 'g') (t.length + 1) t))
    | _ => failWith 1 (ofString "sed: -e expression #1: unterminated command")
  | _ => failWith 1 (ofString "sed: -e expression #1: unknown command")

/-- Reckons with two numbers, or compares two texts. -/
def expr (arguments : List (List Char)) : Eval Unit := do
  let say (text : List Char) : Eval Unit := do
    write 1 (text ++ ['\n'])
    setStatus (if text.isEmpty ∨ text = ['0'] then 1 else 0)
  let whole? (t : List Char) : Option Int := (String.ofList t).toInt?
  match arguments with
  | [text] => say text
  | [a, op, b] =>
    match String.ofList op, whole? a, whole? b with
    | "=", _, _ => say (if a = b then ['1'] else ['0'])
    | "!=", _, _ => say (if a = b then ['0'] else ['1'])
    | "+", some m, some n => say (ofString (toString (m + n)))
    | "-", some m, some n => say (ofString (toString (m - n)))
    | "*", some m, some n => say (ofString (toString (m * n)))
    | "/", some m, some n =>
      if n = 0 then failWith 2 (ofString "expr: division by zero")
      else say (ofString (toString (m.tdiv n)))
    | "%", some m, some n =>
      if n = 0 then failWith 2 (ofString "expr: division by zero")
      else say (ofString (toString (m.tmod n)))
    | "<", some m, some n => say (if m < n then ['1'] else ['0'])
    | "<=", some m, some n => say (if m ≤ n then ['1'] else ['0'])
    | ">", some m, some n => say (if n < m then ['1'] else ['0'])
    | ">=", some m, some n => say (if n ≤ m then ['1'] else ['0'])
    | ":", _, _ =>
      let p := Simple.ofText ('^' :: b)
      say (ofString (toString (((p.find? a).map Prod.snd).getD 0)))
    | _, _, _ => failWith 2 (ofString "expr: non-integer argument")
  | ['l', 'e', 'n', 'g', 't', 'h'] :: text :: _ => say (ofString (toString text.length))
  | [] => failWith 2 (ofString "expr: missing operand\nTry 'expr --help' for more information.")
  | _ => failWith 2 (ofString "expr: syntax error")

/-- The programs that make a text of another. -/
def table : List (String × ((Statement → Eval Unit) → List (List Char) → Eval Unit)) :=
  [ ("tail", fun _ ↦ tail), ("head", fun _ ↦ head), ("seq", fun _ ↦ seq), ("wc", fun _ ↦ wc),
    ("tr", fun _ ↦ tr), ("sort", fun _ ↦ sort), ("uniq", fun _ ↦ uniq), ("yes", fun _ ↦ yes),
    ("tee", fun _ ↦ tee), ("cut", fun _ ↦ cut), ("grep", fun _ ↦ grep), ("sed", fun _ ↦ sed),
    ("expr", fun _ ↦ expr) ]

end FlexGate.Shell.Filters
