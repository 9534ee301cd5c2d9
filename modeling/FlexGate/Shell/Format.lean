import FlexGate.Number.Decimal

/-!
Texts with escapes, and texts made by a format. An argument that is no number is told of, and counts
as far as it is one.
-/

set_option autoImplicit false
set_option relaxedAutoImplicit false

namespace FlexGate.Shell.Format

def octalValue (text : List Char) : Nat :=
  text.foldl (fun n c ↦ n * 8 + (c.toNat - '0'.toNat)) 0

def isOctal (c : Char) : Bool := '0' ≤ c && c ≤ '7'

/-- The byte that up to so many octal digits give, and the rest. -/
def octal (digits : Nat) (text : List Char) : Char × List Char :=
  let taken := (text.take digits).takeWhile isOctal
  (Char.ofNat (octalValue taken % 256), text.drop taken.length)

def simpleEscapes : List (Char × Char) :=
  [('a', '\x07'), ('b', '\x08'), ('f', '\x0c'), ('n', '\n'), ('r', '\r'), ('t', '\t'),
    ('v', '\x0b'), ('e', '\x1b'), ('\\', '\\')]

/-- The text with its escapes taken out, and whether it ends the output. In an argument an octal
number begins with a zero; in a format it need not. -/
def unescape (argument : Bool) : Nat → List Char → List Char × Bool
  | 0, _ => ([], false)
  | _, [] => ([], false)
  | fuel + 1, '\\' :: c :: rest =>
    if c = 'c' ∧ argument then ([], true)
    else if c = '0' ∧ argument then
      let (b, rest) := octal 3 rest
      let (t, stop) := unescape argument fuel rest
      (b :: t, stop)
    else if isOctal c ∧ !argument then
      let (b, rest) := octal 3 (c :: rest)
      let (t, stop) := unescape argument fuel rest
      (b :: t, stop)
    else
      let (t, stop) := unescape argument fuel rest
      match simpleEscapes.lookup c with
      | some e => (e :: t, stop)
      | none => if c = '"' ∧ !argument then ('"' :: t, stop) else ('\\' :: c :: t, stop)
  | fuel + 1, c :: rest =>
    let (t, stop) := unescape argument fuel rest
    (c :: t, stop)

structure Directive where
  left : Bool := false
  zeros : Bool := false
  sign : Bool := false
  width : Nat := 0
  precision : Option Nat := none
  conversion : Char

/-- Reads a directive after its percent sign. -/
def readDirective (text : List Char) : Option (Directive × List Char) :=
  let flags := text.takeWhile fun c ↦ ['-', '0', '+', ' ', '#'].contains c
  let rest := text.drop flags.length
  let width := rest.takeWhile Char.isDigit
  let rest := rest.drop width.length
  let (precision, rest) :=
    match rest with
    | '.' :: more =>
      let digits := more.takeWhile Char.isDigit
      (some ((String.ofList digits).toNat?.getD 0), more.drop digits.length)
    | _ => (none, rest)
  match rest with
  | c :: rest =>
    some (⟨flags.contains '-', flags.contains '0', flags.contains '+',
      (String.ofList width).toNat?.getD 0, precision, c⟩, rest)
  | [] => none

def pad (d : Directive) (number : Bool) (text : List Char) : List Char :=
  let missing := d.width - text.length
  if d.left then text ++ List.replicate missing ' '
  else if d.zeros && number then
    match text with
    | '-' :: digits => '-' :: (List.replicate missing '0' ++ digits)
    | digits => List.replicate missing '0' ++ digits
  else List.replicate missing ' ' ++ text

/-- The value of digits in a base. -/
def inBaseValue (base : Nat) (text : List Char) : Nat :=
  text.foldl (fun n c ↦ n * base +
    (if c.isDigit then c.toNat - '0'.toNat else c.toLower.toNat - 'a'.toNat + 10)) 0

def isHexDigit (c : Char) : Bool := c.isDigit || ('a' ≤ c.toLower && c.toLower ≤ 'f')

/-- A number without a sign: hexadecimal after a zero and an x, octal after a zero, else decimal. -/
def readNumber (text : List Char) : Nat × List Char :=
  let taken (base : Nat) (isIt : Char → Bool) (text : List Char) :=
    (inBaseValue base (text.takeWhile isIt), text.dropWhile isIt)
  match text with
  | '0' :: x :: d :: rest =>
    if x.toLower = 'x' && isHexDigit d then taken 16 isHexDigit (d :: rest)
    else taken 8 isOctal text
  | '0' :: _ => taken 8 isOctal text
  | _ => taken 10 Char.isDigit text

/-- A number at the front of a text, after blanks, and what follows it. -/
def readSigned (text : List Char) : Int × List Char :=
  match text.dropWhile fun c ↦ c = ' ' || c = '\t' || c = '\n' with
  | '-' :: rest => let (n, rest) := readNumber rest; (-(n : Int), rest)
  | '+' :: rest => let (n, rest) := readNumber rest; (n, rest)
  | rest => let (n, rest) := readNumber rest; (n, rest)

def startsWithDigit (text : List Char) : Bool :=
  match text.dropWhile fun c ↦ c = ' ' || c = '\t' || c = '\n' with
  | '-' :: c :: _ => c.isDigit
  | '+' :: c :: _ => c.isDigit
  | c :: _ => c.isDigit
  | [] => false

/-- What is wrong with an argument of which this is left over. -/
def numberWarning (argument left : List Char) : Option (List Char) :=
  if argument.isEmpty then none
  else if !startsWithDigit argument then some (argument ++ ": expected numeric value".toList)
  else if left.isEmpty then none
  else some (argument ++ ": not completely converted".toList)

/-- The number that an argument reads as, or that of the character after a quote. -/
def integerOf (text : List Char) : Int × Option (List Char) :=
  match text with
  | '\'' :: c :: _ => (c.toNat, none)
  | '"' :: c :: _ => (c.toNat, none)
  | text =>
    if startsWithDigit text then
      let (n, left) := readSigned text
      (n, numberWarning text left)
    else (0, numberWarning text [])

def inBase (base : Nat) (n : Int) : List Char := Nat.toDigits base (n % UInt64.size).toNat

/-- The digits of a natural number, at least so many. -/
def digits (least : Nat) (n : Nat) : List Char :=
  let text := (toString n).toList
  List.replicate (least - text.length) '0' ++ text

/-- A number with so many places after the point, the exact value rounded. -/
def fixedText (places : Nat) (b : Binary) : List Char :=
  match b with
  | .finite negative m e =>
    let (num, den) := Binary.quotient m e
    let all := digits (places + 1) (roundDiv (num * Nat.pow 10 places) den)
    let cut := all.length - places
    (if negative then ['-'] else []) ++ all.take cut ++
      (if places = 0 then [] else '.' :: all.drop cut)
  | b => (b.text .double).toList.map Char.toLower

/-- A number with one digit before the point, so many after it, and an exponent. -/
def exponentText (places : Nat) (b : Binary) : List Char :=
  match b with
  | .finite negative m e =>
    let (num, den) := Binary.quotient m e
    let scaledTo (order : Int) : Nat :=
      let shift := (places : Int) - order
      roundDiv (num * Nat.pow 10 shift.toNat) (den * Nat.pow 10 (-shift).toNat)
    let first := if m = 0 then 0 else Decimal.order num den - 1
    let order := if Nat.pow 10 (places + 1) ≤ scaledTo first then first + 1 else first
    let text := digits (places + 1) (scaledTo order)
    (if negative then ['-'] else []) ++ text.take 1 ++
      (if places = 0 then [] else '.' :: text.drop 1) ++
      ['e', if order < 0 then '-' else '+'] ++ digits 2 order.natAbs
  | b => fixedText places b

/-- What a directive makes of an argument. -/
structure Piece where
  text : List Char
  warning : Option (List Char) := none
  /-- Whether the output ends here. -/
  stop : Bool := false

def convert (d : Directive) (argument : List Char) : Option Piece :=
  let cut (text : List Char) := (d.precision.map text.take).getD text
  let number (f : Int → List Char) : Option Piece :=
    let (n, warning) := integerOf argument
    let text := f n
    let sign := text.takeWhile fun c ↦ c = '-' || c = '+'
    let zeros := List.replicate ((d.precision.getD 0) - (text.length - sign.length)) '0'
    some ⟨pad { d with zeros := d.zeros && d.precision.isNone } true
      (sign ++ zeros ++ text.drop sign.length), warning, false⟩
  let decimal (n : Int) := (if d.sign && 0 ≤ n then ['+'] else []) ++ (toString n).toList
  match d.conversion with
  | 's' => some { text := pad d false (cut argument) }
  | 'b' =>
    let (text, stop) := unescape true (argument.length + 1) argument
    some { text := pad d false (cut text), stop := stop }
  | 'c' => some { text := pad d false (if argument.isEmpty then ['\x00'] else argument.take 1) }
  | 'd' => number decimal
  | 'i' => number decimal
  | 'u' => number (inBase 10)
  | 'x' => number (inBase 16)
  | 'X' => number fun n ↦ (inBase 16 n).map Char.toUpper
  | 'o' => number (inBase 8)
  | 'f' => some (float fixedText)
  | 'e' => some (float exponentText)
  | _ => none
where
  float (form : Nat → Binary → List Char) : Piece :=
    let value := Binary.ofText? .double (String.ofList argument)
    let warning :=
      if value.isSome || argument.isEmpty then none
      else some (argument ++ ": expected numeric value".toList)
    { text := pad d true (form (d.precision.getD 6) (value.getD (.finite false 0 0)))
      warning := warning }

/-- What came of a format so far: its text, the arguments left over, warnings, and why it ended
early if it did. -/
structure Printed where
  text : List Char := []
  left : List (List Char) := []
  warnings : List (List Char) := []
  stop : Bool := false
  fault : Option (List Char) := none

def Printed.after (front : List Char) (warning : Option (List Char)) (p : Printed) : Printed :=
  { p with text := front ++ p.text, warnings := warning.toList ++ p.warnings }

/-- What is made of a format by going through it once. -/
def once : Nat → List Char → List (List Char) → Printed
  | 0, _, arguments => { left := arguments }
  | _, [], arguments => { left := arguments }
  | fuel + 1, '%' :: '%' :: rest, arguments => (once fuel rest arguments).after ['%'] none
  | fuel + 1, '%' :: rest, arguments =>
    match readDirective rest with
    | none => { fault := some "missing format character".toList }
    | some (d, after) =>
      match convert d (arguments.headD []) with
      | none =>
        let text := '%' :: rest.take (rest.length - after.length)
        { fault := some (text ++ ": invalid directive".toList) }
      | some piece =>
        if piece.stop then { text := piece.text, stop := true }
        else (once fuel after (arguments.drop 1)).after piece.text piece.warning
  | fuel + 1, '\\' :: c :: rest, arguments =>
    if isOctal c then
      let (b, after) := octal 3 (c :: rest)
      (once fuel after arguments).after [b] none
    else (once fuel rest arguments).after (unescape false 3 ['\\', c]).1 none
  | fuel + 1, c :: rest, arguments => (once fuel rest arguments).after [c] none

/-- Goes through a format as often as it takes to use up the arguments. -/
def all : Nat → List Char → List (List Char) → Printed
  | 0, _, _ => {}
  | fuel + 1, format, arguments =>
    let p := once (format.length + 1) format arguments
    if p.stop || p.fault.isSome || p.left.isEmpty || p.left.length = arguments.length then p
    else
      let q := all fuel format p.left
      { q with text := p.text ++ q.text, warnings := p.warnings ++ q.warnings }

end FlexGate.Shell.Format
