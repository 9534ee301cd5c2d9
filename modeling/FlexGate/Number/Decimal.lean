import FlexGate.Number.Binary

/-!
Decimal texts of binary floating-point values. A value is written with the fewest digits that read
back as the same value, and of those with the nearest ones, always positionally; or it is written
with one digit after the point, rounded from its exact value. A text is read as the nearest value.
-/

set_option autoImplicit false
set_option relaxedAutoImplicit false

namespace FlexGate

/-- A decimal number: some digits, read as a whole number, times a power of ten. -/
structure Decimal where
  digits : Nat
  exponent : Int
  deriving DecidableEq, Repr

namespace Decimal

def quotient (d : Decimal) : Nat × Nat :=
  if 0 ≤ d.exponent then (d.digits * Nat.pow 10 d.exponent.toNat, 1)
  else (d.digits, Nat.pow 10 (-d.exponent).toNat)

def length (d : Decimal) : Nat := (toString d.digits).length

/-- The decimal orders that a format of at most 64 bits can hold, with room to spare. -/
def widest : Int := 400

/-- The nearest value of a format. Numbers far outside every format are not multiplied out. -/
def toBinary (p : Precision) (negative : Bool) (d : Decimal) : Binary :=
  if d.digits = 0 then Binary.ofQuotient p negative 0 1
  else if widest < d.length + d.exponent then .infinite negative
  else if d.length + d.exponent < -widest then Binary.ofQuotient p negative 0 1
  else Binary.ofQuotient p negative d.quotient.1 d.quotient.2

/-- The digits with the point put in its place: positional notation, without a sign. -/
def positional (d : Decimal) : String :=
  let digits := toString d.digits
  if 0 ≤ d.exponent then digits ++ String.ofList (List.replicate d.exponent.toNat '0')
  else
    let places := (-d.exponent).toNat
    let padded := String.ofList (List.replicate (places + 1 - digits.length) '0') ++ digits
    let whole := padded.length - places
    String.ofList (padded.toList.take whole) ++ "." ++ String.ofList (padded.toList.drop whole)

def signed (negative : Bool) (text : String) : String := if negative then "-" ++ text else text

/-- The power of ten just above a positive quotient, found from below by counting up. -/
def orderFrom (num den : Nat) : Nat → Int → Int
  | 0, order => order
  | fuel + 1, order =>
    let (n, d) := quotient ⟨1, order⟩
    if num * d < n * den then order else orderFrom num den fuel (order + 1)

/-- The least power of ten above a positive quotient. -/
def order (num den : Nat) : Int :=
  orderFrom num den 4 ((toString num).length - (toString den).length - 1 : Int)

/-- The two neighbours of a quotient among the decimals with a given exponent, the nearer one
first; of two equally near ones the even one. -/
def neighbours (num den : Nat) (exponent : Int) : List Decimal :=
  let (n, d) := if 0 ≤ exponent then (num, den * Nat.pow 10 exponent.toNat)
    else (num * Nat.pow 10 (-exponent).toNat, den)
  let below : Decimal := ⟨n / d, exponent⟩
  let above : Decimal := ⟨n / d + 1, exponent⟩
  if roundDiv n d = n / d then [below, above] else [above, below]

/-- Looks for a decimal that reads back with one digit, then with two, and so on. -/
def shortestFrom (p : Precision) (num den : Nat) (order : Int) (value : Binary) :
    Nat → Int → Decimal
  | 0, places => ⟨(neighbours num den (order - places)).head?.elim 0 Decimal.digits,
      order - places⟩
  | fuel + 1, places =>
    match (neighbours num den (order - places)).find? fun d ↦ d.toBinary p false = value with
    | some d => d
    | none => shortestFrom p num den order value fuel (places + 1)

def dropZeros : Nat → Decimal → Decimal
  | 0, d => d
  | fuel + 1, d =>
    if d.digits ≠ 0 ∧ d.digits % 10 = 0 then dropZeros fuel ⟨d.digits / 10, d.exponent + 1⟩ else d

/-- The shortest decimal that reads back as a positive value of a format. -/
def shortest (p : Precision) (m : Nat) (e : Int) : Decimal :=
  let (num, den) := Binary.quotient m e
  dropZeros 20 (shortestFrom p num den (order num den) (Binary.ofQuotient p false num den) 20 1)

end Decimal

namespace Binary

/-- The fewest digits that read back, in positional notation. -/
def text (p : Precision) : Binary → String
  | .nan => "NaN"
  | .infinite negative => Decimal.signed negative "inf"
  | .finite negative 0 _ => Decimal.signed negative "0"
  | .finite negative m e => Decimal.signed negative (Decimal.shortest p m e).positional

/-- One digit after the point, rounded from the exact value; a tie goes to the even digit. -/
def oneDecimal : Binary → String
  | .nan => "NaN"
  | .infinite negative => Decimal.signed negative "inf"
  | .finite negative m e =>
    let (num, den) := quotient m e
    Decimal.signed negative (Decimal.positional ⟨roundDiv (num * 10) den, -1⟩)

/-- As `text`, but a whole number gets `.0`. -/
def pointedText (p : Precision) (b : Binary) : String :=
  let t := b.text p
  if b.isFinite && !t.toList.contains '.' then t ++ ".0" else t

end Binary

namespace Decimal

def digitValue (c : Char) : Nat := c.toNat - '0'.toNat

def isDigit (c : Char) : Bool := '0' ≤ c && c ≤ '9'

def ofDigits (cs : List Char) : Nat := cs.foldl (fun n c ↦ n * 10 + digitValue c) 0

/-- A whole number of decimal digits, at least one. -/
def readNat? (cs : List Char) : Option Nat :=
  if cs ≠ [] ∧ cs.all isDigit then some (ofDigits cs) else none

/-- An exponent with its mark, or nothing. -/
def readExponent? : List Char → Option Int
  | [] => some 0
  | c :: rest =>
    if c = 'e' ∨ c = 'E' then
      match rest with
      | '-' :: digits => (readNat? digits).map fun n ↦ -(n : Int)
      | '+' :: digits => (readNat? digits).map fun n ↦ (n : Int)
      | digits => (readNat? digits).map fun n ↦ (n : Int)
    else none

/-- Digits with at most one point, then at most one exponent. -/
def readUnsigned? (cs : List Char) : Option Decimal := do
  let whole := cs.takeWhile isDigit
  let rest := cs.dropWhile isDigit
  let (fraction, rest) := match rest with
    | '.' :: rest => (rest.takeWhile isDigit, rest.dropWhile isDigit)
    | rest => ([], rest)
  if whole = [] ∧ fraction = [] then none
  else
    let exponent ← readExponent? rest
    return ⟨ofDigits (whole ++ fraction), exponent - fraction.length⟩

end Decimal

namespace Binary

def unsignedOfText? (p : Precision) (negative : Bool) (cs : List Char) : Option Binary :=
  match String.ofList (cs.map Char.toLower) with
  | "inf" => some (.infinite negative)
  | "infinity" => some (.infinite negative)
  | "nan" => some .nan
  | _ => (Decimal.readUnsigned? cs).map fun d ↦ d.toBinary p negative

/-- Reads a decimal text, with or without a sign. -/
def ofText? (p : Precision) (s : String) : Option Binary :=
  match s.toList with
  | '-' :: rest => unsignedOfText? p true rest
  | '+' :: rest => unsignedOfText? p false rest
  | cs => unsignedOfText? p false cs

end Binary

end FlexGate
