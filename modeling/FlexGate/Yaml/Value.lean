import FlexGate.Number.Decimal
import FlexGate.Text.Quoted
import FlexGate.Yaml.Node

/-!
What a scalar stands for: nothing, a truth value, a whole number, a number with a point or a
string, and how a message names it when it is not what was expected.
-/

set_option autoImplicit false
set_option relaxedAutoImplicit false

namespace FlexGate.Yaml

namespace Value

def isNull (s : String) : Bool := ["null", "Null", "NULL", "~"].contains s

def bool? (s : String) : Option Bool :=
  if ["true", "True", "TRUE"].contains s then some true
  else if ["false", "False", "FALSE"].contains s then some false
  else none

def withoutSign : List Char → List Char
  | '+' :: rest => rest
  | '-' :: rest => rest
  | cs => cs

def withoutPlus : List Char → List Char
  | '+' :: rest => rest
  | cs => cs

/-- Digits with a zero in front, which are a string and not a number. -/
def isZeroPadded (cs : List Char) : Bool :=
  match withoutSign cs with
  | '0' :: c :: rest => (c :: rest).all Decimal.isDigit
  | _ => false

def digitOf? (radix : Nat) (c : Char) : Option Nat :=
  (Scalar.hexValue? c).filter (· < radix)

def digits? (radix : Nat) (cs : List Char) : Option Nat :=
  if cs = [] then none
  else cs.foldlM (fun n c ↦ (digitOf? radix c).map (n * radix + ·)) 0

def radixOf? : List Char → Option (Nat × List Char)
  | '0' :: 'x' :: rest => some (16, rest)
  | '0' :: 'o' :: rest => some (8, rest)
  | '0' :: 'b' :: rest => some (2, rest)
  | _ => none

/-- A number without a minus sign, up to a greatest one. -/
def unsigned? (greatest : Nat) (cs : List Char) : Option Nat :=
  let digits := withoutPlus cs
  let number := match radixOf? digits with
    | some (radix, rest) => digits? radix rest
    | none => if isZeroPadded cs then none else digits? 10 digits
  number.filter (· ≤ greatest)

/-- The absolute value of a number with a minus sign, up to a greatest one. -/
def negative? (greatest : Nat) : List Char → Option Nat
  | '-' :: rest =>
    let number := match radixOf? rest with
      | some (radix, digits) => digits? radix digits
      | none => if isZeroPadded ('-' :: rest) then none else digits? 10 rest
    number.filter (· ≤ greatest)
  | _ => none

def double? (cs : List Char) : Option Binary :=
  let digits := withoutPlus cs
  if ['+', '-'].any (fun sign ↦ cs.head? == some '+' && digits.head? == some sign) then none
  else if [".inf", ".Inf", ".INF"].contains (String.ofList digits) then some (.infinite false)
  else if ["-.inf", "-.Inf", "-.INF"].contains (String.ofList cs) then some (.infinite true)
  else if [".nan", ".NaN", ".NAN"].contains (String.ofList cs) then some .nan
  else (Binary.ofText? .double (String.ofList digits)).filter Binary.isFinite

/-- The words for a whole number, with its width if it is very wide. -/
def integerText? (cs : List Char) : Option String :=
  match unsigned? (UInt64.size - 1) cs with
  | some n => some ("integer `" ++ toString n ++ "`")
  | none =>
    match negative? (Nat.pow 2 63) cs with
    | some n => some ("integer `" ++ toString (-(n : Int)) ++ "`")
    | none =>
      match unsigned? (Nat.pow 2 128 - 1) cs with
      | some n => some ("integer `" ++ toString n ++ "` as u128")
      | none =>
        (negative? (Nat.pow 2 127) cs).map fun n ↦
          "integer `" ++ toString (-(n : Int)) ++ "` as i128"

def boolText (b : Bool) : String := "boolean `" ++ (if b then "true" else "false") ++ "`"

def doubleText (b : Binary) : String := "floating point `" ++ b.pointedText .double ++ "`"

def stringText (s : String) : String := "string " ++ Text.quoted s

/-- The words for a plain scalar without a tag. -/
def plainText (s : String) : String :=
  if s.isEmpty || isNull s then "unit value"
  else
    match bool? s with
    | some b => boolText b
    | none =>
      match integerText? s.toList with
      | some text => text
      | none =>
        if isZeroPadded s.toList then stringText s
        else
          match double? s.toList with
          | some b => doubleText b
          | none => stringText s

def wrongType (found expected : String) : String :=
  "invalid type: " ++ found ++ ", expected " ++ expected

def wrongValue (s expected : String) : String :=
  "invalid value: " ++ stringText s ++ ", expected " ++ expected

/-- A message on a scalar that is not of the expected type, or not of the type that its tag
names. -/
def scalarMismatch (tag : Option String) (style : ScalarStyle) (s expected : String) : String :=
  let untagged :=
    if style = .plain then wrongType (plainText s) expected
    else wrongType (stringText s) expected
  match tag with
  | none => untagged
  | some "tag:yaml.org,2002:bool" =>
    match bool? s with
    | some b => wrongType (boolText b) expected
    | none => wrongValue s "a boolean"
  | some "tag:yaml.org,2002:int" =>
    match integerText? s.toList with
    | some text => wrongType text expected
    | none => wrongValue s "an integer"
  | some "tag:yaml.org,2002:float" =>
    match double? s.toList with
    | some b => wrongType (doubleText b) expected
    | none => wrongValue s "a float"
  | some "tag:yaml.org,2002:null" =>
    if isNull s then wrongType "unit value" expected else wrongValue s "null"
  | some t => if t.startsWith "!" then untagged else wrongType (stringText s) expected

/-- Whether a scalar is read as a value of the type with the given tag. -/
def isLiteral (tag : Option String) (style : ScalarStyle) (expectedTag : String) : Bool :=
  style == .plain || (style == .literal && tag == some expectedTag)

end Value

end FlexGate.Yaml
