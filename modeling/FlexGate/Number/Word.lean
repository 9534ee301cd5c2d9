/-!
Counts held in 64 bits. Arithmetic on them saturates at the greatest one, and a text is read as one
only if it is a decimal number that fits.
-/

set_option autoImplicit false
set_option relaxedAutoImplicit false

namespace FlexGate.Word

def greatest : Nat := UInt64.size - 1

def saturate (n : Nat) : Nat := min n greatest

def mul (a b : Nat) : Nat := saturate (a * b)

def digit? (c : Char) : Option Nat :=
  if '0' ≤ c ∧ c ≤ '9' then some (c.toNat - '0'.toNat) else none

/-- Adds digits to a number already read. -/
def readDigits : Nat → List Char → Option Nat
  | n, [] => some n
  | n, c :: rest => (digit? c).bind fun d ↦ readDigits (n * 10 + d) rest

/-- An unsigned decimal number with an optional plus sign. -/
def ofChars? (cs : List Char) : Option Nat :=
  let digits := match cs with
    | '+' :: rest => rest
    | cs => cs
  if digits = [] then none
  else (readDigits 0 digits).filter (· ≤ greatest)

def ofText? (s : String) : Option Nat := ofChars? s.toList

end FlexGate.Word
