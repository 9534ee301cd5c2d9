import FlexGate.Number.Rounding

/-!
Binary floating-point values and the rounding of a quotient to one. A finite value is a sign, a
significand and an exponent of two, so comparisons are exact.
-/

set_option autoImplicit false
set_option relaxedAutoImplicit false

namespace FlexGate

/-- A format: the bits of a significand, and the least and the greatest exponent of its last
bit. -/
structure Precision where
  bits : Nat
  least : Int
  greatest : Int
  deriving DecidableEq, Repr

namespace Precision

def double : Precision := ⟨53, -1074, 971⟩

def single : Precision := ⟨24, -149, 104⟩

end Precision

inductive Binary
  | nan
  | infinite (negative : Bool)
  | finite (negative : Bool) (significand : Nat) (exponent : Int)
  deriving DecidableEq, Repr

namespace Binary

/-- The quotient of two numbers times a power of two, as a quotient. -/
def scaled (num den : Nat) (exponent : Int) : Nat × Nat :=
  if 0 ≤ exponent then (num * Nat.pow 2 exponent.toNat, den)
  else (num, den * Nat.pow 2 (-exponent).toNat)

/-- The exponent that the last bit of a quotient has in a format. -/
def lastBit (p : Precision) (num den : Nat) : Int :=
  let guess := max p.least ((Nat.log2 num : Int) - Nat.log2 den - p.bits)
  let (n, d) := scaled num den (-guess)
  if Nat.pow 2 p.bits ≤ n / d then guess + 1 else guess

/-- The value of a format nearest to a quotient. A tie goes to the even significand; what rounds
past the largest finite value is infinite. -/
def ofQuotient (p : Precision) (negative : Bool) (num den : Nat) : Binary :=
  if num = 0 then .finite negative 0 p.least
  else
    let e := lastBit p num den
    let (n, d) := scaled num den (-e)
    let m := roundDiv n d
    let (m, e) := if m = Nat.pow 2 p.bits then (m / 2, e + 1) else (m, e)
    if p.greatest < e then .infinite negative else .finite negative m e

def ofNat (p : Precision) (n : Nat) : Binary := ofQuotient p false n 1

def isFinite : Binary → Bool
  | .finite _ _ _ => true
  | _ => false

/-- The absolute value of a finite value as a quotient. -/
def quotient (m : Nat) (e : Int) : Nat × Nat := scaled m 1 e

/-- The value in another format. -/
def toPrecision (p : Precision) : Binary → Binary
  | .finite negative m e => ofQuotient p negative (quotient m e).1 (quotient m e).2
  | b => b

/-- A finite value times a power of two, as a whole number, for an exponent that is small
enough. -/
def units (lowest : Int) (negative : Bool) (m : Nat) (e : Int) : Int :=
  let magnitude : Int := (m * Nat.pow 2 (e - lowest).toNat : Nat)
  if negative then -magnitude else magnitude

/-- Whether the first value is less than the second. No comparison with a NaN holds. -/
def lt : Binary → Binary → Bool
  | .nan, _ => false
  | _, .nan => false
  | .infinite a, .infinite b => a && !b
  | .infinite a, .finite _ _ _ => a
  | .finite _ _ _, .infinite b => !b
  | .finite s m e, .finite t n f =>
    let lowest := min e f
    decide (units lowest s m e < units lowest t n f)

def isPositive (b : Binary) : Bool := lt (.finite false 0 0) b

end Binary

end FlexGate
