import FlexGate.Number.Decimal

/-!
Compact texts of floating-point values: the fewest digits that read back, written positionally
while the value is neither too large nor too small, and with an exponent otherwise. A whole number
written positionally has one zero after the point.
-/

set_option autoImplicit false
set_option relaxedAutoImplicit false

namespace FlexGate

/-- Where positional notation ends: the most digits before the point, and how many places after
the point the first digit may stand. -/
structure CompactForm where
  wholeDigits : Int
  leadingZeros : Int
  deriving DecidableEq, Repr

namespace CompactForm

def double : CompactForm := ⟨16, -5⟩

def single : CompactForm := ⟨13, -6⟩

end CompactForm

namespace Decimal

/-- One digit, the others after a point, and the exponent. -/
def withExponent (d : Decimal) : String :=
  let digits := (toString d.digits).toList
  let fraction := String.ofList (digits.drop 1)
  String.ofList (digits.take 1) ++ (if fraction.isEmpty then "" else "." ++ fraction) ++ "e" ++
    toString (d.exponent + digits.length - 1)

def compact (f : CompactForm) (d : Decimal) : String :=
  let point : Int := d.length + d.exponent
  if f.leadingZeros < point ∧ point ≤ f.wholeDigits then
    if 0 ≤ d.exponent then d.positional ++ ".0" else d.positional
  else d.withExponent

end Decimal

namespace Binary

/-- The compact text of a finite value; others have none. -/
def compact? (p : Precision) (f : CompactForm) : Binary → Option String
  | .finite negative 0 _ => some (Decimal.signed negative "0.0")
  | .finite negative m e => some (Decimal.signed negative ((Decimal.shortest p m e).compact f))
  | _ => none

end Binary

end FlexGate
