/-!
The identity of a run, and the moment at which it was given.
-/

set_option autoImplicit false
set_option relaxedAutoImplicit false

namespace FlexGate

structure RunId where
  text : String
  deriving DecidableEq, Repr

namespace RunId

/-- The eight digits that stand for the identity in file names. -/
def short (id : RunId) : String :=
  String.ofList ((id.text.toList.filter (· ≠ '-')).take 8)

/-- The identity that has a number, of which it shows as much as eight digits do. -/
def ofNumber (n : Nat) : RunId :=
  let digits := Nat.toDigits 16 (n % UInt32.size)
  ⟨String.ofList (List.replicate (8 - digits.length) '0' ++ digits)⟩

end RunId

/-- An identity with the local time at which it was given, as a date and a time of day. -/
structure RunStamp where
  time : String
  id : RunId
  deriving DecidableEq, Repr

end FlexGate
