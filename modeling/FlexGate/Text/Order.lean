/-!
The order of texts by their code points, and sorting by it.
-/

set_option autoImplicit false
set_option relaxedAutoImplicit false

namespace FlexGate.Text

/-- Whether a text goes before another or is equal to it. -/
def precedes : List Char → List Char → Bool
  | [], _ => true
  | _ :: _, [] => false
  | a :: as, b :: bs => if a = b then precedes as bs else decide (a.toNat < b.toNat)

def sort (texts : List (List Char)) : List (List Char) := texts.mergeSort precedes

end FlexGate.Text
