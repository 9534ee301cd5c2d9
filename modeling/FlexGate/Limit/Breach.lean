import FlexGate.Number.Decimal

/-!
A breach of a resource limit: what was observed, and the limit that it is above.
-/

set_option autoImplicit false
set_option relaxedAutoImplicit false

namespace FlexGate

inductive Breach
  | memory (observedMb : Binary) (limitMb : Nat)
  | cpu (observedPercent limitPercent : Binary)
  deriving DecidableEq, Repr

namespace Breach

def resource : Breach → String
  | .memory _ _ => "memory"
  | .cpu _ _ => "cpu"

def message : Breach → String
  | .memory observed limit =>
    "exceeded memory limit (" ++ observed.oneDecimal ++ "MB > " ++ toString limit ++ "MB)"
  | .cpu observed limit =>
    "exceeded CPU limit (" ++ observed.oneDecimal ++ "% > " ++ limit.oneDecimal ++ "%)"

end Breach

end FlexGate
