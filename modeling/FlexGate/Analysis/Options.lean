/-!
What a caller may tune in the analysis. No option changes which loops are critical.
-/

set_option autoImplicit false
set_option relaxedAutoImplicit false

namespace FlexGate

structure AnalysisOptions where
  /-- Lines with more characters than this are reported as long. -/
  longLine : Nat := 120
  /-- How many lines after the header of a loop are searched for an indexed access. -/
  lookahead : Nat := 10
  /-- Single letters that are accepted as names. -/
  shortNames : List String := ["i", "j", "x", "y"]
  deriving DecidableEq, Repr

end FlexGate
