import FlexGate.Analysis.Options
import FlexGate.Report

/-!
Warnings and suggestions, which never make a program unacceptable.
-/

set_option autoImplicit false
set_option relaxedAutoImplicit false

namespace FlexGate.Analysis

/-- The names of a single letter on a line that are not among the accepted ones. -/
def shortNames (accepted : List String) (line : List Char) : List (List Char) :=
  ((Shape.singleLetterName.findAll line).map Match.text).filter fun name ↦
    !accepted.contains (String.ofList name)

/-- At most one warning a line: the first name counts. -/
def nameWarningsFrom (accepted : List String) : Nat → List (List Char) → List Warning
  | _, [] => []
  | n, line :: rest =>
    ((shortNames accepted line).head?.map (Warning.shortName n)).toList ++
      nameWarningsFrom accepted (n + 1) rest

def lengthWarningsFrom (longest : Nat) : Nat → List (List Char) → List Warning
  | _, [] => []
  | n, line :: rest =>
    (if longest < line.length then [Warning.longLine n line.length] else []) ++
      lengthWarningsFrom longest (n + 1) rest

def warnings (options : AnalysisOptions) (dialect : Dialect) (lines : List (List Char)) :
    List Warning :=
  (if dialect = .mixed then [Warning.mixedDialects] else []) ++
    nameWarningsFrom options.shortNames 1 lines ++ lengthWarningsFrom options.longLine 1 lines

def commentMarkers : List String := ["#", "//"]

def hasComment (text : List Char) : Bool :=
  commentMarkers.any fun marker ↦ Text.hasInfix marker.toList text

def dividesUnguarded (text : List Char) : Bool :=
  Shape.divisionOperator.occursIn text && !Shape.conditionalGuard.occursIn text

def suggestions (dialect : Dialect) (text : List Char) : List Advice :=
  (if dialect = .undetermined then [Advice.chooseDialect] else []) ++
    (if Shape.inputCall.occursIn text then [Advice.validateInput] else []) ++
    (if dividesUnguarded text then [Advice.guardDivision] else []) ++
    (if hasComment text then [] else [Advice.addComments])

end FlexGate.Analysis
