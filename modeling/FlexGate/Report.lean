import FlexGate.Dialect
import FlexGate.Finding

/-!
The report on a program: its dialect, the findings that make it unacceptable, and the warnings and
suggestions that do not.
-/

set_option autoImplicit false
set_option relaxedAutoImplicit false

namespace FlexGate

inductive Warning
  | mixedDialects
  | shortName (line : Nat) (name : List Char)
  | longLine (line length : Nat)
  deriving DecidableEq

def Warning.message : Warning → String
  | .mixedDialects => "Code mixes Franco and English syntax; consider using a consistent style"
  | .shortName line name =>
    "Line " ++ toString line ++ ": Consider using more descriptive variable names (found '" ++
      String.ofList name ++ "')"
  | .longLine line length =>
    "Line " ++ toString line ++ ": Line is very long (" ++ toString length ++
      " characters); consider breaking it up"

inductive Advice
  | chooseDialect
  | validateInput
  | guardDivision
  | addComments
  deriving DecidableEq, Repr

def Advice.message : Advice → String
  | .chooseDialect => "Consider using explicit Franco or English syntax for clarity"
  | .validateInput => "Consider adding input validation for user inputs"
  | .guardDivision => "Consider adding error handling for division operations"
  | .addComments => "Consider adding comments to explain complex logic"

structure Report where
  dialect : Dialect
  findings : List Finding
  warnings : List Warning
  suggestions : List Advice
  deriving DecidableEq

namespace Report

/-- No finding was made. Warnings and suggestions do not count. -/
def isAcceptable (r : Report) : Bool := r.findings.isEmpty

def hasCriticalLoop (r : Report) : Bool := r.findings.any Finding.isCritical

def findingsOf (r : Report) (kind : FindingKind) : List Finding :=
  r.findings.filter fun f ↦ f.kind == kind

def status (r : Report) : String :=
  if r.hasCriticalLoop then "rejected (critical loop-bound defect)"
  else if r.isAcceptable then "acceptable"
  else "rejected"

def renderedLines (r : Report) : List String :=
  ["dialect: " ++ r.dialect.name, "status: " ++ r.status] ++
    r.findings.flatMap Finding.rendered ++
    r.warnings.map (fun w ↦ "warning: " ++ w.message) ++
    r.suggestions.map (fun a ↦ "suggestion: " ++ a.message)

/-- The text report, each of its lines ended by a line feed. -/
def render (r : Report) : String :=
  (r.renderedLines.map fun line ↦ line ++ "\n").foldl (· ++ ·) ""

theorem hasCriticalLoop_eq_false_of_isAcceptable {r : Report} (h : r.isAcceptable = true) :
    r.hasCriticalLoop = false := by
  simp_all [isAcceptable, hasCriticalLoop, List.isEmpty_iff]

end Report

end FlexGate
