import FlexGate.Analysis.Braces
import FlexGate.Analysis.Remarks
import FlexGate.Analysis.Safety
import FlexGate.Analysis.Terminators

/-!
The analysis of a program. It is lexical: every check looks at lines, without parsing the
program, and defects are data of the report.
-/

set_option autoImplicit false
set_option relaxedAutoImplicit false

namespace FlexGate

namespace Analysis

def findings (options : AnalysisOptions) (lines : List (List Char)) : List Finding :=
  terminators lines ++ braces lines ++ safety options.lookahead lines

end Analysis

open Analysis

def analyze (options : AnalysisOptions) (text : List Char) : Report :=
  let lines := Text.lines text
  let dialect := Dialect.classify text
  { dialect := dialect
    findings := findings options lines
    warnings := warnings options dialect lines
    suggestions := suggestions dialect text }

/-- The report on the program in a string. -/
def Report.ofSource (options : AnalysisOptions) (source : String) : Report :=
  analyze options source.toList

/-- The critical loops of a program, without the rest of the analysis. -/
def loopFindings (text : List Char) : List Finding := criticalLoops (Text.lines text)

def isLoopSafe (text : List Char) : Bool := (loopFindings text).isEmpty

end FlexGate
