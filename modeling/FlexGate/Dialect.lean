import FlexGate.Vocabulary

/-!
The dialect of a text, decided by which vocabularies occur in it. Keywords in comments and in
string literals count like any others.
-/

set_option autoImplicit false
set_option relaxedAutoImplicit false

namespace FlexGate

inductive Dialect
  | franco
  | english
  | mixed
  | undetermined
  deriving DecidableEq, Repr

namespace Dialect

def name : Dialect → String
  | .franco => "franco"
  | .english => "english"
  | .mixed => "mixed"
  | .undetermined => "undetermined"

/-- The name that reports carry in their machine-readable form. -/
def tag : Dialect → String
  | .franco => "dialect_a"
  | .english => "dialect_b"
  | .mixed => "mixed"
  | .undetermined => "undetermined"

def ofCounts (franco english : Nat) : Dialect :=
  if 0 < franco ∧ 0 < english then .mixed
  else if english < franco then .franco
  else if franco < english then .english
  else .undetermined

def classify (text : List Char) : Dialect :=
  ofCounts (Vocabulary.franco.count text) (Vocabulary.english.count text)

end Dialect

end FlexGate
