import FlexGate.Yaml.Scalar

/-!
The tokens of a YAML text.
-/

set_option autoImplicit false
set_option relaxedAutoImplicit false

namespace FlexGate.Yaml

inductive TokenKind
  | documentStart
  | documentEnd
  | textEnd
  | version (major minor : Nat)
  | tagHandle (handle uri : List Char)
  | blockSequence
  | blockMapping
  | blockEnd
  | flowSequence
  | flowSequenceEnd
  | flowMapping
  | flowMappingEnd
  | blockEntry
  | flowEntry
  | key
  | value
  | alias (name : List Char)
  | anchor (name : List Char)
  | tag (handle suffix : List Char)
  | scalar (style : ScalarStyle) (text : List Char)
  deriving DecidableEq, Repr

structure Token where
  kind : TokenKind
  start : Mark
  stop : Mark
  deriving DecidableEq, Repr

end FlexGate.Yaml
