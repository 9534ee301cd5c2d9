import FlexGate.Settings.Validation
import FlexGate.Yaml.Document
import FlexGate.Yaml.Value

/-!
Settings from a YAML text. A section or a field that is missing keeps its default, and an unknown
one is passed over. The first thing that does not fit is reported with the field and the place
where it stands.
-/

set_option autoImplicit false
set_option relaxedAutoImplicit false

namespace FlexGate.Settings

open Yaml (Node Document Mark Fault)

/-- Why a YAML text does not give settings. -/
inductive YamlMisfit
  /-- A message, with the place and the field once they are known. -/
  | unfit (text : String) (spot : Option (Mark × String))
  | faulty (fault : Fault)
  | moreDocuments
  deriving DecidableEq, Repr

namespace YamlMisfit

def location? : YamlMisfit → Option Mark
  | .unfit _ spot => spot.map Prod.fst
  | .faulty fault => some fault.mark
  | .moreDocuments => none

def message : YamlMisfit → String
  | .unfit text none => text
  | .unfit text (some (mark, field)) =>
    (if field.isEmpty then "" else field ++ ": ") ++ text ++ Fault.located mark
  | .faulty fault => fault.message
  | .moreDocuments =>
    "deserializing from YAML containing more than one document is not supported"

def failure (file : Option String) (m : YamlMisfit) : SettingsFailure :=
  .invalidYaml m.message (m.location?.map (·.line + 1)) (m.location?.map (·.column + 1)) file

/-- Gives a message without a place the one at hand. -/
def placed (mark : Mark) (field : String) : YamlMisfit → YamlMisfit
  | .unfit text none => .unfit text (some (mark, field))
  | m => m

end YamlMisfit

/-- A value being read: the document that it is part of, the node and the field that holds it. -/
structure YamlSource where
  document : Document
  node : Node
  field : String

namespace YamlSource

abbrev Reader (α : Type) := YamlSource → Except YamlMisfit α

def mismatch {α : Type} (expected : String) (s : YamlSource) : Except YamlMisfit α :=
  match s.node with
  | .broken fault => .error (.faulty fault)
  | .scalar mark _ tag style text =>
    .error (.unfit (Yaml.Value.scalarMismatch tag style text expected) (some (mark, s.field)))
  | .sequence mark _ _ =>
    .error (.unfit (Yaml.Value.wrongType "sequence" expected) (some (mark, s.field)))
  | .mapping mark _ _ =>
    .error (.unfit (Yaml.Value.wrongType "map" expected) (some (mark, s.field)))
  | .alias mark _ => .error (.faulty (.unknownAnchor mark))

/-- Reads what an alias stands for in place of the alias. -/
def resolved (s : YamlSource) : YamlSource := { s with node := s.document.resolve s.node }

def string (expected : String) : Reader String := fun s ↦
  match s.resolved.node with
  | .scalar _ _ _ _ text => .ok text
  | _ => s.resolved.mismatch expected

def count (expected : String) : Reader Nat := fun s ↦
  match s.resolved.node with
  | .scalar _ _ tag style text =>
    match (Yaml.Value.unsigned? Word.greatest text.toList).filter
        fun _ ↦ Yaml.Value.isLiteral tag style "tag:yaml.org,2002:int" with
    | some n => .ok n
    | none => s.resolved.mismatch expected
  | _ => s.resolved.mismatch expected

def bool : Reader Bool := fun s ↦
  match s.resolved.node with
  | .scalar _ _ tag style text =>
    match (Yaml.Value.bool? text).filter
        fun _ ↦ Yaml.Value.isLiteral tag style "tag:yaml.org,2002:bool" with
    | some b => .ok b
    | none => s.resolved.mismatch "a boolean"
  | _ => s.resolved.mismatch "a boolean"

def percent : Reader Binary := fun s ↦
  match s.resolved.node with
  | .scalar _ _ tag style text =>
    match (Yaml.Value.double? text.toList).filter
        fun _ ↦ Yaml.Value.isLiteral tag style "tag:yaml.org,2002:float" with
    | some b => .ok (b.toPrecision .single)
    | none => s.resolved.mismatch "f32"
  | _ => s.resolved.mismatch "f32"

/-- Whether a scalar stands for no value at all, or why that cannot be told. -/
def absent (tag : Option String) (style : Yaml.ScalarStyle) (text : String) :
    Except String Bool :=
  if style ≠ .plain then .ok false
  else
    match tag with
    | none => .ok (text.isEmpty || Yaml.Value.isNull text)
    | some "tag:yaml.org,2002:null" =>
      if Yaml.Value.isNull text then .ok true
      else .error (Yaml.Value.wrongValue text "null")
    | some _ => .ok false

def optionalPercent : Reader (Option Binary) := fun s ↦
  match s.resolved.node with
  | .scalar _ _ tag style text =>
    match absent tag style text with
    | .ok true => .ok none
    | .ok false => (percent s.resolved).map some
    | .error message => .error (.unfit message none)
  | _ => (percent s.resolved).map some

def stringsFrom (s : YamlSource) : Nat → List Node → Except YamlMisfit (List String)
  | _, [] => .ok []
  | n, item :: rest => do
    let field := s.field ++ "[" ++ toString n ++ "]"
    let text ← string "a string" { s with node := item, field := field }
    return text :: (← stringsFrom s (n + 1) rest)

def strings : Reader (List String) := fun s ↦
  match s.resolved.node with
  | .sequence _ _ items => stringsFrom s 0 items
  | .scalar _ _ _ .plain "" => .ok []
  | _ => s.resolved.mismatch "a sequence"

/-- The field that holds the value of a key. -/
def child (s : YamlSource) (key : Node) : String :=
  let name := match key with
    | .scalar _ _ _ _ text => some text
    | _ => none
  match name with
  | some name => if s.field.isEmpty then name else s.field ++ "." ++ name
  | none => if s.field.isEmpty then "?" else s.field ++ ".?"

/-- How each known field of a section is read into the section. -/
abbrev Fields (σ : Type) := List (String × (YamlSource → σ → Except YamlMisfit σ))

/-- Reads keys and values in turn. A known field may be given once; the value of an unknown one
is passed over. -/
def entries {σ : Type} (fields : Fields σ) (s : YamlSource) :
    List Node → List String → σ → Except YamlMisfit σ
  | key :: value :: rest, seen, into => do
    let name ← string "field identifier" { s with node := key }
    match fields.lookup name with
    | some read =>
      if seen.contains name then .error (.unfit ("duplicate field `" ++ name ++ "`") none)
      else
        let into ← read { s with node := value, field := s.child key } into
        entries fields s rest (name :: seen) into
    | none =>
      match value.fault? with
      | some fault => .error (.faulty fault)
      | none => entries fields s rest seen into
  | [key], _, _ =>
    match string "field identifier" { s with node := key } with
    | .error e => .error e
    | .ok _ => .error (.unfit "a key without a value" none)
  | [], _, into => .ok into

/-- Reads a section of known fields. An empty one keeps every default. -/
def structured {σ : Type} (name : String) (fields : Fields σ) (defaults : σ) : Reader σ := fun s ↦
  let s := s.resolved
  match s.node with
  | .mapping mark _ nodes => (entries fields s nodes [] defaults).mapError (·.placed mark s.field)
  | .scalar _ _ _ .plain "" => .ok defaults
  | _ => s.mismatch ("struct " ++ name)

/-- A field that replaces one part of a section. -/
def part {σ α : Type} (name : String) (read : Reader α) (put : α → σ → σ) :
    String × (YamlSource → σ → Except YamlMisfit σ) :=
  (name, fun s into ↦ (read s).map fun a ↦ put a into)

def interpreter : Reader InterpreterSettings :=
  structured "InterpreterSettings" [
    part "path" (string "a string") fun a s ↦ { s with path := a },
    part "probe_timeout_secs" (count "u64") fun a s ↦ { s with probeTimeoutSecs := a }] {}

def execution : Reader ExecutionSettings :=
  structured "ExecutionSettings" [
    part "default_timeout_secs" (count "u64") fun a s ↦ { s with defaultTimeoutSecs := a },
    part "grace_period_ms" (count "u64") fun a s ↦ { s with gracePeriodMs := a },
    part "temp_dir" (string "path string") fun a s ↦ { s with tempDir := a },
    part "output_dir" (string "path string") fun a s ↦ { s with outputDir := a },
    part "file_extensions" strings fun a s ↦ { s with fileExtensions := a }] {}

def limits : Reader LimitSettings :=
  structured "LimitSettings" [
    part "max_memory_mb" (count "u64") fun a s ↦ { s with maxMemoryMb := a },
    part "max_cpu_percent" optionalPercent fun a s ↦ { s with maxCpuPercent := a },
    part "poll_interval_ms" (count "u64") fun a s ↦ { s with pollIntervalMs := a },
    part "max_file_size_mb" (count "u64") fun a s ↦ { s with maxFileSizeMb := a },
    part "enforce_rlimits" bool fun a s ↦ { s with enforceCeilings := a }] {}

def analysis : Reader AnalysisSettings :=
  structured "AnalysisSettings" [
    part "long_line_threshold" (count "usize") fun a s ↦ { s with longLineThreshold := a },
    part "lookahead_window" (count "usize") fun a s ↦ { s with lookaheadWindow := a }] {}

def settings : Reader Settings :=
  structured "Settings" [
    part "interpreter" interpreter fun a s ↦ { s with interpreter := a },
    part "execution" execution fun a s ↦ { s with execution := a },
    part "limits" limits fun a s ↦ { s with limits := a },
    part "analysis" analysis fun a s ↦ { s with analysis := a }] {}

end YamlSource

/-- The settings that a document holds. What is wrong with its values is reported before what is
wrong after its tree. -/
def ofDocument (d : Document) : Except YamlMisfit Settings :=
  match d.root with
  | none => .ok {}
  | some root => do
    let settings ← YamlSource.settings ⟨d, root, ""⟩
    match d.fault with
    | some fault => .error (.faulty fault)
    | none => if d.hasMore then .error .moreDocuments else .ok settings

/-- The settings that a YAML text gives, before they are validated. A blank text gives the
defaults. -/
def read (file : Option String) (text : String) : Except Failure Settings :=
  if (Text.trimmed text).isEmpty then .ok {}
  else
    match ofDocument (Document.ofText text.toList) with
    | .ok settings => .ok settings
    | .error misfit => .error (.settings (misfit.failure file))

def ofYaml (file : Option String) (text : String) : Except Failure Settings := do
  let settings ← read file text
  settings.validate

end FlexGate.Settings
