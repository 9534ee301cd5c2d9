import FlexGate.Json.Basic
import FlexGate.Settings.Validation
import FlexGate.Text.Quoted

/-!
Settings from a JSON value. A section is an object with some of its fields, or an array of them in
order; what is missing keeps its default. The message of the first value that does not fit is
given.
-/

set_option autoImplicit false
set_option relaxedAutoImplicit false

namespace FlexGate.Settings

namespace JsonSource

abbrev Reader (α : Type) := Json → Except String α

/-- The words for a value in a message. -/
def described : Json → String
  | .null => "null"
  | .bool value => "boolean `" ++ (if value then "true" else "false") ++ "`"
  | .integer value => "integer `" ++ toString value ++ "`"
  | .single value => "floating point `" ++ (value.compact? .single .single).getD "" ++ "`"
  | .double value => "floating point `" ++ (value.compact? .double .double).getD "" ++ "`"
  | .string value => "string " ++ Text.quoted value
  | .array _ => "sequence"
  | .object _ => "map"

def mismatch {α : Type} (expected : String) (j : Json) : Except String α :=
  .error ("invalid type: " ++ described j ++ ", expected " ++ expected)

def string (expected : String) : Reader String
  | .string value => .ok value
  | j => mismatch expected j

def count (expected : String) : Reader Nat
  | .integer value =>
    if 0 ≤ value then .ok value.toNat
    else .error ("invalid value: " ++ described (.integer value) ++ ", expected " ++ expected)
  | j => mismatch expected j

def bool : Reader Bool
  | .bool value => .ok value
  | j => mismatch "a boolean" j

def percent : Reader Binary
  | .integer value => .ok (Binary.ofQuotient .single (decide (value < 0)) value.natAbs 1)
  | .single value => .ok value
  | .double value => .ok (value.toPrecision .single)
  | j => mismatch "f32" j

def optionalPercent : Reader (Option Binary)
  | .null => .ok none
  | j => (percent j).map some

def strings : Reader (List String)
  | .array items => items.mapM (string "a string")
  | j => mismatch "a sequence" j

abbrev Fields (σ : Type) := List (String × (Json → σ → Except String σ))

def readMembers {σ : Type} (fields : Fields σ) : List (String × Json) → σ → Except String σ
  | [], into => .ok into
  | (name, value) :: rest, into => do
    match fields.lookup name with
    | some read => readMembers fields rest (← read value into)
    | none => readMembers fields rest into

/-- Reads values into the fields in order. Values beyond the last field are left over. -/
def readItems {σ : Type} : Fields σ → List Json → σ → Except String (σ × List Json)
  | [], items, into => .ok (into, items)
  | _, [], into => .ok (into, [])
  | (_, read) :: fields, item :: rest, into => do readItems fields rest (← read item into)

def structured {σ : Type} (name : String) (fields : Fields σ) (defaults : σ) : Reader σ
  | .object members => readMembers fields members defaults
  | .array items => do
    let (into, left) ← readItems fields items defaults
    if left.isEmpty then return into
    else
      .error ("invalid length " ++ toString items.length ++ ", expected fewer elements in array")
  | j => mismatch ("struct " ++ name) j

def part {σ α : Type} (name : String) (read : Reader α) (put : α → σ → σ) :
    String × (Json → σ → Except String σ) :=
  (name, fun j into ↦ (read j).map fun a ↦ put a into)

def interpreter : Reader InterpreterSettings :=
  structured "InterpreterSettings" [
    part "path" (string "a string") fun a s ↦ { s with path := a },
    part "probe_timeout_secs" (count "u64") fun a s ↦ { s with probeTimeoutSecs := a }] {}

def execution : Reader ExecutionSettings :=
  structured "ExecutionSettings" [
    part "default_timeout_secs" (count "u64") fun a s ↦ { s with defaultTimeoutSecs := a },
    part "grace_period_ms" (count "u64") fun a s ↦ { s with gracePeriodMs := a },
    part "temp_dir" (string "path string") fun a s ↦ { s with tempDir := a },
    part "output_dir" (string "path string") fun a s ↦ { s with outputDir := a },
    part "file_extensions" strings fun a s ↦ { s with fileExtensions := a }] {}

def limits : Reader LimitSettings :=
  structured "LimitSettings" [
    part "max_memory_mb" (count "u64") fun a s ↦ { s with maxMemoryMb := a },
    part "max_cpu_percent" optionalPercent fun a s ↦ { s with maxCpuPercent := a },
    part "poll_interval_ms" (count "u64") fun a s ↦ { s with pollIntervalMs := a },
    part "max_file_size_mb" (count "u64") fun a s ↦ { s with maxFileSizeMb := a },
    part "enforce_rlimits" bool fun a s ↦ { s with enforceCeilings := a }] {}

def analysis : Reader AnalysisSettings :=
  structured "AnalysisSettings" [
    part "long_line_threshold" (count "usize") fun a s ↦ { s with longLineThreshold := a },
    part "lookahead_window" (count "usize") fun a s ↦ { s with lookaheadWindow := a }] {}

def settings : Reader Settings :=
  structured "Settings" [
    part "interpreter" interpreter fun a s ↦ { s with interpreter := a },
    part "execution" execution fun a s ↦ { s with execution := a },
    part "limits" limits fun a s ↦ { s with limits := a },
    part "analysis" analysis fun a s ↦ { s with analysis := a }] {}

end JsonSource

/-- The settings that a JSON value gives, not validated. -/
def ofJson (j : Json) : Except String Settings := JsonSource.settings j

end FlexGate.Settings
