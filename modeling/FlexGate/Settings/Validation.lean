import FlexGate.Failure
import FlexGate.Settings.Basic

/-!
Validation of settings. The rules are tried in a fixed order and the first that is broken is
reported.
-/

set_option autoImplicit false
set_option relaxedAutoImplicit false

namespace FlexGate.Settings

def badExtension? (extensions : List String) : Option String :=
  extensions.find? fun e ↦ !(e.toList.head? == some '.') || e.utf8ByteSize < 2

/-- A percentage that a limit can be set to. -/
def isUsablePercent (b : Binary) : Bool := b.isFinite && b.isPositive

def badPercent? (limits : LimitSettings) : Option Binary :=
  limits.maxCpuPercent.filter fun b ↦ !isUsablePercent b

/-- The rules in order: whether one is broken, with what is reported then. -/
def violations (s : Settings) : List (Option SettingsFailure) :=
  [ if (Text.trimmed s.interpreter.path).isEmpty then
      some (.invalidValue "cannot be empty" "interpreter.path" "" "interpreter name or path")
    else none,
    if s.interpreter.probeTimeoutSecs = 0 then
      some (.invalidValue "must be positive" "interpreter.probe_timeout_secs" "0" "seconds > 0")
    else none,
    if s.execution.defaultTimeoutSecs < minTimeoutSecs ∨
        maxTimeoutSecs < s.execution.defaultTimeoutSecs then
      some (.invalidValue "must be between 1 and 300" "execution.default_timeout_secs"
        (toString s.execution.defaultTimeoutSecs) "1..=300")
    else none,
    if s.execution.fileExtensions = [] then
      some (.invalidValue "at least one extension is required" "execution.file_extensions" "[]"
        "e.g. [\".flex\", \".flx\"]")
    else none,
    (badExtension? s.execution.fileExtensions).map fun bad ↦
      .invalidValue "extensions must start with '.'" "execution.file_extensions" bad
        "e.g. \".flex\"",
    if s.limits.maxMemoryMb = 0 then
      some (.invalidValue "must be positive" "limits.max_memory_mb" "0" "megabytes > 0")
    else none,
    (badPercent? s.limits).map fun bad ↦
      .invalidValue "must be a positive percentage" "limits.max_cpu_percent" (bad.text .single)
        "percent > 0, or null to disable",
    if s.limits.pollIntervalMs = 0 then
      some (.invalidValue "must be positive" "limits.poll_interval_ms" "0" "milliseconds > 0")
    else none,
    if s.analysis.longLineThreshold = 0 then
      some (.invalidValue "must be positive" "analysis.long_line_threshold" "0" "characters > 0")
    else none ]

def violation? (s : Settings) : Option SettingsFailure := s.violations.findSome? id

def validate (s : Settings) : Except Failure Settings :=
  match s.violation? with
  | some cause => .error (.settings cause)
  | none => .ok s

end FlexGate.Settings
