import FlexGate.Analysis.Options
import FlexGate.Limit.Ceilings
import FlexGate.Limit.Policy
import FlexGate.Number.Word

/-!
The settings: where the interpreter is, how scripts are run and stored, what they may use, and how
they are analysed.
-/

set_option autoImplicit false
set_option relaxedAutoImplicit false

namespace FlexGate

structure InterpreterSettings where
  path : String := "flex"
  probeTimeoutSecs : Nat := 5
  deriving DecidableEq, Repr

structure ExecutionSettings where
  defaultTimeoutSecs : Nat := 30
  gracePeriodMs : Nat := 2000
  tempDir : String := "./temp"
  outputDir : String := "./flex_examples"
  fileExtensions : List String := [".flex", ".flx"]
  deriving DecidableEq, Repr

structure LimitSettings where
  maxMemoryMb : Nat := 512
  /-- No value switches the limit off. -/
  maxCpuPercent : Option Binary := some (Binary.ofNat .single 50)
  pollIntervalMs : Nat := 500
  maxFileSizeMb : Nat := 10
  enforceCeilings : Bool := true
  deriving DecidableEq, Repr

structure AnalysisSettings where
  longLineThreshold : Nat := 120
  lookaheadWindow : Nat := 10
  deriving DecidableEq, Repr

structure Settings where
  interpreter : InterpreterSettings := {}
  execution : ExecutionSettings := {}
  limits : LimitSettings := {}
  analysis : AnalysisSettings := {}
  deriving DecidableEq, Repr

/-- The file that settings are read from when no other is named. -/
def defaultSettingsFile : String := "flexguard.yaml"

def minTimeoutSecs : Nat := 1

def maxTimeoutSecs : Nat := 300

def clampTimeout (seconds : Nat) : Nat := max minTimeoutSecs (min seconds maxTimeoutSecs)

def bytesPerMb : Nat := 1024 * 1024

namespace LimitSettings

def maxMemoryBytes (l : LimitSettings) : Nat := Word.mul l.maxMemoryMb bytesPerMb

def maxFileSizeBytes (l : LimitSettings) : Nat := Word.mul l.maxFileSizeMb bytesPerMb

/-- Never zero. -/
def pollInterval (l : LimitSettings) : Nat := max l.pollIntervalMs 1

def policy (l : LimitSettings) : LimitPolicy := ⟨l.maxMemoryMb, l.maxCpuPercent⟩

/-- The ceilings of a run. Processor time may reach twice the time that the run may take. -/
def ceilings (l : LimitSettings) (timeoutSecs : Nat) : Ceilings where
  memoryBytes := l.maxMemoryBytes
  cpuSeconds := Word.mul timeoutSecs 2
  fileSizeBytes := l.maxFileSizeBytes

/-- What keeps a process within its limits: ceilings of the system, or only the watch on samples. -/
def limiter (l : LimitSettings) : String := if l.enforceCeilings then "rlimit" else "polling-only"

end LimitSettings

def AnalysisSettings.options (a : AnalysisSettings) : AnalysisOptions :=
  { longLine := a.longLineThreshold, lookahead := a.lookaheadWindow }

end FlexGate
