import FlexGate.Execution.Machine
import FlexGate.Execution.Request
import FlexGate.Execution.Result
import FlexGate.Settings.Basic
import FlexGate.Source.Materialized

/-!
Running a source. The interpreter is probed, the source is put in a file, a process is started and
registered, and the run is over when the process ends, breaches a limit, runs out of time or is told
to end. Whatever happens, a temporary file is removed and the registration is given up.
-/

set_option autoImplicit false
set_option relaxedAutoImplicit false

namespace FlexGate

/-- A machine with the registry of what runs on it. -/
structure RunState (σ : Type) where
  world : σ
  room : RegistryRoom := {}

namespace Executor

variable {σ : Type}

/-- Probes the interpreter of the settings. -/
def probe (m : Machine σ) (interpreter : InterpreterSettings) (s : RunState σ) :
    RunState σ × Except RunFailure String :=
  let (world, course) := m.probe interpreter.path interpreter.probeTimeoutSecs s.world
  ({ s with world := world },
    match course.version interpreter.probeTimeoutSecs with
    | .ok version => .ok version
    | .error reason => .error (.interpreterUnavailable interpreter.path reason))

def launch (settings : Settings) (script : Path) (timeoutSecs : Nat) : Launch where
  interpreter := settings.interpreter.path
  script := script
  ceilings :=
    if settings.limits.enforceCeilings then some (settings.limits.ceilings timeoutSecs) else none
  policy := settings.limits.policy
  timeoutSecs := timeoutSecs
  graceMs := settings.execution.gracePeriodMs

/-- Why a run failed whose process was not told to end. -/
def failureOfEnding (l : Launch) (stderr : String) : Ending → Option RunFailure
  | .exited status =>
    if status.isSuccess then none else some (.exitedWith (exitCodeOf (some status)) stderr)
  | .waitFailed reason =>
    some (.spawnFailed l.interpreter ("failed to wait for process: " ++ reason))
  | .breached breach => some (.limitExceeded breach)
  | .outOfTime => some (.timedOut l.timeoutSecs)

/-- Why a run failed, if it did. Being told to end goes before every other ending. -/
def failureOf (l : Launch) (mailbox : Mailbox) (c : Course) : Option RunFailure :=
  match mailbox with
  | .told reason => some (.cancelled reason)
  | _ => failureOfEnding l c.output.stderrText c.ending

/-- How the process ended. One that ended by itself has the status that it ended with; every other
one, also one that was told to end, has that of having been made to. -/
def statusOf (mailbox : Mailbox) (c : Course) : Option ExitStatus :=
  match mailbox, c.ending with
  | .told _, _ => c.forced
  | _, .exited own => some own
  | _, _ => c.forced

def elapsed (m : Machine σ) (started : Nat) (s : RunState σ) : Nat := m.clock s.world - started

/-- Waits for a process that was registered, then gives up its guard and its mailbox. What the
mailbox holds counts when the wait is over; nobody looks at what it is told later. -/
def finish (m : Machine σ) (l : Launch) (guard : Guard) (started : Nat) (s : RunState σ) :
    RunState σ × RunResult :=
  let (world, course) := m.wait l s.world
  let room := course.others.foldl RegistryRoom.apply s.room
  let (room, mailbox) := room.read guard.ticket
  let room := course.later.foldl RegistryRoom.apply room
  let s : RunState σ := ⟨world, (room.dropGuard guard).dropMailbox guard.ticket⟩
  (s, .ended (failureOf l mailbox course) course.output (statusOf mailbox course)
    (elapsed m started s) (String.ofList l.script))

/-- Runs the script of a launch. Only an identity that is taken is a failure of its own; all else is
a result. -/
def runScript (m : Machine σ) (l : Launch) (id : RunId) (started : Nat) (s : RunState σ) :
    RunState σ × Except Failure RunResult :=
  match m.start l s.world with
  | (world, .error reason) =>
    let s := { s with world := world }
    (s, .ok (.refused (.spawnFailed l.interpreter reason) (elapsed m started s)
      (some (String.ofList l.script))))
  | (world, .ok pid) =>
    match s.room.register ⟨id, pid, l.interpreter, String.ofList l.script⟩ with
    | (room, none) => (⟨world, room⟩, .error (.duplicateIdentity id.text))
    | (room, some guard) =>
      let (s, result) := finish m l guard started ⟨world, room⟩
      (s, .ok result)

/-- Runs the script of a source and cleans up after it. -/
def runSource (m : Machine σ) (settings : Settings) (source : MaterializedSource) (id : RunId)
    (timeoutSecs started : Nat) (s : RunState σ) : RunState σ × Except Failure RunResult :=
  let (s, result) := runScript m (launch settings source.path timeoutSecs) id started s
  ({ s with world := source.cleanup m.store s.world }, result)

/-- Runs a request. -/
def execute (m : Machine σ) (settings : Settings) (request : RunRequest) (s : RunState σ) :
    RunState σ × Except Failure RunResult :=
  let started := m.clock s.world
  let (world, stamp) := m.stamp s.world
  match probe m settings.interpreter { s with world := world } with
  | (s, .error failure) => (s, .ok (.refused failure (elapsed m started s) none))
  | (s, .ok _) =>
    let plan := SourcePlan.make settings.execution request.fileName request.keep stamp
    match MaterializedSource.write m.store plan request.source s.world with
    | (world, .error failure) =>
      let s := { s with world := world }
      (s, .ok (.refused failure (elapsed m started s) (some (String.ofList plan.path))))
    | (world, .ok source) =>
      runSource m settings source stamp.id (clampTimeout request.timeoutSecs) started
        { s with world := world }

/-- What runs are told that are all stopped at once. -/
def stopReason : String := "kill_all requested"

/-- Tells all that runs to end. -/
def stopAll : RegistryEvent := .terminateAll stopReason

/-- Runs a source from a temporary file, in the usual time unless another is given. -/
def executeCode (m : Machine σ) (settings : Settings) (source : String)
    (timeoutSecs : Option Nat) (s : RunState σ) : RunState σ × Except Failure RunResult :=
  execute m settings
    { source := source
      timeoutSecs := timeoutSecs.getD settings.execution.defaultTimeoutSecs } s

/-- Runs a script where it is. -/
def executeFile (m : Machine σ) (settings : Settings) (path : Path) (timeoutSecs : Option Nat)
    (s : RunState σ) : RunState σ × Except Failure RunResult :=
  let started := m.clock s.world
  let (world, stamp) := m.stamp s.world
  match probe m settings.interpreter { s with world := world } with
  | (s, .error failure) => (s, .ok (.refused failure (elapsed m started s) none))
  | (s, .ok _) =>
    match m.store.read path s.world with
    | .error fault =>
      let text := String.ofList path
      (s, .ok (.refused
        (.materializationFailed (some text) ("cannot read " ++ text ++ ": " ++ fault.message))
        (elapsed m started s) (some text)))
    | .ok _ =>
      runSource m settings (.existing path) stamp.id
        (clampTimeout (timeoutSecs.getD settings.execution.defaultTimeoutSecs)) started s

end Executor

/-- What an executor says about itself. -/
structure ExecutorStats where
  interpreter : String
  version : Option String
  defaultTimeoutSecs : Nat
  maxMemoryMb : Nat
  maxCpuPercent : Option Binary
  limiter : String
  running : Nat
  deriving DecidableEq, Repr

namespace ExecutorStats

def isAvailable (s : ExecutorStats) : Bool := s.version.isSome

def json (s : ExecutorStats) : Json := .object
  [ ("interpreter", .string s.interpreter),
    ("interpreter_available", .bool s.isAvailable),
    ("interpreter_version", .ofOption .string s.version),
    ("default_timeout_secs", .ofNat s.defaultTimeoutSecs),
    ("max_memory_mb", .ofNat s.maxMemoryMb),
    ("max_cpu_percent", .ofOption .single s.maxCpuPercent),
    ("limiter", .string s.limiter),
    ("running_processes", .ofNat s.running) ]

/-- The lines that tell a user. -/
def render (s : ExecutorStats) : String :=
  "interpreter: " ++ s.interpreter ++
    (match s.version with
      | some version => " (" ++ version ++ ")"
      | none => " (unavailable)") ++
    "\ndefault timeout: " ++ toString s.defaultTimeoutSecs ++ "s" ++
    "\nmemory limit: " ++ toString s.maxMemoryMb ++ "MB" ++
    "\ncpu limit: " ++
    (match s.maxCpuPercent with
      | some percent => percent.text .single ++ "%"
      | none => "disabled") ++
    "\nlimiter: " ++ s.limiter ++ "\n"

end ExecutorStats

/-- Probes the interpreter and sums up what the executor would do. -/
def Executor.stats {σ : Type} (m : Machine σ) (settings : Settings) (s : RunState σ) :
    RunState σ × ExecutorStats :=
  let (s, version) := Executor.probe m settings.interpreter s
  (s,
    { interpreter := settings.interpreter.path
      version := version.toOption
      defaultTimeoutSecs := settings.execution.defaultTimeoutSecs
      maxMemoryMb := settings.limits.maxMemoryMb
      maxCpuPercent := settings.limits.maxCpuPercent
      limiter := settings.limits.limiter
      running := s.room.registry.size })

end FlexGate
