import FlexGate.Execution.Process
import FlexGate.FileTree.Access
import FlexGate.Limit.Ceilings
import FlexGate.Shell.Statement

/-!
What a running shell has: its files, its parameters, what its channels are connected to, and the
watch that it is under. Time passes while a shell sleeps, and while it goes through many turns of
loops; only then can it be interrupted.
-/

set_option autoImplicit false
set_option relaxedAutoImplicit false

namespace FlexGate.Shell

/-- Bytes as characters with their numbers. -/
def ofBytes (bytes : List UInt8) : List Char := bytes.map fun b ↦ Char.ofNat b.toNat

def toBytes (text : List Char) : List UInt8 := text.map fun c ↦ UInt8.ofNat c.toNat

/-- The bytes of a text. -/
def ofText (text : List Char) : List Char := ofBytes (Text.Utf8.encode text)

def ofString (text : String) : List Char := ofText text.toList

/-- The text that bytes encode. -/
def toText (bytes : List Char) : List Char := Text.Utf8.decodeLossy (toBytes bytes)

/-- What a channel is connected to. -/
inductive Channel
  | stdout
  | stderr
  /-- Text that is kept for whoever reads it. -/
  | buffer (index : Nat)
  | file (place : Place)
  | nowhere
  /-- Text that can be read, of which a part may have been. -/
  | source (index : Nat)
  deriving DecidableEq, Repr

/-- What a shell does when it gets a signal, if it does not end. -/
inductive Trap
  | ignore
  | run (script : List Char)
  deriving DecidableEq, Repr

/-- What interrupted a shell. -/
inductive Interruption
  | told
  | breached (breach : Breach)
  | outOfTime
  deriving DecidableEq, Repr

/-- What interrupts a shell: a breach as soon as it sleeps, a state of the files in which it is told
to end, and the end of its time. -/
structure Watch where
  breach : Option Breach := none
  stops : FileTree → Bool := fun _ ↦ false
  limitMs : Nat
  graceMs : Nat

/-- How the evaluation of a statement is left early. -/
inductive Stop
  | exit (code : Nat)
  /-- A signal ends one process, or all that are left. -/
  | killed (signal : Nat) (process : Option Nat)
  | leave (levels : Nat)
  | again (levels : Nat)
  | return (code : Nat)
  /-- A job has no time left for now. -/
  | suspended
  deriving DecidableEq, Repr

abbrev Variables := List (List Char × List Char)

/-- Something that runs beside a script: what it began with, and how much it has written so far. -/
structure Job where
  process : Nat
  body : Statement
  bindings : Variables
  functions : List (List Char × Statement)
  arguments : List (List Char)
  channels : List (Nat × Channel)
  launched : Nat
  /-- The process that it belongs to. -/
  owner : Nat
  written : Nat := 0

/-- How a job ended. -/
structure JobEnd where
  process : Nat
  status : Nat
  signal : Option Nat := none

structure Session where
  files : FileTree
  watch : Watch
  /-- The name that messages begin with. -/
  name : List Char
  /-- What brought in the text that is being read, if it is not the script's own. -/
  readIn : Option (List Char) := none
  arguments : List (List Char) := []
  bindings : Variables := []
  /-- The names of variables that programs see. -/
  exported : List (List Char) := []
  readOnly : List (List Char) := []
  /-- The variables that calls of functions put aside, the innermost call first. -/
  aside : List (List (List Char × Option (List Char))) := []
  functions : List (List Char × Statement) := []
  traps : List (Nat × Trap) := []
  status : Nat := 0
  line : Nat := 1
  /-- The number of the shell that runs, as it tells it. -/
  shell : Nat := 1
  process : Nat := 1
  nextProcess : Nat := 2
  jobs : List Job := []
  ended : List JobEnd := []
  ceilings : Option Ceilings := none
  channels : List (Nat × Channel) := [(0, .nowhere), (1, .stdout), (2, .stderr)]
  /-- What was written, the last piece first. -/
  stdout : List (List Char) := []
  stderr : List (List Char) := []
  buffers : List (Nat × List (List Char)) := []
  sources : List (Nat × List Char) := []
  nextIndex : Nat := 0
  clock : Nat := 0
  interruption : Option Interruption := none
  /-- Whether this shell has done what it does at the interruption. -/
  heard : Bool := false
  /-- The traps of the first shell, in any other. -/
  firstTraps : Option (List (Nat × Trap)) := none
  /-- The time left after an interruption. -/
  grace : Nat := 0
  /-- The time up to which a job may run, if this is one. -/
  deadline : Option Nat := none
  /-- How many turns of loops there were. -/
  turns : Nat := 0
  written : Nat := 0
  /-- How many pieces are not written because they were before. -/
  muted : Nat := 0
  loops : Nat := 0
  /-- Whether a command that fails ends the script. -/
  strict : Bool := false
  /-- Whether a parameter that is not set ends the script. -/
  needsSet : Bool := false
  traces : Bool := false
  /-- Whether wildcards stand for themselves. -/
  plainPaths : Bool := false
  /-- Whether a command is only asked whether it succeeds. -/
  asked : Bool := false

/-- A session after another that changed only what is around it. -/
def Session.after (before s : Session) : Session :=
  { before with
    files := { s.files with here := before.files.here }
    status := s.status
    nextProcess := s.nextProcess
    jobs := s.jobs
    ended := s.ended
    stdout := s.stdout
    stderr := s.stderr
    buffers := s.buffers
    sources := s.sources
    nextIndex := s.nextIndex
    clock := s.clock
    interruption := s.interruption
    grace := s.grace
    turns := s.turns
    written := s.written
    muted := s.muted }

abbrev Eval (α : Type) := ExceptT Stop (StateM Session) α

namespace Eval

def setStatus (code : Nat) : Eval Unit := modify fun s ↦ { s with status := code }

def pieces (written : List (List Char)) : List Char := written.reverse.flatten

def update {α : Type} (index : Nat) (value : α) (entries : List (Nat × α)) : List (Nat × α) :=
  (index, value) :: entries.filter fun e ↦ e.1 ≠ index

/-- The number of the signal for a file that grows too large. -/
def fileSizeSignal : Nat := 25

/-- Adds text to a file. A file that would grow beyond its ceiling grows up to it, and the process
is killed. -/
def appendFile (place : Place) (text : List Char) : Eval Unit := do
  let s ← get
  match s.files.get? place with
  | some (.file bytes executable) =>
    let all := bytes ++ toBytes text
    let limit := (s.ceilings.map Ceilings.fileSizeBytes).getD all.length
    set { s with files := s.files.put place (.file (all.take limit) executable) }
    if limit < all.length then throw (.killed fileSizeSignal (some s.process))
  | _ => pure ()

/-- Writes a piece of text, unless it was written before. -/
def writePiece (put : Session → Session) : Eval Unit :=
  modify fun s ↦
    if s.muted = 0 then put { s with written := s.written + 1 } else { s with muted := s.muted - 1 }

def write (channel : Nat) (text : List Char) : Eval Unit := do
  match (← get).channels.lookup channel with
  | some .stdout => writePiece fun s ↦ { s with stdout := text :: s.stdout }
  | some .stderr => writePiece fun s ↦ { s with stderr := text :: s.stderr }
  | some (.buffer index) =>
    writePiece fun s ↦
      { s with buffers := update index (text :: (s.buffers.lookup index).getD []) s.buffers }
  | some (.file place) => if text.isEmpty then pure () else appendFile place text
  | _ => pure ()

/-- Tells the user something, after the name of the script and the line. -/
def complain (message : List Char) : Eval Unit := do
  let s ← get
  write 2 (s.name ++ ofString (": " ++ toString s.line ++ ": ") ++ message ++ ['\n'])

/-- As `complain`, but what brought in the text that is being read is named too. -/
def complainWithin (message : List Char) : Eval Unit := do
  match (← get).readIn with
  | some name => complain (name ++ ofString ": " ++ message)
  | none => complain message

/-- What can still be read from the input. -/
def input : Eval (List Char) := do
  let s ← get
  match s.channels.lookup 0 with
  | some (.source index) => return (s.sources.lookup index).getD []
  | some (.file place) =>
    match s.files.get? place with
    | some (.file bytes _) => return ofBytes bytes
    | _ => return []
  | _ => return []

/-- Leaves only a text to be read from the input. -/
def setInput (rest : List Char) : Eval Unit := do
  let s ← get
  match s.channels.lookup 0 with
  | some (.source index) => set { s with sources := update index rest s.sources }
  | _ => pure ()

def takeInput : Eval (List Char) := do
  let text ← input
  setInput []
  return text

def connect (number : Nat) (channel : Channel) : Eval Unit :=
  modify fun s ↦ { s with channels := update number channel s.channels }

/-- A source with a text. -/
def newSource (text : List Char) : Eval Channel := do
  let s ← get
  set { s with sources := (s.nextIndex, text) :: s.sources, nextIndex := s.nextIndex + 1 }
  return .source s.nextIndex

def newBuffer : Eval Nat := do
  let s ← get
  set { s with buffers := (s.nextIndex, []) :: s.buffers, nextIndex := s.nextIndex + 1 }
  return s.nextIndex

/-- Does something with channels of its own and goes back to the old ones. -/
def withChannels {α : Type} (body : Eval α) : Eval α := do
  let before := (← get).channels
  try
    let a ← body
    modify fun s ↦ { s with channels := before }
    return a
  catch stop =>
    modify fun s ↦ { s with channels := before }
    throw stop

/-- The output of something. -/
def captured (body : Eval Unit) : Eval (List Char) := do
  let index ← newBuffer
  withChannels do
    connect 1 (.buffer index)
    body
  return pieces (((← get).buffers.lookup index).getD [])

/-- How the shell names the signals that it tells of. -/
def signalTexts : List (Nat × String) :=
  [ (1, "Hangup"), (3, "Quit"), (4, "Illegal instruction"), (5, "Trace/breakpoint trap"),
    (6, "Aborted"), (7, "Bus error"), (8, "Floating point exception"), (9, "Killed"),
    (10, "User defined signal 1"), (11, "Segmentation fault"), (12, "User defined signal 2"),
    (14, "Alarm clock"), (15, "Terminated"), (24, "CPU time limit exceeded"),
    (25, "File size limit exceeded") ]

/-- The status of a process that a signal ended. -/
def signalStatus (signal : Nat) : Nat := 128 + signal

/-- A process that ran was ended by a signal. -/
def lostTo (signal : Nat) : Eval Unit := do
  match signalTexts.lookup signal with
  | some text => write 2 (ofString (text ++ "\n"))
  | none => pure ()
  setStatus (signalStatus signal)

/-- Traps that a new process keeps. -/
def kept (traps : List (Nat × Trap)) : List (Nat × Trap) := traps.filter fun t ↦ t.2 matches .ignore

def terminateSignal : Nat := 15

def killSignal : Nat := 9

/-- Whether a signal to all processes leaves the first shell alive. -/
def firstSurvives (s : Session) (signal : Nat) : Bool :=
  ((s.firstTraps.getD s.traps).lookup signal).isSome

/-- What the shell does at a signal that came to all processes, once that is all it waits for. -/
def onSignal (run : Statement → Eval Unit) (signal : Nat) : Eval Unit := do
  let s ← get
  if !firstSurvives s signal then throw (.killed signal none)
  match s.traps.lookup signal with
  | none => throw (.killed signal none)
  | some .ignore => setStatus (signalStatus signal)
  | some (.run script) =>
    set { s with heard := true }
    run (.script 1 script)
    setStatus (signalStatus signal)

/-- Makes up for an interruption that came while the shell waited for a process that went on. -/
def catchUp (run : Statement → Eval Unit) : Eval Unit := do
  let s ← get
  let isTold : Bool := s.interruption matches some .told || s.interruption matches some .outOfTime
  if isTold && !s.heard then
    match s.traps.lookup terminateSignal with
    | some (.run script) =>
      set { s with heard := true }
      run (.script 1 script)
      setStatus s.status
    | _ => pure ()

/-- Evaluates something in a process of its own, which cannot change the shell itself, only what is
around it. -/
def forked (run : Statement → Eval Unit) (body : Eval Unit) : Eval Unit := do
  let before ← get
  let own := before.nextProcess
  set
    { before with
      process := own
      nextProcess := own + 1
      heard := false
      firstTraps := some (before.firstTraps.getD before.traps)
      traps := kept before.traps }
  let leave : Eval Unit := modify before.after
  try
    body
    leave
  catch stop =>
    leave
    match stop with
    | .exit code => setStatus code
    | .return code => setStatus code
    | .leave _ => pure ()
    | .again _ => pure ()
    | .suspended => throw .suspended
    | .killed signal none => do
      if firstSurvives before signal && (before.traps.lookup signal).isSome then lostTo signal
      onSignal run signal
    | .killed signal (some process) =>
      if process = own then lostTo signal else throw (.killed signal (some process))
  catchUp run

def getVariable (name : List Char) : Eval (Option (List Char)) :=
  return (← get).bindings.lookup name

def setVariable (name value : List Char) : Eval Unit := do
  if (← get).readOnly.contains name then
    complain (name ++ ofString ": is read only")
    throw (.exit 2)
  modify fun s ↦
    { s with bindings := (name, value) :: s.bindings.filter fun v ↦ v.1 ≠ name }

/-- Sleeps within the time that is left after an interruption, and is killed when that is over. -/
def sleepOn (ms : Nat) : Eval Unit := do
  let s ← get
  if ms ≤ s.grace then set { s with clock := s.clock + ms, grace := s.grace - ms }
  else throw (.killed killSignal none)

/-- Runs a job on from the start of it, up to its deadline if it has one. Gives how it ended if it
is over. -/
def runJob (run : Statement → Eval Unit) (job : Job) (deadline : Option Nat) :
    Eval (Option JobEnd) := do
  let before ← get
  set
    { before with
      bindings := job.bindings
      functions := job.functions
      arguments := job.arguments
      channels := job.channels
      clock := job.launched
      process := job.process
      heard := false
      firstTraps := some (before.firstTraps.getD before.traps)
      traps := kept before.traps
      jobs := []
      deadline := deadline
      written := 0
      muted := job.written }
  let leave : Eval Unit :=
    modify fun s ↦
      { before.after s with
        jobs := before.jobs
        clock := max before.clock s.clock
        written := before.written
        muted := before.muted }
  let ended (status : Nat) (signal : Option Nat) : Eval (Option JobEnd) :=
    return some ⟨job.process, status, signal⟩
  try
    run job.body
    leave
    ended (← get).status none
  catch stop =>
    let s ← get
    leave
    match stop with
    | .exit code => ended code none
    | .return code => ended code none
    | .killed signal process =>
      if process = some job.process then ended (signalStatus signal) (some signal) else throw stop
    | .suspended =>
      let again := { job with written := job.written + s.written }
      modify fun t ↦
        { t with
          clock := before.clock
          jobs := t.jobs.map fun j ↦ if j.process = job.process then again else j }
      return none
    | _ => ended s.status none

/-- Puts a job among those that are ended. -/
def endJob (ended : JobEnd) : Eval Unit :=
  modify fun s ↦
    { s with
      jobs := s.jobs.filter fun j ↦ j.process ≠ ended.process
      ended := ended :: s.ended }

/-- Lets the jobs run up to a moment. -/
def runJobs (run : Statement → Eval Unit) (moment : Nat) : List Job → Eval Unit
  | [] => pure ()
  | job :: rest => do
    match ← runJob run job (some moment) with
    | some ended => endJob ended
    | none => pure ()
    runJobs run moment rest

/-- Lets time pass. Gives what interrupts the shells, if something does that they may survive. -/
def pass (run : Statement → Eval Unit) (ms : Nat) : Eval (Option Interruption) := do
  let s ← get
  match s.deadline with
  | some deadline =>
    if s.clock + ms ≤ deadline then set { s with clock := s.clock + ms }
    else throw .suspended
    return none
  | none =>
    runJobs run (s.clock + ms) s.jobs
    let s ← get
    if s.interruption.isSome then
      sleepOn ms
      return none
    else
      match s.watch.breach with
      | some breach =>
        set { s with interruption := some (.breached breach) }
        throw (.killed killSignal none)
      | none =>
        if s.watch.stops s.files then return some .told
        else if s.watch.limitMs < s.clock + ms then
          set { s with clock := s.watch.limitMs }
          return some .outOfTime
        else
          set { s with clock := s.clock + ms }
          return none

def setInterruption (why : Interruption) : Eval Unit :=
  modify fun s ↦ { s with interruption := some why, grace := s.watch.graceMs, jobs := [] }

/-- Sleeps for a time. What interrupts a process that sleeps ends it, unless it ignores that. -/
def sleep (run : Statement → Eval Unit) (ms : Nat) : Eval Unit := do
  let why ← pass run ms
  setStatus 0
  match why with
  | none => pure ()
  | some why =>
    setInterruption why
    match (← get).traps.lookup terminateSignal with
    | some .ignore => sleepOn ms
    | _ => throw (.killed terminateSignal none)

/-- Works for a time, and does what it does at a signal if an interruption comes. -/
def work (run : Statement → Eval Unit) (ms : Nat) : Eval Unit := do
  match ← pass run ms with
  | none => pure ()
  | some why =>
    let status := (← get).status
    setInterruption why
    onSignal run terminateSignal
    setStatus status

/-- How many turns of loops take some time together. -/
def turnsAtOnce : Nat := 4096

def turnsMs : Nat := 4

/-- Counts a turn of a loop. -/
def countTurn (run : Statement → Eval Unit) : Eval Unit := do
  let turns := (← get).turns + 1
  modify fun s ↦ { s with turns := turns }
  if turns % turnsAtOnce = 0 then work run turnsMs

end Eval

end FlexGate.Shell
