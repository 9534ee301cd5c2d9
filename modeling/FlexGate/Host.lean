import FlexGate.Execution.Executor
import FlexGate.Shell.Evaluation

/-!
A host that runs can be tried on: files, a clock, and a shell whose scripts stand in for the
interpreter. Time passes only while a script sleeps. A name without a slash is looked for in the
directories of programs; any other name is a path. What is proved of runs holds of every machine, so
nothing but the runs that are tried rests on how this one behaves.
-/

set_option autoImplicit false
set_option relaxedAutoImplicit false

namespace FlexGate

structure Host where
  files : FileTree := {}
  /-- Milliseconds since the host came up. -/
  clock : Nat := 0
  /-- How many identities were given. -/
  given : Nat := 0
  /-- The identity that is given next after a number of others. -/
  stamps : Nat → RunStamp
  /-- What a process is seen to use. -/
  sample : ResourceSample
  /-- The states of the files in which someone stops all that runs. -/
  stops : FileTree → Bool := fun _ ↦ false

namespace Host

/-- Where programs are looked for, in order. -/
def programDirectories : List String :=
  ["/usr/local/sbin/", "/usr/local/bin/", "/usr/sbin/", "/usr/bin/", "/sbin/", "/bin/"]

/-- Whether a path leads to a program that needs no file of the tree. -/
def isSystemProgram (path : List Char) : Bool :=
  let bare := Shell.Eval.bareName path
  !bare.contains '/' && bare != path &&
    (Shell.Eval.shellNames.contains (String.ofList bare) ||
        (Shell.Eval.programTable.lookup (String.ofList bare)).isSome)

def isExecutable (files : FileTree) (path : Path) : Bool :=
  isSystemProgram path ||
    match files.find path with
    | .ok (_, .file _ executable) => executable
    | _ => false

/-- The path of an interpreter. A path of more than one component may lead to any file; otherwise a
file that can be run is needed. -/
def resolve? (files : FileTree) (interpreter : String) : Option Path :=
  let path := interpreter.toList
  if (1 < (Path.components path).length && (isSystemProgram path || files.isFile path)) ||
      (path.contains '/' && isExecutable files path) then some path
  else if path.contains '/' || path.isEmpty then none
  else
    (programDirectories.map fun directory ↦ directory.toList ++ path).find? (isExecutable files)

/-- The message for an interpreter that is nowhere. -/
def unresolvedMessage : String := "cannot find binary path"

def badFormatMessage : String := "Exec format error (os error 8)"

/-- Why a path cannot be started as a program, if it cannot. -/
def refusal? (files : FileTree) (path : Path) : Option String :=
  if isSystemProgram path then none
  else
    match files.find path with
    | .error fault => some fault.message
    | .ok (_, .directory) => some IoFault.permissionDenied.message
    | .ok (_, .file bytes executable) =>
      if executable then
        match Shell.Eval.interpreterOf (Shell.ofBytes bytes) with
        | none => some badFormatMessage
        | some [] => some badFormatMessage
        | some (interpreter :: _) =>
          if isExecutable files (Shell.toText interpreter) ||
              Shell.Eval.bareName interpreter = Shell.Eval.environmentProgram.toList then none
          else some IoFault.notFound.message
      else some IoFault.permissionDenied.message

/-- The path that a name is started as. -/
def started (files : FileTree) (name : String) : Path :=
  if name.contains '/' then name.toList else (resolve? files name).getD name.toList

/-- The variable that holds where programs are looked for. -/
def pathName : List Char := "PATH".toList

def searchPath : String :=
  String.intercalate ":" (programDirectories.map fun d ↦ String.ofList d.toList.dropLast)

/-- Runs a program in a session of its own. Only the files are left of it. -/
def runProgram (h : Host) (watch : Shell.Watch) (ceilings : Option Ceilings) (path : Path)
    (arguments : List (List Char)) : Host × Shell.Session × ExitStatus :=
  let session : Shell.Session :=
    { files := h.files
      watch := watch
      ceilings := ceilings
      name := Shell.ofText path
      bindings := [(pathName, Shell.ofString searchPath)]
      exported := [pathName] }
  let (session, status) := Shell.runCommand session session.name (arguments.map Shell.ofText)
  let files := { session.files with here := h.files.here }
  ({ h with files := files, clock := h.clock + session.clock }, session, status)

/-- The argument that asks an interpreter for its version. -/
def versionArgument : String := "--version"

def probe (interpreter : String) (timeoutSecs : Nat) (h : Host) : Host × ProbeCourse :=
  match resolve? h.files interpreter with
  | none => (h, .notStarted unresolvedMessage)
  | some path =>
    match refusal? h.files path with
    | some reason => (h, .notStarted reason)
    | none =>
      let watch : Shell.Watch := { limitMs := timeoutSecs * 1000, graceMs := 0 }
      let (h, session, status) := h.runProgram watch none path [versionArgument.toList]
      (h, if session.interruption.isSome then .outOfTime else .finished status session.output)

def start (l : Launch) (h : Host) : Host × Except String (Option Nat) :=
  match refusal? h.files (started h.files l.interpreter) with
  | some reason => (h, .error reason)
  | none => (h, .ok (some (h.given + 1)))

/-- What came of a session. -/
def courseOf (session : Shell.Session) (status : ExitStatus) : Course where
  others :=
    match session.interruption with
    | some .told => [Executor.stopAll]
    | _ => []
  ending :=
    match session.interruption with
    | some (.breached breach) => .breached breach
    | some .outOfTime => .outOfTime
    | _ => .exited status
  forced := some status
  output := session.output

def wait (l : Launch) (h : Host) : Host × Course :=
  let watch : Shell.Watch :=
    { breach := l.policy.check h.sample
      stops := h.stops
      limitMs := l.timeoutSecs * 1000
      graceMs := l.graceMs }
  let (h, session, status) :=
    h.runProgram watch l.ceilings (started h.files l.interpreter) [l.script]
  (h, courseOf session status)

def machine : Machine Host where
  clock h := h.clock
  stamp h := ({ h with given := h.given + 1 }, h.stamps h.given)
  probe := probe
  store := SourceStore.files.onPart Host.files fun files h ↦ { h with files := files }
  start := start
  wait := wait

end Host

end FlexGate
