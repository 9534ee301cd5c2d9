import FlexGate.CommandLine.Command
import FlexGate.Log
import FlexGate.LoopExample
import FlexGate.Pipeline
import FlexGate.Settings.Load

/-!
Carrying out commands. A command reads settings and scripts from files, may write a script back, and
gives what it prints and its exit code.
-/

set_option autoImplicit false
set_option relaxedAutoImplicit false

namespace FlexGate

/-- What a command prints, and the code that it exits with. -/
structure Console where
  stdout : String := ""
  stderr : String := ""
  code : Nat := ExitCode.success
  deriving DecidableEq, Repr

/-- Where commands are carried out: a machine whose state holds files, and the environment. -/
structure CommandContext (σ : Type) where
  machine : Machine σ
  files : σ → FileTree
  putFiles : FileTree → σ → σ
  environment : Settings.Environment
  /-- Whether messages go to a terminal that shows colors. -/
  terminal : Bool := false

namespace CommandLine

variable {σ : Type}

def usesColors (cl : CommandLine) (terminal : Bool) : Bool :=
  (LogSettings.ofFlags cl.verbose cl.quiet cl.color).usesColors terminal

def scriptMissing (file : String) : Failure :=
  .usage (.invalidArgument file "script not found" (some "Pass the path of an existing .flex file"))

def conflict : Failure :=
  .usage (.conflictingArguments "--verbose" "--quiet"
    ("Use either --verbose for more output or --quiet for less output, but not both"))

def readScript (files : FileTree) (file : String) : Except Failure String :=
  if files.isFile file.toList then
    match files.readText file.toList with
    | .ok text => .ok text
    | .error fault => .error (.io fault.message)
  else .error (scriptMissing file)

def check (options : AnalysisOptions) (source : String) (form : OutputForm) : Console :=
  let report := Report.ofSource options source
  { stdout :=
      match form with
      | .json => report.json.render ++ "\n"
      | .text => report.render
    code := if report.isAcceptable then ExitCode.success else ExitCode.rejected }

/-- A message that is left out when the output is to be quiet. -/
def note (cl : CommandLine) (message : String) : Console :=
  { stderr := if cl.quiet then "" else message ++ "\n" }

/-- Writes a mended source back to its file, if that changes it. -/
def writeBack (cl : CommandLine) (files : FileTree) (file source : String) :
    FileTree × Except Failure Console :=
  let mended := Repair.mended source
  if mended = source then (files, .ok (cl.note "No inclusive loop bounds to fix"))
  else
    match files.writeBytes file.toList (Text.Utf8.encoded mended) with
    | .ok files => (files, .ok (cl.note ("Fixed loop bounds in " ++ file)))
    | .error fault => (files, .error (.io fault.message))

def failureText (colored : Bool) (r : RunResult) : String :=
  (if r.errorKind = some .nonZeroExit then "" else r.stderr) ++
    (match r.errorText with
      | some text => Failure.label colored ++ text ++ "\n"
      | none => "") ++
    (match r.suggestion with
      | some suggestion => "  Help: " ++ suggestion ++ "\n"
      | none => "")

def warningLines (cl : CommandLine) (report : Report) : String :=
  if cl.quiet then ""
  else String.join (report.warnings.map fun w ↦ "warning: " ++ w.message ++ "\n")

/-- What is printed of an outcome. -/
def showOutcome (cl : CommandLine) (colored : Bool) : Outcome → Console
  | .rejected report _ =>
    { stderr := report.render ++ "Execution blocked: fix the errors above and try again\n" }
  | .executed report _ result =>
    { stdout := result.stdout
      stderr :=
        cl.warningLines report ++ (if result.succeeded then "" else failureText colored result) }

def console (cl : CommandLine) (colored : Bool) (form : OutputForm) (o : Outcome) : Console :=
  let shown : Console :=
    match form with
    | .json => { stdout := o.json.render ++ "\n" }
    | .text => cl.showOutcome colored o
  { shown with code := o.exitCode }

/-- How a script is run: in the time given or else in the usual time, and kept under a name if one
is given, or under one of its own. -/
def template (settings : Settings) (timeout : Option Nat) (save : Option String) : RunRequest :=
  let request : RunRequest :=
    { source := "", timeoutSecs := timeout.getD settings.execution.defaultTimeoutSecs }
  match save with
  | some name => request.kept (some name |>.filter fun n ↦ !n.isEmpty)
  | none => request

/-- Carries out a command that needs settings. -/
def runWith (cl : CommandLine) (ctx : CommandContext σ) (settings : Settings) (s : RunState σ) :
    RunState σ × Except Failure Console :=
  let files := ctx.files s.world
  match cl.command with
  | .check file form =>
    (s, (readScript files file).map fun source ↦ check settings.analysis.options source form)
  | .fix file write =>
    match readScript files file with
    | .error failure => (s, .error failure)
    | .ok source =>
      if write then
        let (files, console) := cl.writeBack files file source
        ({ s with world := ctx.putFiles files s.world }, console)
      else (s, .ok { stdout := Repair.mended source })
  | .run file timeout fix save form =>
    match readScript files file with
    | .error failure => (s, .error failure)
    | .ok source =>
      let (s, outcome) := Pipeline.run ctx.machine settings settings.analysis.options fix
        (template settings timeout save) source s
      (s, outcome.map (cl.console (cl.usesColors ctx.terminal) form))
  | .probe form =>
    let (s, stats) := Executor.stats ctx.machine settings s
    (s, .ok
      { stdout :=
          match form with
          | .json => stats.json.render ++ "\n"
          | .text => stats.render
        code := if stats.isAvailable then ExitCode.success else ExitCode.process })
  | .examples => (s, .ok {})
  | .completion _ => (s, .ok {})

/-- Carries out a command, up to a failure that ends it. -/
def attempt (cl : CommandLine) (ctx : CommandContext σ) (s : RunState σ) :
    RunState σ × Except Failure Console :=
  if cl.verbose && cl.quiet then (s, .error conflict)
  else
    match cl.command with
    | .completion _ => (s, .ok {})
    | .examples => (s, .ok { stdout := String.join (LoopExample.all.map LoopExample.render) })
    | _ =>
      match Settings.load (ctx.files s.world) ctx.environment cl.config with
      | .error failure => (s, .error failure)
      | .ok settings => cl.runWith ctx settings s

/-- Carries out a command. A failure is told to the user and gives the exit code. -/
def run (cl : CommandLine) (ctx : CommandContext σ) (s : RunState σ) : RunState σ × Console :=
  match cl.attempt ctx s with
  | (s, .ok console) => (s, console)
  | (s, .error failure) =>
    (s, { stderr := failure.userMessage (cl.usesColors ctx.terminal) ++ "\n"
          code := failure.exitCode })

end CommandLine

end FlexGate
