import FlexGate.Limit.Breach
import FlexGate.Text.Blank
import FlexGate.Text.Utf8

/-!
What is seen of a process: what it wrote, and how it ended.
-/

set_option autoImplicit false
set_option relaxedAutoImplicit false

namespace FlexGate

structure CapturedOutput where
  stdout : List UInt8 := []
  stderr : List UInt8 := []
  deriving DecidableEq, Repr

namespace CapturedOutput

def stdoutText (o : CapturedOutput) : String := Text.Utf8.lossyText o.stdout

def stderrText (o : CapturedOutput) : String := Text.Utf8.lossyText o.stderr

end CapturedOutput

inductive ExitStatus
  | exited (code : Nat)
  | signalled (signal : Nat)
  deriving DecidableEq, Repr

namespace ExitStatus

def isSuccess : ExitStatus → Bool
  | .exited code => code == 0
  | .signalled _ => false

def code? : ExitStatus → Option Nat
  | .exited code => some code
  | .signalled _ => none

/-- The names of signals by number. -/
def signalNames : List (Nat × String) :=
  [ (1, "SIGHUP"), (2, "SIGINT"), (3, "SIGQUIT"), (4, "SIGILL"), (5, "SIGTRAP"), (6, "SIGABRT"),
    (7, "SIGBUS"), (8, "SIGFPE"), (9, "SIGKILL"), (10, "SIGUSR1"), (11, "SIGSEGV"),
    (12, "SIGUSR2"), (13, "SIGPIPE"), (14, "SIGALRM"), (15, "SIGTERM"), (16, "SIGSTKFLT"),
    (17, "SIGCHLD"), (18, "SIGCONT"), (19, "SIGSTOP"), (20, "SIGTSTP"), (21, "SIGTTIN"),
    (22, "SIGTTOU"), (23, "SIGURG"), (24, "SIGXCPU"), (25, "SIGXFSZ"), (26, "SIGVTALRM"),
    (27, "SIGPROF"), (28, "SIGWINCH"), (29, "SIGIO"), (30, "SIGPWR"), (31, "SIGSYS") ]

def text : ExitStatus → String
  | .exited code => "exit status: " ++ toString code
  | .signalled signal =>
    "signal: " ++ toString signal ++
      ((signalNames.lookup signal).map fun name ↦ " (" ++ name ++ ")").getD ""

end ExitStatus

/-- The code that stands for a process that left none. -/
def noExitCode : Int := -1

def exitCodeOf (status : Option ExitStatus) : Int :=
  match status.bind ExitStatus.code? with
  | some code => code
  | none => noExitCode

/-- What ended the wait for a process, if it was not told to end. -/
inductive Ending
  | exited (status : ExitStatus)
  | waitFailed (reason : String)
  | breached (breach : Breach)
  | outOfTime
  deriving DecidableEq, Repr

end FlexGate
