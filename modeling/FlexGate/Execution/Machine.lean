import FlexGate.Execution.Probe
import FlexGate.Limit.Ceilings
import FlexGate.Limit.Policy
import FlexGate.Registry.Room
import FlexGate.Source.Store

/-!
The machine that scripts are run on, as far as a run can tell: a clock, identities, a store for
sources, and processes that start, write, and end in one way or another. Nothing is assumed about
how any of these behave.
-/

set_option autoImplicit false
set_option relaxedAutoImplicit false

namespace FlexGate

/-- A script to be run, and the bounds that its process is under. -/
structure Launch where
  interpreter : String
  script : Path
  /-- The ceilings that the process starts under, if it starts under any. -/
  ceilings : Option Ceilings
  policy : LimitPolicy
  timeoutSecs : Nat
  graceMs : Nat

/-- How a process that was started went on until nothing of it was left. -/
structure Course where
  /-- What others did to the registry before the wait for the process was over. -/
  others : List RegistryEvent := []
  ending : Ending
  /-- How the process ended if it had to be made to. -/
  forced : Option ExitStatus := none
  output : CapturedOutput := {}
  /-- What others did to the registry after that, while the rest of the process was cleared away. -/
  later : List RegistryEvent := []

structure Machine (σ : Type) where
  /-- Milliseconds since some moment. -/
  clock : σ → Nat
  stamp : σ → σ × RunStamp
  /-- Asks an interpreter for its version and waits a number of seconds. -/
  probe : String → Nat → σ → σ × ProbeCourse
  store : SourceStore σ
  /-- Starts a process and gives its number, if that is known. -/
  start : Launch → σ → σ × Except String (Option Nat)
  /-- Waits for the process that was started last. -/
  wait : Launch → σ → σ × Course

end FlexGate
