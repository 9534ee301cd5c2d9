/-!
The ceilings that a process starts under. They are put in place one after the other, and the first
that is refused stops the rest.
-/

set_option autoImplicit false
set_option relaxedAutoImplicit false

namespace FlexGate

inductive Ceiling
  | memory (bytes : Nat)
  | cpuTime (seconds : Nat)
  | fileSize (bytes : Nat)
  deriving DecidableEq, Repr

structure Ceilings where
  memoryBytes : Nat
  cpuSeconds : Nat
  fileSizeBytes : Nat
  deriving DecidableEq, Repr

namespace Ceilings

/-- The ceilings in the order in which they are put in place. -/
def toList (c : Ceilings) : List Ceiling :=
  [.memory c.memoryBytes, .cpuTime c.cpuSeconds, .fileSize c.fileSizeBytes]

/-- Puts ceilings in place with a function that may refuse one. Gives those that were tried and the
refusal, if there was one. -/
def applyAll {ε : Type} (set : Ceiling → Option ε) : List Ceiling → List Ceiling × Option ε
  | [] => ([], none)
  | c :: rest =>
    match set c with
    | some e => ([c], some e)
    | none => (c :: (applyAll set rest).1, (applyAll set rest).2)

def apply {ε : Type} (set : Ceiling → Option ε) (c : Ceilings) : List Ceiling × Option ε :=
  applyAll set c.toList

end Ceilings

end FlexGate
