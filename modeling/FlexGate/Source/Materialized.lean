import FlexGate.Failure
import FlexGate.Source.Plan
import FlexGate.Source.Store

/-!
A source that stands in a file for the time of a run. A temporary one is removed when it is cleaned
up, or when it is given up without that; one that is kept, or was there before, stays.
-/

set_option autoImplicit false
set_option relaxedAutoImplicit false

namespace FlexGate

structure MaterializedSource where
  path : Path
  temporary : Bool
  deriving DecidableEq, Repr

namespace MaterializedSource

variable {σ : Type}

def writeFailure (path : Path) (fault : IoFault) : RunFailure :=
  .materializationFailed (some (String.ofList path)) fault.message

def write (store : SourceStore σ) (plan : SourcePlan) (text : String) (s : σ) :
    σ × Except RunFailure MaterializedSource :=
  match store.write plan.path text s with
  | (s, some fault) => (s, .error (writeFailure plan.path fault))
  | (s, none) => (s, .ok ⟨plan.path, plan.temporary⟩)

/-- A file that is there already. -/
def existing (path : Path) : MaterializedSource := ⟨path, false⟩

/-- Removes the file if it is temporary. A file that cannot be removed is left. -/
def cleanup (store : SourceStore σ) (source : MaterializedSource) (s : σ) : σ :=
  if source.temporary then (store.remove source.path s).1 else s

@[simp] theorem cleanup_of_not_temporary (store : SourceStore σ) {source : MaterializedSource}
    (h : source.temporary = false) (s : σ) : source.cleanup store s = s := by
  simp [cleanup, h]

end MaterializedSource

end FlexGate
