import FlexGate.RunId

/-!
The registry of running scripts. A run is registered under its identity, at most one at a time, and
is removed by its identity. Removing all of them asks each to end.
-/

set_option autoImplicit false
set_option relaxedAutoImplicit false

namespace FlexGate

/-- A running script: what runs it, and its process if that is known. -/
structure RunHandle where
  id : RunId
  pid : Option Nat := none
  interpreter : String
  script : String
  deriving DecidableEq, Repr

/-- The number of an attempt to register. -/
abbrev Ticket := Nat

/-- A registered run under the identity that it is found by, with the attempt that registered it. -/
structure RegistryEntry where
  key : RunId
  handle : RunHandle
  ticket : Ticket
  deriving DecidableEq, Repr

structure Registry where
  entries : List RegistryEntry := []
  deriving DecidableEq, Repr

namespace Registry

def find? (r : Registry) (id : RunId) : Option RegistryEntry :=
  r.entries.find? fun e ↦ e.key = id

def contains (r : Registry) (id : RunId) : Bool := (r.find? id).isSome

def size (r : Registry) : Nat := r.entries.length

/-- Adds a run, unless there is one under its key. -/
def insert? (r : Registry) (entry : RegistryEntry) : Option Registry :=
  if r.contains entry.key then none else some ⟨r.entries ++ [entry]⟩

def erase (r : Registry) (id : RunId) : Registry :=
  ⟨r.entries.filter fun e ↦ e.key ≠ id⟩

end Registry

end FlexGate
