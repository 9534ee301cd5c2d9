import FlexGate.Source.Materialized

/-!
Sources in use, and the files that they stand in. A source is in use from the time it was written,
or taken as it was there, until it is given up. Cleaning it up is one way: the store removes the
file, and the source knows then that this was done. A source that is given up without it removes its
file itself.
-/

set_option autoImplicit false
set_option relaxedAutoImplicit false

namespace FlexGate

/-- A source in use. -/
structure HeldSource where
  ticket : Nat
  source : MaterializedSource
  /-- Whether it was cleaned up. -/
  cleaned : Bool := false
  deriving DecidableEq, Repr

namespace HeldSource

/-- Giving up a source removes a temporary file that was not cleaned up. -/
def drop (held : HeldSource) (files : FileTree) : FileTree :=
  if held.source.temporary && !held.cleaned then
    match files.removeFile held.source.path with
    | .ok files => files
    | .error _ => files
  else files

/-- Cleans up a source, which is given up then. -/
def cleanUp (held : HeldSource) (files : FileTree) : FileTree :=
  { held with cleaned := true }.drop (held.source.cleanup SourceStore.files files)

end HeldSource

structure SourceRoom where
  files : FileTree := {}
  /-- The sources that have not been given up. -/
  held : List HeldSource := []
  /-- The next source. -/
  next : Nat := 0
  deriving DecidableEq, Repr

namespace SourceRoom

def hold (room : SourceRoom) (source : MaterializedSource) : SourceRoom × Nat :=
  ({ room with
      held := { ticket := room.next, source } :: room.held
      next := room.next + 1 },
    room.next)

/-- Writes a source. The ticket names it as long as it is in use. -/
def write (room : SourceRoom) (plan : SourcePlan) (text : String) :
    SourceRoom × Except RunFailure Nat :=
  match MaterializedSource.write .files plan text room.files with
  | (files, .error failure) => ({ room with files }, .error failure)
  | (files, .ok source) =>
    let (room, ticket) := { room with files }.hold source
    (room, .ok ticket)

/-- Takes a file that is there already. -/
def existing (room : SourceRoom) (path : Path) : SourceRoom × Nat := room.hold (.existing path)

def find? (room : SourceRoom) (ticket : Nat) : Option HeldSource :=
  room.held.find? fun held ↦ held.ticket == ticket

/-- Gives up a source in one of the two ways, unless that was done before. -/
def finish (room : SourceRoom) (way : HeldSource → FileTree → FileTree) (ticket : Nat) :
    SourceRoom :=
  match room.find? ticket with
  | none => room
  | some held =>
    { room with
      files := way held room.files
      held := room.held.filter fun other ↦ other.ticket ≠ ticket }

def cleanUp (room : SourceRoom) (ticket : Nat) : SourceRoom := room.finish HeldSource.cleanUp ticket

def drop (room : SourceRoom) (ticket : Nat) : SourceRoom := room.finish HeldSource.drop ticket

end SourceRoom

/-- What can be done with sources. -/
inductive SourceEvent
  | write (plan : SourcePlan) (text : String)
  | existing (path : Path)
  | cleanUp (ticket : Nat)
  | drop (ticket : Nat)
  deriving DecidableEq, Repr

namespace SourceRoom

def apply (room : SourceRoom) : SourceEvent → SourceRoom
  | .write plan text => (room.write plan text).1
  | .existing path => (room.existing path).1
  | .cleanUp ticket => room.cleanUp ticket
  | .drop ticket => room.drop ticket

end SourceRoom

end FlexGate
