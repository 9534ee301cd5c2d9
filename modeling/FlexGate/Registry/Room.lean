import FlexGate.Registry.Basic

/-!
The registry with what surrounds it. An attempt to register gives a guard, if it succeeds, and in
any case a mailbox in which the run can be told to end. Giving up a guard removes what is registered
under its identity. A mailbox is told at most one reason, and only by the registry being cleared; it
is closed when the run is removed in another way, or was never registered.
-/

set_option autoImplicit false
set_option relaxedAutoImplicit false

namespace FlexGate

inductive Mailbox
  | empty
  | told (reason : String)
  | closed
  deriving DecidableEq, Repr

structure Guard where
  ticket : Ticket
  id : RunId
  deriving DecidableEq, Repr

/-- How clearing the registry stops a run. -/
inductive Stop
  /-- The run was told a reason to end. -/
  | told (ticket : Ticket) (reason : String)
  /-- Nobody would read what the run is told, so the group of its process was killed. -/
  | killed (ticket : Ticket) (pid : Nat)
  deriving DecidableEq, Repr

structure RegistryRoom where
  registry : Registry := {}
  /-- The next attempt to register. -/
  next : Ticket := 0
  /-- The guards that have not been given up. -/
  guards : List Guard := []
  mailboxes : List (Ticket × Mailbox) := []
  /-- The mailboxes that nobody reads any more. -/
  unread : List Ticket := []
  /-- What was done to stop runs, the earliest first. -/
  stops : List Stop := []
  deriving DecidableEq, Repr

namespace RegistryRoom

def mailbox (room : RegistryRoom) (ticket : Ticket) : Mailbox :=
  (room.mailboxes.lookup ticket).getD .closed

def setMailbox (room : RegistryRoom) (ticket : Ticket) (mailbox : Mailbox) : RegistryRoom :=
  { room with mailboxes := (ticket, mailbox) :: room.mailboxes.filter fun m ↦ m.1 ≠ ticket }

/-- Registers a run. The ticket of the attempt names its mailbox and, on success, its guard. An
attempt fails only because its identity is taken. -/
def register (room : RegistryRoom) (handle : RunHandle) : RegistryRoom × Option Guard :=
  let ticket := room.next
  let room := { room with next := ticket + 1 }
  match room.registry.insert? ⟨handle.id, handle, ticket⟩ with
  | none => (room.setMailbox ticket .closed, none)
  | some registry =>
    let guard := ⟨ticket, handle.id⟩
    ({ room with registry := registry, guards := guard :: room.guards }.setMailbox ticket .empty,
      some guard)

/-- Takes a run out of the registry; its mailbox will not be told anything. -/
def deregister (room : RegistryRoom) (id : RunId) : RegistryRoom × Option RunHandle :=
  match room.registry.find? id with
  | none => (room, none)
  | some entry =>
    ({ room with registry := room.registry.erase id }.setMailbox entry.ticket .closed,
      some entry.handle)

/-- Gives up a guard. One that was given up before does nothing. -/
def dropGuard (room : RegistryRoom) (guard : Guard) : RegistryRoom :=
  if room.guards.contains guard then
    ({ room with guards := room.guards.filter fun g ↦ g ≠ guard }.deregister guard.id).1
  else room

/-- Gives up reading a mailbox. -/
def dropMailbox (room : RegistryRoom) (ticket : Ticket) : RegistryRoom :=
  { room with unread := ticket :: room.unread }

/-- What stops the run of an entry: it is told a reason if its mailbox is read, else its process is
killed if that is known. -/
def stopOf (room : RegistryRoom) (reason : String) (entry : RegistryEntry) : Option Stop :=
  if room.unread.contains entry.ticket then entry.handle.pid.map (.killed entry.ticket)
  else some (.told entry.ticket reason)

/-- Tells the run of an entry to end, or kills it if nobody would read that. -/
def tell (reason : String) (room : RegistryRoom) (entry : RegistryEntry) : RegistryRoom :=
  let room := { room with stops := room.stops ++ (room.stopOf reason entry).toList }
  if room.unread.contains entry.ticket then room.setMailbox entry.ticket .closed
  else room.setMailbox entry.ticket (.told reason)

/-- Takes the run under an identity out of the registry, if there is one, stops and counts it. -/
def terminate (reason : String) (s : RegistryRoom × Nat) (id : RunId) : RegistryRoom × Nat :=
  match s.1.registry.find? id with
  | none => s
  | some entry => (tell reason { s.1 with registry := s.1.registry.erase id } entry, s.2 + 1)

/-- Terminates the runs under all identities that are in the registry. Gives their number. -/
def terminateAll (room : RegistryRoom) (reason : String) : RegistryRoom × Nat :=
  (room.registry.entries.map RegistryEntry.key).foldl (terminate reason) (room, 0)

/-- Reads a mailbox, which is closed once it was found to hold a reason. -/
def read (room : RegistryRoom) (ticket : Ticket) : RegistryRoom × Mailbox :=
  match room.mailbox ticket with
  | .told reason => (room.setMailbox ticket .closed, .told reason)
  | mailbox => (room, mailbox)

end RegistryRoom

/-- What can be done to a registry. -/
inductive RegistryEvent
  | register (handle : RunHandle)
  | dropGuard (guard : Guard)
  | dropMailbox (ticket : Ticket)
  | deregister (id : RunId)
  | terminateAll (reason : String)
  deriving DecidableEq, Repr

namespace RegistryRoom

def apply (room : RegistryRoom) : RegistryEvent → RegistryRoom
  | .register handle => (room.register handle).1
  | .dropGuard guard => room.dropGuard guard
  | .dropMailbox ticket => room.dropMailbox ticket
  | .deregister id => (room.deregister id).1
  | .terminateAll reason => (room.terminateAll reason).1

end RegistryRoom

end FlexGate
