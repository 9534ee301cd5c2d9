import FlexGate.Registry.Room
import Mathlib.Data.List.Induction
import Mathlib.Data.List.Nodup

/-!
# What an event does to a registry

Each event changes the entries, the guards and the mailboxes of a room in one way, and here it is
said which. Clearing the registry takes the runs out one after the other by their identities; in a
coherent room, where no identity and no ticket is used twice, that is to empty the registry and to
stop each run once (`terminateAll_eq`).

A coherent room stays coherent under every event (`Coherent.apply`), so every room that a run of
events leads to is coherent (`coherent_run`). A run of events is looked at by what happened in it:
`Happens` holds when some event of the run found the room in a given way.
-/

set_option autoImplicit false
set_option relaxedAutoImplicit false

namespace FlexGate

namespace Registry

variable {r : Registry} {id : RunId} {e : RegistryEntry}

theorem mem_of_find?_eq_some (h : r.find? id = some e) : e ∈ r.entries ∧ e.key = id :=
  ⟨List.mem_of_find?_eq_some h, by simpa using List.find?_some h⟩

theorem contains_iff : r.contains id = true ↔ ∃ e ∈ r.entries, e.key = id := by
  simp [contains, find?]

theorem erase_of_find?_eq_none (h : r.find? id = none) : r.erase id = r := by
  have hall : ∀ e ∈ r.entries, e.key ≠ id := by simpa [find?] using h
  rw [erase, List.filter_eq_self.mpr fun e he ↦ by simpa using hall e he]

theorem insert?_eq_none_iff : r.insert? e = none ↔ r.contains e.key = true := by
  rw [insert?]
  split <;> simp [*]

theorem insert?_of_not_contains (h : r.contains e.key = false) :
    r.insert? e = some ⟨r.entries ++ [e]⟩ := by
  rw [insert?, h]
  rfl

end Registry

namespace RegistryRoom

variable {room : RegistryRoom}

/-! ### Mailboxes -/

@[simp] theorem registry_setMailbox (t : Ticket) (m : Mailbox) :
    (room.setMailbox t m).registry = room.registry := rfl

@[simp] theorem next_setMailbox (t : Ticket) (m : Mailbox) :
    (room.setMailbox t m).next = room.next := rfl

@[simp] theorem guards_setMailbox (t : Ticket) (m : Mailbox) :
    (room.setMailbox t m).guards = room.guards := rfl

@[simp] theorem unread_setMailbox (t : Ticket) (m : Mailbox) :
    (room.setMailbox t m).unread = room.unread := rfl

@[simp] theorem stops_setMailbox (t : Ticket) (m : Mailbox) :
    (room.setMailbox t m).stops = room.stops := rfl

theorem lookup_filter_of_ne {t u : Ticket} (h : u ≠ t) (boxes : List (Ticket × Mailbox)) :
    (boxes.filter fun b ↦ b.1 ≠ t).lookup u = boxes.lookup u := by
  induction boxes with
  | nil => rfl
  | cons b boxes ih =>
    obtain ⟨v, m⟩ := b
    by_cases hv : v = t
    · have hu : (u == v) = false := beq_eq_false_iff_ne.mpr fun huv ↦ h (huv.trans hv)
      rw [List.filter_cons_of_neg (by simpa using hv), ih, List.lookup_cons, hu]
    · rw [List.filter_cons_of_pos (by simpa using hv), List.lookup_cons, List.lookup_cons, ih]

theorem mailbox_setMailbox (t u : Ticket) (m : Mailbox) :
    (room.setMailbox t m).mailbox u = if u = t then m else room.mailbox u := by
  simp only [mailbox, setMailbox, List.lookup_cons]
  by_cases h : u = t
  · rw [beq_iff_eq.mpr h, if_pos h, Option.getD_some]
  · rw [beq_eq_false_iff_ne.mpr h, if_neg h, lookup_filter_of_ne h]

/-! ### Registering -/

theorem register_of_contains {handle : RunHandle}
    (h : room.registry.contains handle.id = true) :
    room.register handle = ({ room with next := room.next + 1 }.setMailbox room.next .closed,
      none) := by
  have hinsert : room.registry.insert? ⟨handle.id, handle, room.next⟩ = none :=
    Registry.insert?_eq_none_iff.mpr h
  simp only [register, hinsert]

theorem register_of_not_contains {handle : RunHandle}
    (h : room.registry.contains handle.id = false) :
    room.register handle =
      ({ room with
          next := room.next + 1
          registry := ⟨room.registry.entries ++ [(⟨handle.id, handle, room.next⟩ : RegistryEntry)]⟩
          guards := ⟨room.next, handle.id⟩ :: room.guards }.setMailbox room.next .empty,
        some ⟨room.next, handle.id⟩) := by
  have hinsert := Registry.insert?_of_not_contains
    (r := room.registry) (e := ⟨handle.id, handle, room.next⟩) h
  simp only [register, hinsert]

theorem register_eq_none_iff {handle : RunHandle} :
    (room.register handle).2 = none ↔ room.registry.contains handle.id = true := by
  cases h : room.registry.contains handle.id with
  | true => simp [register_of_contains h]
  | false => simp [register_of_not_contains h]

theorem register_eq_some_iff {handle : RunHandle} {guard : Guard} :
    (room.register handle).2 = some guard ↔
      room.registry.contains handle.id = false ∧ guard = ⟨room.next, handle.id⟩ := by
  cases h : room.registry.contains handle.id with
  | true => simp [register_of_contains h]
  | false => simp [register_of_not_contains h, eq_comm]

@[simp] theorem next_register (handle : RunHandle) :
    (room.register handle).1.next = room.next + 1 := by
  cases h : room.registry.contains handle.id with
  | true => rw [register_of_contains h, next_setMailbox]
  | false => rw [register_of_not_contains h, next_setMailbox]

@[simp] theorem unread_register (handle : RunHandle) :
    (room.register handle).1.unread = room.unread := by
  cases h : room.registry.contains handle.id with
  | true => rw [register_of_contains h, unread_setMailbox]
  | false => rw [register_of_not_contains h, unread_setMailbox]

@[simp] theorem stops_register (handle : RunHandle) :
    (room.register handle).1.stops = room.stops := by
  cases h : room.registry.contains handle.id with
  | true => rw [register_of_contains h, stops_setMailbox]
  | false => rw [register_of_not_contains h, stops_setMailbox]

/-- The mailbox of an attempt is closed if the attempt fails. -/
theorem mailbox_register (handle : RunHandle) (t : Ticket) :
    (room.register handle).1.mailbox t =
      if t = room.next then if room.registry.contains handle.id then .closed else .empty
      else room.mailbox t := by
  cases h : room.registry.contains handle.id with
  | true =>
    rw [register_of_contains h]
    exact mailbox_setMailbox room.next t .closed
  | false =>
    rw [register_of_not_contains h]
    exact mailbox_setMailbox room.next t .empty

/-! ### Taking out -/

@[simp] theorem entries_deregister (id : RunId) :
    (room.deregister id).1.registry.entries =
      room.registry.entries.filter fun e ↦ e.key ≠ id := by
  rw [deregister]
  cases h : room.registry.find? id with
  | none =>
    show room.registry.entries = (room.registry.erase id).entries
    rw [Registry.erase_of_find?_eq_none h]
  | some e => rfl

@[simp] theorem next_deregister (id : RunId) : (room.deregister id).1.next = room.next := by
  rw [deregister]
  cases room.registry.find? id <;> rfl

@[simp] theorem guards_deregister (id : RunId) : (room.deregister id).1.guards = room.guards := by
  rw [deregister]
  cases room.registry.find? id <;> rfl

@[simp] theorem unread_deregister (id : RunId) : (room.deregister id).1.unread = room.unread := by
  rw [deregister]
  cases room.registry.find? id <;> rfl

@[simp] theorem stops_deregister (id : RunId) : (room.deregister id).1.stops = room.stops := by
  rw [deregister]
  cases room.registry.find? id <;> rfl

theorem dropGuard_of_mem {guard : Guard} (h : guard ∈ room.guards) :
    room.dropGuard guard =
      ({ room with guards := room.guards.filter fun g ↦ g ≠ guard }.deregister guard.id).1 :=
  if_pos (List.contains_iff_mem.mpr h)

theorem dropGuard_of_not_mem {guard : Guard} (h : guard ∉ room.guards) :
    room.dropGuard guard = room :=
  if_neg fun hc ↦ h (List.contains_iff_mem.mp hc)

@[simp] theorem guards_dropGuard (guard : Guard) :
    (room.dropGuard guard).guards = room.guards.filter fun g ↦ g ≠ guard := by
  by_cases h : guard ∈ room.guards
  · rw [dropGuard_of_mem h, guards_deregister]
  · rw [dropGuard_of_not_mem h, List.filter_eq_self.mpr fun g hg ↦ by
      simpa using ne_of_mem_of_not_mem hg h]

@[simp] theorem next_dropGuard (guard : Guard) : (room.dropGuard guard).next = room.next := by
  by_cases h : guard ∈ room.guards
  · rw [dropGuard_of_mem h, next_deregister]
  · rw [dropGuard_of_not_mem h]

@[simp] theorem unread_dropGuard (guard : Guard) :
    (room.dropGuard guard).unread = room.unread := by
  by_cases h : guard ∈ room.guards
  · rw [dropGuard_of_mem h, unread_deregister]
  · rw [dropGuard_of_not_mem h]

@[simp] theorem stops_dropGuard (guard : Guard) : (room.dropGuard guard).stops = room.stops := by
  by_cases h : guard ∈ room.guards
  · rw [dropGuard_of_mem h, stops_deregister]
  · rw [dropGuard_of_not_mem h]

/-- A run that is taken out by its identity is not told anything. -/
theorem mailbox_deregister (h : (room.registry.entries.map RegistryEntry.key).Nodup) (id : RunId)
    (t : Ticket) :
    (room.deregister id).1.mailbox t =
      if ∃ e ∈ room.registry.entries, e.ticket = t ∧ e.key = id then .closed
      else room.mailbox t := by
  rw [deregister]
  cases hfind : room.registry.find? id with
  | none =>
    have hnone : ¬ ∃ e ∈ room.registry.entries, e.ticket = t ∧ e.key = id := by
      rintro ⟨e, he, -, hkey⟩
      have hc := Registry.contains_iff.mpr ⟨e, he, hkey⟩
      simp [Registry.contains, hfind] at hc
    rw [if_neg hnone]
  | some e =>
    obtain ⟨he, hkey⟩ := Registry.mem_of_find?_eq_some hfind
    have hiff : (∃ f ∈ room.registry.entries, f.ticket = t ∧ f.key = id) ↔ t = e.ticket := by
      constructor
      · rintro ⟨f, hf, rfl, hfkey⟩
        rw [List.inj_on_of_nodup_map h hf he (hfkey.trans hkey.symm)]
      · rintro rfl
        exact ⟨e, he, rfl, hkey⟩
    simp only [hiff]
    exact mailbox_setMailbox e.ticket t .closed

/-! ### Stopping -/

@[simp] theorem registry_tell (reason : String) (e : RegistryEntry) :
    (tell reason room e).registry = room.registry := by
  rw [tell]
  split <;> rfl

@[simp] theorem next_tell (reason : String) (e : RegistryEntry) :
    (tell reason room e).next = room.next := by
  rw [tell]
  split <;> rfl

@[simp] theorem guards_tell (reason : String) (e : RegistryEntry) :
    (tell reason room e).guards = room.guards := by
  rw [tell]
  split <;> rfl

@[simp] theorem unread_tell (reason : String) (e : RegistryEntry) :
    (tell reason room e).unread = room.unread := by
  rw [tell]
  split <;> rfl

@[simp] theorem stops_tell (reason : String) (e : RegistryEntry) :
    (tell reason room e).stops = room.stops ++ (room.stopOf reason e).toList := by
  rw [tell]
  split <;> rfl

theorem mailbox_tell (reason : String) (e : RegistryEntry) (t : Ticket) :
    (tell reason room e).mailbox t =
      if t = e.ticket then if t ∈ room.unread then .closed else .told reason
      else room.mailbox t := by
  rw [tell]
  split
  case isTrue h =>
    have hmem : e.ticket ∈ room.unread := List.contains_iff_mem.mp h
    rw [mailbox_setMailbox]
    split
    case isTrue ht => rw [ht, if_pos hmem]
    case isFalse => rfl
  case isFalse h =>
    have hmem : e.ticket ∉ room.unread := fun hmem ↦ h (List.contains_iff_mem.mpr hmem)
    rw [mailbox_setMailbox]
    split
    case isTrue ht => rw [ht, if_neg hmem]
    case isFalse => rfl

theorem registry_foldl_tell (reason : String) (es : List RegistryEntry) :
    (es.foldl (tell reason) room).registry = room.registry := by
  induction es generalizing room with
  | nil => rfl
  | cons e es ih => rw [List.foldl_cons, ih, registry_tell]

theorem stops_foldl_tell (reason : String) (es : List RegistryEntry) :
    (es.foldl (tell reason) room).stops = room.stops ++ es.filterMap (room.stopOf reason) := by
  induction es generalizing room with
  | nil => simp
  | cons e es ih =>
    have hstopOf : (tell reason room e).stopOf reason = room.stopOf reason := by
      funext other
      simp only [stopOf, unread_tell]
    rw [List.foldl_cons, ih, stops_tell, hstopOf]
    cases h : room.stopOf reason e <;> simp [h]

theorem mailbox_foldl_tell (reason : String) (es : List RegistryEntry) (t : Ticket) :
    (es.foldl (tell reason) room).mailbox t =
      if ∃ e ∈ es, e.ticket = t then if t ∈ room.unread then .closed else .told reason
      else room.mailbox t := by
  induction es generalizing room with
  | nil => simp
  | cons e es ih =>
    rw [List.foldl_cons, ih, mailbox_tell, unread_tell]
    by_cases hes : ∃ e ∈ es, e.ticket = t
    · simp [hes]
    · by_cases he : t = e.ticket <;> simp [he, eq_comm]

/-- Taking runs out and stopping them changes neither tickets, guards nor readers. -/
theorem foldl_terminate_frame (reason : String) (ids : List RunId) (n : Nat) :
    let after := (ids.foldl (terminate reason) (room, n)).1
    after.next = room.next ∧ after.guards = room.guards ∧ after.unread = room.unread := by
  induction ids generalizing room n with
  | nil => exact ⟨rfl, rfl, rfl⟩
  | cons id ids ih =>
    rw [List.foldl_cons, terminate]
    dsimp only
    cases room.registry.find? id with
    | none => exact ih n
    | some e => simpa using @ih (tell reason _ e) (n + 1)

@[simp] theorem next_terminateAll (reason : String) :
    (room.terminateAll reason).1.next = room.next :=
  (foldl_terminate_frame reason _ 0).1

@[simp] theorem guards_terminateAll (reason : String) :
    (room.terminateAll reason).1.guards = room.guards :=
  (foldl_terminate_frame reason _ 0).2.1

@[simp] theorem unread_terminateAll (reason : String) :
    (room.terminateAll reason).1.unread = room.unread :=
  (foldl_terminate_frame reason _ 0).2.2

/-! ### Coherent rooms -/

/-- A room in which nothing is used twice: there is one entry for an identity, under the identity of
its own handle; the guard of the registration that made the entry has not been given up; and nothing
has happened to its mailbox. The tickets of the guards are those of different attempts that were
made. -/
structure Coherent (room : RegistryRoom) : Prop where
  keys_nodup : (room.registry.entries.map RegistryEntry.key).Nodup
  key_eq : ∀ e ∈ room.registry.entries, e.key = e.handle.id
  guarded : ∀ e ∈ room.registry.entries, ⟨e.ticket, e.key⟩ ∈ room.guards
  waiting : ∀ e ∈ room.registry.entries, room.mailbox e.ticket = .empty
  tickets_nodup : (room.guards.map Guard.ticket).Nodup
  ticket_lt : ∀ g ∈ room.guards, g.ticket < room.next

namespace Coherent

theorem start : Coherent {} where
  keys_nodup := List.nodup_nil
  key_eq := fun _ he ↦ absurd he List.not_mem_nil
  guarded := fun _ he ↦ absurd he List.not_mem_nil
  waiting := fun _ he ↦ absurd he List.not_mem_nil
  tickets_nodup := List.nodup_nil
  ticket_lt := fun _ hg ↦ absurd hg List.not_mem_nil

theorem eq_of_key_eq (h : room.Coherent) {e f : RegistryEntry} (he : e ∈ room.registry.entries)
    (hf : f ∈ room.registry.entries) (hkey : e.key = f.key) : e = f :=
  List.inj_on_of_nodup_map h.keys_nodup he hf hkey

theorem guard_eq_of_ticket_eq (h : room.Coherent) {g k : Guard} (hg : g ∈ room.guards)
    (hk : k ∈ room.guards) (hticket : g.ticket = k.ticket) : g = k :=
  List.inj_on_of_nodup_map h.tickets_nodup hg hk hticket

theorem eq_of_ticket_eq (h : room.Coherent) {e f : RegistryEntry} (he : e ∈ room.registry.entries)
    (hf : f ∈ room.registry.entries) (hticket : e.ticket = f.ticket) : e = f := by
  have hguard := h.guard_eq_of_ticket_eq (h.guarded e he) (h.guarded f hf) hticket
  exact h.eq_of_key_eq he hf (congrArg Guard.id hguard)

theorem entry_lt (h : room.Coherent) {e : RegistryEntry} (he : e ∈ room.registry.entries) :
    e.ticket < room.next :=
  h.ticket_lt _ (h.guarded e he)

end Coherent

theorem tell_setEntries (reason : String) (e : RegistryEntry) (registry : Registry) :
    { tell reason room e with registry := registry } =
      tell reason { room with registry := registry } e := by
  simp only [tell, stopOf]
  split <;> rfl

theorem foldl_terminate (reason : String) {es : List RegistryEntry} {n : Nat}
    (hentries : room.registry.entries = es) (h : (es.map RegistryEntry.key).Nodup) :
    (es.map RegistryEntry.key).foldl (terminate reason) (room, n) =
      (es.foldl (tell reason) { room with registry := {} }, n + es.length) := by
  induction es generalizing room n with
  | nil =>
    obtain ⟨⟨entries⟩, next, guards, mailboxes, unread, stops⟩ := room
    dsimp only at hentries
    rw [hentries]
    rfl
  | cons e es ih =>
    obtain ⟨he, hes⟩ := List.nodup_cons.mp h
    have hfind : room.registry.find? e.key = some e := by
      simp [Registry.find?, hentries]
    have herase : room.registry.erase e.key = ⟨es⟩ := by
      have hkeep : ∀ f ∈ es, decide (f.key ≠ e.key) = true := by
        intro f hf
        have hkey : f.key ≠ e.key := fun hkey ↦ he (hkey ▸ List.mem_map_of_mem hf)
        simpa using hkey
      rw [Registry.erase, hentries, List.filter_cons_of_neg (by simp),
        List.filter_eq_self.mpr hkeep]
    have hterminate : terminate reason (room, n) e.key =
        (tell reason { room with registry := ⟨es⟩ } e, n + 1) := by
      simp only [terminate, hfind, herase]
    rw [List.map_cons, List.foldl_cons, hterminate, ih (by rw [registry_tell]) hes,
      tell_setEntries, List.foldl_cons, List.length_cons, Nat.add_right_comm, Nat.add_assoc]

/-- Taking the runs out one by one is emptying the registry and stopping each run that was in it. -/
theorem terminateAll_eq (h : room.Coherent) (reason : String) :
    room.terminateAll reason =
      (room.registry.entries.foldl (tell reason) { room with registry := {} },
        room.registry.entries.length) := by
  rw [terminateAll, foldl_terminate reason rfl h.keys_nodup, Nat.zero_add]

/-! ### One event -/

/-- The entries that an event takes out of a room. -/
def Takes (room : RegistryRoom) : RegistryEvent → RegistryEntry → Prop
  | .register _, _ => False
  | .dropGuard guard, e => guard ∈ room.guards ∧ e.key = guard.id
  | .dropMailbox _, _ => False
  | .deregister id, e => e.key = id
  | .terminateAll _, _ => True

instance (room : RegistryRoom) (event : RegistryEvent) (e : RegistryEntry) :
    Decidable (room.Takes event e) :=
  match event with
  | .register _ => inferInstanceAs (Decidable False)
  | .dropGuard guard => inferInstanceAs (Decidable (guard ∈ room.guards ∧ e.key = guard.id))
  | .dropMailbox _ => inferInstanceAs (Decidable False)
  | .deregister id => inferInstanceAs (Decidable (e.key = id))
  | .terminateAll _ => inferInstanceAs (Decidable True)

/-- What an event leaves in the mailbox of a run that it takes out. -/
def leaves (room : RegistryRoom) (t : Ticket) : RegistryEvent → Mailbox
  | .terminateAll reason => if t ∈ room.unread then .closed else .told reason
  | _ => .closed

/-- The entry that an event puts into a room: there is none under its identity, and it gets the
next ticket. -/
def Enters (room : RegistryRoom) (event : RegistryEvent) (e : RegistryEntry) : Prop :=
  event = .register e.handle ∧ room.registry.contains e.handle.id = false ∧
    e.key = e.handle.id ∧ e.ticket = room.next

/-- The events that stop runs, and how. -/
def stopsOf (room : RegistryRoom) : RegistryEvent → List Stop
  | .terminateAll reason => room.registry.entries.filterMap (room.stopOf reason)
  | _ => []

theorem mem_entries_apply (h : room.Coherent) {event : RegistryEvent} {e : RegistryEntry} :
    e ∈ (room.apply event).registry.entries ↔
      (e ∈ room.registry.entries ∧ ¬ room.Takes event e) ∨ room.Enters event e := by
  obtain ⟨key, handle, ticket⟩ := e
  cases event with
  | register handle' =>
    cases hc : room.registry.contains handle'.id with
    | true =>
      simp only [apply, register_of_contains hc, registry_setMailbox, Takes, Enters,
        RegistryEvent.register.injEq]
      grind
    | false =>
      simp only [apply, register_of_not_contains hc, registry_setMailbox, List.mem_append,
        List.mem_singleton, RegistryEntry.mk.injEq, Takes, Enters, RegistryEvent.register.injEq]
      grind
  | dropGuard guard =>
    by_cases hg : guard ∈ room.guards
    · simp [apply, dropGuard_of_mem hg, Takes, Enters, hg]
    · simp [apply, dropGuard_of_not_mem hg, Takes, Enters, hg]
  | dropMailbox t => simp [apply, dropMailbox, Takes, Enters]
  | deregister id => simp [apply, Takes, Enters]
  | terminateAll reason =>
    simp [apply, terminateAll_eq h, registry_foldl_tell, Takes, Enters]

theorem mem_guards_apply {event : RegistryEvent} {guard : Guard} :
    guard ∈ (room.apply event).guards ↔
      (guard ∈ room.guards ∧ event ≠ .dropGuard guard) ∨
        ∃ handle, event = .register handle ∧ (room.register handle).2 = some guard := by
  cases event with
  | register handle =>
    cases hc : room.registry.contains handle.id with
    | true => simp [apply, register_of_contains hc]
    | false => simp [apply, register_of_not_contains hc, or_comm, eq_comm]
  | dropGuard other =>
    simp only [apply, guards_dropGuard, List.mem_filter, decide_eq_true_eq, ne_eq,
      RegistryEvent.dropGuard.injEq, reduceCtorEq, false_and, exists_false, or_false]
    rw [eq_comm]
  | dropMailbox t => simp [apply, dropMailbox]
  | deregister id => simp [apply]
  | terminateAll reason => simp [apply]

/-- A mailbox that nobody reads is not read again. -/
theorem unread_subset_apply (event : RegistryEvent) : room.unread ⊆ (room.apply event).unread := by
  cases event <;> simp [apply, dropMailbox]

theorem next_le_apply (event : RegistryEvent) : room.next ≤ (room.apply event).next := by
  cases event <;> simp [apply, dropMailbox]

/-- A ticket is given out by an attempt to register. -/
theorem exists_register_of_lt_next {event : RegistryEvent} {t : Ticket} (ht : room.next ≤ t)
    (ht' : t < (room.apply event).next) : t = room.next ∧ ∃ handle, event = .register handle := by
  have hsame : ¬ t < room.next := Nat.not_lt.mpr ht
  cases event with
  | register handle =>
    rw [apply, next_register] at ht'
    exact ⟨Nat.le_antisymm (Nat.le_of_lt_succ ht') ht, handle, rfl⟩
  | dropGuard guard => exact absurd (next_dropGuard guard ▸ ht') hsame
  | dropMailbox u => exact absurd ht' hsame
  | deregister id => exact absurd (next_deregister id ▸ ht') hsame
  | terminateAll reason => exact absurd (next_terminateAll reason ▸ ht') hsame

/-- What happens to the mailbox of an attempt that was made before the event. -/
theorem mailbox_apply (h : room.Coherent) (event : RegistryEvent) {t : Ticket}
    (ht : t < room.next) :
    (room.apply event).mailbox t =
      if ∃ e ∈ room.registry.entries, e.ticket = t ∧ room.Takes event e then
        room.leaves t event
      else room.mailbox t := by
  cases event with
  | register handle => simp [apply, mailbox_register, Nat.ne_of_lt ht, Takes]
  | dropGuard guard =>
    by_cases hg : guard ∈ room.guards
    · rw [apply, dropGuard_of_mem hg]
      simp only [Takes, hg, true_and, leaves]
      exact @mailbox_deregister { room with guards := room.guards.filter fun g ↦ g ≠ guard }
        h.keys_nodup guard.id t
    · simp [apply, dropGuard_of_not_mem hg, Takes, hg]
  | dropMailbox u => simp [apply, dropMailbox, Takes, mailbox]
  | deregister id => exact mailbox_deregister h.keys_nodup id t
  | terminateAll reason =>
    rw [apply, terminateAll_eq h, mailbox_foldl_tell]
    simp only [Takes, and_true, leaves]
    rfl

/-- Runs are stopped by the registry being cleared, and by nothing else. -/
theorem stops_apply (h : room.Coherent) (event : RegistryEvent) :
    (room.apply event).stops = room.stops ++ room.stopsOf event := by
  cases event with
  | register handle => simp [apply, stopsOf]
  | dropGuard guard => simp [apply, stopsOf]
  | dropMailbox t => simp [apply, dropMailbox, stopsOf]
  | deregister id => simp [apply, stopsOf]
  | terminateAll reason =>
    rw [apply, terminateAll_eq h, stops_foldl_tell]
    rfl

/-! ### Coherence is kept -/

theorem Coherent.keys_nodup_apply (h : room.Coherent) (event : RegistryEvent) :
    ((room.apply event).registry.entries.map RegistryEntry.key).Nodup := by
  have hfilter (p : RegistryEntry → Bool) :
      ((room.registry.entries.filter p).map RegistryEntry.key).Nodup :=
    h.keys_nodup.sublist (List.filter_sublist.map _)
  cases event with
  | register handle =>
    cases hc : room.registry.contains handle.id with
    | true => simpa [apply, register_of_contains hc] using h.keys_nodup
    | false =>
      have hnew : ∀ e ∈ room.registry.entries, e.key ≠ handle.id := by
        intro e he hkey
        rw [Registry.contains_iff.mpr ⟨e, he, hkey⟩] at hc
        cases hc
      simp only [apply, register_of_not_contains hc, registry_setMailbox, List.map_append,
        List.map_singleton]
      rw [← List.concat_eq_append, List.nodup_concat]
      refine ⟨fun hmem ↦ ?_, h.keys_nodup⟩
      obtain ⟨e, he, hkey⟩ := List.mem_map.mp hmem
      exact hnew e he hkey
  | dropGuard guard =>
    by_cases hg : guard ∈ room.guards
    · rw [apply, dropGuard_of_mem hg, entries_deregister]
      exact hfilter _
    · rw [apply, dropGuard_of_not_mem hg]
      exact h.keys_nodup
  | dropMailbox t => exact h.keys_nodup
  | deregister id =>
    rw [apply, entries_deregister]
    exact hfilter _
  | terminateAll reason =>
    rw [apply, terminateAll_eq h, registry_foldl_tell]
    exact List.nodup_nil

theorem Coherent.tickets_nodup_apply (h : room.Coherent) (event : RegistryEvent) :
    ((room.apply event).guards.map Guard.ticket).Nodup := by
  cases event with
  | register handle =>
    cases hc : room.registry.contains handle.id with
    | true => simpa [apply, register_of_contains hc] using h.tickets_nodup
    | false =>
      simp only [apply, register_of_not_contains hc, guards_setMailbox, List.map_cons]
      refine List.nodup_cons.mpr ⟨fun hmem ↦ ?_, h.tickets_nodup⟩
      obtain ⟨g, hg, hticket⟩ := List.mem_map.mp hmem
      exact Nat.ne_of_lt (h.ticket_lt g hg) hticket
  | dropGuard guard =>
    rw [apply, guards_dropGuard]
    exact h.tickets_nodup.sublist (List.filter_sublist.map _)
  | dropMailbox t => exact h.tickets_nodup
  | deregister id => simpa [apply] using h.tickets_nodup
  | terminateAll reason => simpa [apply] using h.tickets_nodup

theorem Coherent.waiting_apply (h : room.Coherent) (event : RegistryEvent) {e : RegistryEntry}
    (he : e ∈ (room.apply event).registry.entries) :
    (room.apply event).mailbox e.ticket = .empty := by
  rcases (mem_entries_apply h).mp he with ⟨hold, hkept⟩ | ⟨rfl, hnew, -, hticket⟩
  · have hnot : ¬ ∃ f ∈ room.registry.entries, f.ticket = e.ticket ∧ room.Takes event f := by
      rintro ⟨f, hf, hticket, htakes⟩
      rw [h.eq_of_ticket_eq hf hold hticket] at htakes
      exact hkept htakes
    rw [mailbox_apply h event (h.entry_lt hold), if_neg hnot, h.waiting e hold]
  · simp [apply, mailbox_register, hticket, hnew]

theorem Coherent.apply (h : room.Coherent) (event : RegistryEvent) :
    (room.apply event).Coherent where
  keys_nodup := h.keys_nodup_apply event
  key_eq := by
    intro e he
    rcases (mem_entries_apply h).mp he with ⟨hold, -⟩ | ⟨-, -, hkey, -⟩
    · exact h.key_eq e hold
    · exact hkey
  guarded := by
    intro e he
    rw [mem_guards_apply]
    rcases (mem_entries_apply h).mp he with ⟨hold, hkept⟩ | ⟨hevent, hnew, hkey, hticket⟩
    · refine .inl ⟨h.guarded e hold, ?_⟩
      rintro rfl
      exact hkept ⟨h.guarded e hold, rfl⟩
    · exact .inr ⟨e.handle, hevent, register_eq_some_iff.mpr ⟨hnew, by rw [hkey, hticket]⟩⟩
  waiting := fun e he ↦ h.waiting_apply event he
  tickets_nodup := h.tickets_nodup_apply event
  ticket_lt := by
    intro g hg
    rcases mem_guards_apply.mp hg with ⟨hold, -⟩ | ⟨handle, rfl, hsome⟩
    · exact Nat.lt_of_lt_of_le (h.ticket_lt g hold) (next_le_apply event)
    · rw [(register_eq_some_iff.mp hsome).2, RegistryRoom.apply, next_register]
      exact Nat.lt_succ_self _

/-! ### A run of events -/

/-- The room that some events lead to from an empty registry. -/
def run (events : List RegistryEvent) : RegistryRoom := events.foldl apply {}

@[simp] theorem run_concat (events : List RegistryEvent) (event : RegistryEvent) :
    run (events ++ [event]) = (run events).apply event := by
  rw [run, List.foldl_append]
  rfl

theorem coherent_run (events : List RegistryEvent) : (run events).Coherent := by
  induction events using List.reverseRecOn with
  | nil => exact .start
  | append_singleton events event ih => exact run_concat events event ▸ ih.apply event

/-- At some moment of a run, an event and the room in which it happened were as described. -/
def Happens (p : RegistryRoom → RegistryEvent → Prop) (events : List RegistryEvent) : Prop :=
  ∃ before event after, events = before ++ event :: after ∧ p (run before) event

section Happens

variable {p q : RegistryRoom → RegistryEvent → Prop} {events : List RegistryEvent}

theorem not_happens_nil : ¬ Happens p [] := by
  rintro ⟨before, event, after, heq, -⟩
  simp at heq

theorem happens_concat {event : RegistryEvent} :
    Happens p (events ++ [event]) ↔ Happens p events ∨ p (run events) event := by
  constructor
  · rintro ⟨before, other, after, heq, hp⟩
    rcases List.eq_nil_or_concat after with rfl | ⟨after, last, rfl⟩
    · obtain ⟨rfl, heq⟩ := List.append_inj' heq rfl
      obtain rfl : event = other := by simpa using heq
      exact .inr hp
    · rw [List.concat_eq_append, ← List.cons_append, ← List.append_assoc] at heq
      exact .inl ⟨before, other, after, (List.append_inj' heq rfl).1, hp⟩
  · rintro (⟨before, other, after, rfl, hp⟩ | hp)
    · exact ⟨before, other, after ++ [event], by simp, hp⟩
    · exact ⟨events, event, [], rfl, hp⟩

theorem Happens.mono (h : Happens p events) (hpq : ∀ room event, p room event → q room event) :
    Happens q events := by
  obtain ⟨before, event, after, heq, hp⟩ := h
  exact ⟨before, event, after, heq, hpq _ event hp⟩

theorem Happens.append (h : Happens p events) (more : List RegistryEvent) :
    Happens p (events ++ more) := by
  obtain ⟨before, event, after, rfl, hp⟩ := h
  exact ⟨before, event, after ++ more, by simp, hp⟩

end Happens

end RegistryRoom

end FlexGate
