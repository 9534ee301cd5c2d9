import FlexGate.Proofs.Registry.Events

/-!
# A registered run among others

While a run is registered, others do to the registry what they like. To say what the run itself
changes, the room that it leaves (`depart`) is compared with the room in which the same things were
done and the run only used up a ticket (`withoutRun`). Under other identities the two rooms stay the
same through every event (`AgreeApart.apply`), so giving up the guard makes the entries those of
others, without what stands under the identity of the run (`restored_depart`). No entry of the run's
own registration is left, even if others gave its guard up before (`ticket_ne_of_mem_depart`).
-/

set_option autoImplicit false
set_option relaxedAutoImplicit false

namespace FlexGate

theorem Registry.contains_eq_false_iff {r : Registry} {id : RunId} :
    r.contains id = false ↔ ∀ e ∈ r.entries, e.key ≠ id := by
  rw [← Bool.not_eq_true, contains_iff]
  simp only [not_exists, not_and, ne_eq]

namespace RegistryRoom

variable {room a b : RegistryRoom} {id : RunId}

/-! ### Reading a mailbox -/

@[simp] theorem snd_read (t : Ticket) : (room.read t).2 = room.mailbox t := by
  rw [read]
  split
  case h_1 reason h => exact h.symm
  case h_2 => rfl

@[simp] theorem registry_read (t : Ticket) : (room.read t).1.registry = room.registry := by
  rw [read]
  split <;> rfl

@[simp] theorem next_read (t : Ticket) : (room.read t).1.next = room.next := by
  rw [read]
  split <;> rfl

@[simp] theorem guards_read (t : Ticket) : (room.read t).1.guards = room.guards := by
  rw [read]
  split <;> rfl

theorem mailbox_read_of_ne {t u : Ticket} (h : u ≠ t) :
    (room.read t).1.mailbox u = room.mailbox u := by
  rw [read]
  split
  · rw [mailbox_setMailbox, if_neg h]
  · rfl

/-- What was told is read from no mailbox whose run is in the registry, so nothing that counts
changes. -/
theorem Coherent.read (h : room.Coherent) (t : Ticket) : (room.read t).1.Coherent where
  keys_nodup := by simpa using h.keys_nodup
  key_eq := by simpa using h.key_eq
  guarded := by simpa using h.guarded
  waiting := by
    intro e he
    rw [registry_read] at he
    by_cases ht : e.ticket = t
    · have hempty : room.mailbox t = .empty := ht ▸ h.waiting e he
      rw [RegistryRoom.read, hempty]
      exact h.waiting e he
    · rw [mailbox_read_of_ne ht]
      exact h.waiting e he
  tickets_nodup := by simpa using h.tickets_nodup
  ticket_lt := by simpa using h.ticket_lt

/-! ### Clearing the registry -/

theorem registry_terminate (reason : String) (s : RegistryRoom × Nat) (id : RunId) :
    (terminate reason s id).1.registry = s.1.registry.erase id := by
  rw [terminate]
  cases hfind : s.1.registry.find? id with
  | none => exact (Registry.erase_of_find?_eq_none hfind).symm
  | some e => exact registry_tell reason e

theorem entries_foldl_terminate (reason : String) (ids : List RunId) (s : RegistryRoom × Nat) :
    (ids.foldl (terminate reason) s).1.registry.entries =
      s.1.registry.entries.filter fun e ↦ e.key ∉ ids := by
  induction ids generalizing s with
  | nil => simp
  | cons id ids ih =>
    rw [List.foldl_cons, ih, registry_terminate, Registry.erase, List.filter_filter]
    refine List.filter_congr fun e _ ↦ ?_
    simp [Bool.and_comm]

/-- Clearing empties the registry, whatever is in it. -/
theorem entries_terminateAll (reason : String) :
    (room.terminateAll reason).1.registry.entries = [] := by
  rw [terminateAll, entries_foldl_terminate]
  refine List.filter_eq_nil_iff.mpr fun e he ↦ ?_
  simpa using ⟨e, he, rfl⟩

/-! ### Rooms that agree apart from one identity -/

/-- The entries under other identities. -/
def entriesApart (id : RunId) (room : RegistryRoom) : List RegistryEntry :=
  room.registry.entries.filter fun e ↦ e.key ≠ id

/-- The guards of other identities. -/
def guardsApart (id : RunId) (room : RegistryRoom) : List Guard :=
  room.guards.filter fun g ↦ g.id ≠ id

structure AgreeApart (id : RunId) (a b : RegistryRoom) : Prop where
  next_eq : a.next = b.next
  entries_eq : entriesApart id a = entriesApart id b
  guards_eq : guardsApart id a = guardsApart id b

theorem contains_iff_entriesApart {other : RunId} (h : other ≠ id) :
    room.registry.contains other = true ↔ ∃ e ∈ entriesApart id room, e.key = other := by
  rw [Registry.contains_iff]
  constructor
  · rintro ⟨e, he, rfl⟩
    exact ⟨e, List.mem_filter.mpr ⟨he, by simpa using h⟩, rfl⟩
  · rintro ⟨e, he, hkey⟩
    exact ⟨e, (List.mem_filter.mp he).1, hkey⟩

theorem mem_guards_iff_guardsApart {guard : Guard} (h : guard.id ≠ id) :
    guard ∈ room.guards ↔ guard ∈ guardsApart id room := by
  simp [guardsApart, h]

/-- A registration under the identity is not seen apart from it. -/
theorem AgreeApart.register_self (room : RegistryRoom) {handle : RunHandle} (h : handle.id = id) :
    AgreeApart id (room.register handle).1 { room with next := room.next + 1 } where
  next_eq := next_register handle
  entries_eq := by
    cases hc : room.registry.contains handle.id with
    | true => simp [register_of_contains hc, entriesApart]
    | false => simp [register_of_not_contains hc, entriesApart, h]
  guards_eq := by
    cases hc : room.registry.contains handle.id with
    | true => simp [register_of_contains hc, guardsApart]
    | false => simp [register_of_not_contains hc, guardsApart, h]

theorem AgreeApart.contains_eq (h : AgreeApart id a b) {other : RunId} (hne : other ≠ id) :
    a.registry.contains other = b.registry.contains other := by
  rw [Bool.eq_iff_iff, contains_iff_entriesApart hne, contains_iff_entriesApart hne, h.entries_eq]

theorem AgreeApart.mem_guards_iff (h : AgreeApart id a b) {guard : Guard} (hne : guard.id ≠ id) :
    guard ∈ a.guards ↔ guard ∈ b.guards := by
  rw [mem_guards_iff_guardsApart hne, mem_guards_iff_guardsApart hne, h.guards_eq]

theorem AgreeApart.register (h : AgreeApart id a b) (handle : RunHandle) :
    AgreeApart id (a.register handle).1 (b.register handle).1 := by
  by_cases hid : handle.id = id
  · have ha := register_self a hid
    have hb := register_self b hid
    refine ⟨?_, ?_, ?_⟩
    · rw [next_register, next_register, h.next_eq]
    · exact ha.entries_eq.trans (h.entries_eq.trans hb.entries_eq.symm)
    · exact ha.guards_eq.trans (h.guards_eq.trans hb.guards_eq.symm)
  · have hentries := h.entries_eq
    have hguards := h.guards_eq
    simp only [entriesApart, guardsApart] at hentries hguards
    cases hc : a.registry.contains handle.id with
    | true =>
      rw [register_of_contains hc, register_of_contains (h.contains_eq hid ▸ hc)]
      exact ⟨congrArg (· + 1) h.next_eq, hentries, hguards⟩
    | false =>
      rw [register_of_not_contains hc, register_of_not_contains (h.contains_eq hid ▸ hc)]
      refine ⟨congrArg (· + 1) h.next_eq, ?_, ?_⟩
      · simpa [entriesApart, h.next_eq] using hentries
      · simpa [guardsApart, h.next_eq, hid] using hguards

theorem entriesApart_deregister (other : RunId) :
    entriesApart id (room.deregister other).1 =
      (entriesApart id room).filter fun e ↦ e.key ≠ other := by
  rw [entriesApart, entries_deregister, entriesApart, List.filter_filter, List.filter_filter]
  refine List.filter_congr fun e _ ↦ ?_
  rw [Bool.and_comm]

theorem AgreeApart.deregister (h : AgreeApart id a b) (other : RunId) :
    AgreeApart id (a.deregister other).1 (b.deregister other).1 where
  next_eq := by rw [next_deregister, next_deregister, h.next_eq]
  entries_eq := by rw [entriesApart_deregister, entriesApart_deregister, h.entries_eq]
  guards_eq := by simpa [guardsApart] using h.guards_eq

theorem entriesApart_dropGuard (guard : Guard) :
    entriesApart id (room.dropGuard guard) =
      if guard.id ≠ id ∧ guard ∈ room.guards then
        (entriesApart id room).filter fun e ↦ e.key ≠ guard.id
      else entriesApart id room := by
  by_cases hg : guard ∈ room.guards
  · rw [dropGuard_of_mem hg, entriesApart_deregister]
    by_cases hid : guard.id = id
    · simp [hid, entriesApart]
    · simp [hid, hg, entriesApart]
  · simp [dropGuard_of_not_mem hg, hg]

theorem guardsApart_dropGuard (guard : Guard) :
    guardsApart id (room.dropGuard guard) = (guardsApart id room).filter fun g ↦ g ≠ guard := by
  rw [guardsApart, guards_dropGuard, guardsApart, List.filter_filter, List.filter_filter]
  refine List.filter_congr fun g _ ↦ ?_
  rw [Bool.and_comm]

theorem AgreeApart.dropGuard (h : AgreeApart id a b) (guard : Guard) :
    AgreeApart id (a.dropGuard guard) (b.dropGuard guard) where
  next_eq := by rw [next_dropGuard, next_dropGuard, h.next_eq]
  entries_eq := by
    by_cases hid : guard.id = id
    · simp [entriesApart_dropGuard, hid, h.entries_eq]
    · simp only [entriesApart_dropGuard, h.mem_guards_iff hid, h.entries_eq]
  guards_eq := by rw [guardsApart_dropGuard, guardsApart_dropGuard, h.guards_eq]

theorem AgreeApart.apply (h : AgreeApart id a b) (event : RegistryEvent) :
    AgreeApart id (a.apply event) (b.apply event) := by
  cases event with
  | register handle => exact h.register handle
  | dropGuard guard => exact h.dropGuard guard
  | dropMailbox t => exact ⟨h.next_eq, h.entries_eq, h.guards_eq⟩
  | deregister other => exact h.deregister other
  | terminateAll reason =>
    refine ⟨?_, ?_, ?_⟩
    · simp [RegistryRoom.apply, h.next_eq]
    · simp [RegistryRoom.apply, entriesApart, entries_terminateAll]
    · simpa [RegistryRoom.apply, guardsApart] using h.guards_eq

theorem AgreeApart.foldl_apply (h : AgreeApart id a b) (events : List RegistryEvent) :
    AgreeApart id (events.foldl RegistryRoom.apply a) (events.foldl RegistryRoom.apply b) :=
  List.foldl_rel h fun event _ _ _ h ↦ h.apply event

/-! ### Rooms after some events -/

theorem Coherent.foldl_apply (h : room.Coherent) (events : List RegistryEvent) :
    (events.foldl RegistryRoom.apply room).Coherent :=
  List.foldlRecOn events RegistryRoom.apply h fun _ h event _ ↦ h.apply event

theorem mem_guards_foldl_apply {guard : Guard} {events : List RegistryEvent}
    (hguard : guard ∈ room.guards) (hkept : RegistryEvent.dropGuard guard ∉ events) :
    guard ∈ (events.foldl apply room).guards := by
  refine List.foldlRecOn (motive := fun room ↦ guard ∈ room.guards) events apply hguard ?_
  intro room hguard event hevent
  have hne : event ≠ .dropGuard guard := by
    rintro rfl
    exact hkept hevent
  exact mem_guards_apply.mpr (.inl ⟨hguard, hne⟩)

/-- A guard is the only one with its ticket, and no other will get it. -/
def Sole (guard : Guard) (room : RegistryRoom) : Prop :=
  guard.ticket < room.next ∧ ∀ g ∈ room.guards, g.ticket = guard.ticket → g = guard

theorem Sole.apply {guard : Guard} (h : Sole guard room) (event : RegistryEvent) :
    Sole guard (room.apply event) := by
  refine ⟨Nat.lt_of_lt_of_le h.1 (next_le_apply event), fun g hg hticket ↦ ?_⟩
  rcases mem_guards_apply.mp hg with ⟨hold, -⟩ | ⟨handle, -, hnew⟩
  · exact h.2 g hold hticket
  · rw [(register_eq_some_iff.mp hnew).2] at hticket
    exact absurd hticket.symm (Nat.ne_of_lt h.1)

theorem Sole.foldl_apply {guard : Guard} (h : Sole guard room) (events : List RegistryEvent) :
    Sole guard (events.foldl RegistryRoom.apply room) :=
  List.foldlRecOn events RegistryRoom.apply h fun _ h event _ ↦ h.apply event

/-- An identity that nobody registers stays free. -/
theorem Coherent.not_contains_foldl_apply (h : room.Coherent) {events : List RegistryEvent}
    (hfree : room.registry.contains id = false)
    (hevents : ∀ handle, RegistryEvent.register handle ∈ events → handle.id ≠ id) :
    (events.foldl RegistryRoom.apply room).registry.contains id = false := by
  have hboth : (events.foldl RegistryRoom.apply room).Coherent ∧
      (events.foldl RegistryRoom.apply room).registry.contains id = false := by
    refine List.foldlRecOn
      (motive := fun room ↦ room.Coherent ∧ room.registry.contains id = false) events
      RegistryRoom.apply ⟨h, hfree⟩ ?_
    rintro room ⟨h, hfree⟩ event hevent
    refine ⟨h.apply event, Registry.contains_eq_false_iff.mpr fun e he ↦ ?_⟩
    rcases (mem_entries_apply h).mp he with ⟨hold, -⟩ | ⟨hregister, -, hkey, -⟩
    · exact Registry.contains_eq_false_iff.mp hfree e hold
    · rw [hkey]
      exact hevents e.handle (hregister ▸ hevent)
  exact hboth.2

/-! ### A run that comes and goes -/

/-- The room that a registered run leaves. Others do what they do, the run reads its mailbox, others
do more, and the run gives up its guard and its mailbox. -/
def depart (room : RegistryRoom) (guard : Guard) (others later : List RegistryEvent) :
    RegistryRoom :=
  let read := ((others.foldl apply room).read guard.ticket).1
  ((later.foldl apply read).dropGuard guard).dropMailbox guard.ticket

/-- The room in which others do what they do, and all that a run does is to use up a ticket. -/
def withoutRun (room : RegistryRoom) (events : List RegistryEvent) : RegistryRoom :=
  events.foldl apply { room with next := room.next + 1 }

/-- Nothing of a run is left in the registry, and all else is as others made it. Under other
identities there is what others put there, and no entry is of the registration of the run. If the
identity was free and others left the guard of the run to it, there is nothing under the identity at
the end; and if others did not register under it either, the entries are those of others. -/
structure Restored (id : RunId) (events : List RegistryEvent) (before after : RegistryRoom) :
    Prop where
  apart : entriesApart id after = entriesApart id (before.withoutRun events)
  not_own : ∀ e ∈ after.registry.entries, e.ticket ≠ before.next
  of_free : before.registry.contains id = false →
    RegistryEvent.dropGuard ⟨before.next, id⟩ ∉ events →
      after.registry.entries = entriesApart id (before.withoutRun events)
  of_unclaimed : (∀ handle, RegistryEvent.register handle ∈ events → handle.id ≠ id) →
    RegistryEvent.dropGuard ⟨before.next, id⟩ ∉ events →
      after.registry.entries = (before.withoutRun events).registry.entries

theorem entriesApart_of_not_contains (h : room.registry.contains id = false) :
    entriesApart id room = room.registry.entries :=
  List.filter_eq_self.mpr fun e he ↦
    decide_eq_true (Registry.contains_eq_false_iff.mp h e he)

theorem Coherent.skip (h : room.Coherent) : Coherent { room with next := room.next + 1 } where
  keys_nodup := h.keys_nodup
  key_eq := h.key_eq
  guarded := h.guarded
  waiting := h.waiting
  tickets_nodup := h.tickets_nodup
  ticket_lt := fun g hg ↦ Nat.lt_succ_of_lt (h.ticket_lt g hg)

/-- A run that was not registered changes nothing in the registry. -/
theorem restored_of_registry_eq (h : room.Coherent) (heq : a.registry = room.registry) :
    Restored id [] room a where
  apart := by
    rw [entriesApart, heq]
    rfl
  not_own := fun e he ↦ Nat.ne_of_lt (h.entry_lt (heq ▸ he))
  of_free := by
    intro hfree _
    rw [heq]
    exact (entriesApart_of_not_contains hfree).symm
  of_unclaimed := fun _ _ ↦ congrArg Registry.entries heq

theorem Restored.entries_eq (h : Restored id [] a b) : b.registry.entries = a.registry.entries :=
  h.of_unclaimed (fun _ hmem ↦ absurd hmem List.not_mem_nil) List.not_mem_nil

section Depart

variable {handle : RunHandle} {others later : List RegistryEvent}

theorem AgreeApart.read_left (h : AgreeApart id a b) (t : Ticket) :
    AgreeApart id (a.read t).1 b where
  next_eq := by rw [next_read, h.next_eq]
  entries_eq := by rw [entriesApart, registry_read]; exact h.entries_eq
  guards_eq := by rw [guardsApart, guards_read]; exact h.guards_eq

theorem AgreeApart.dropGuard_left (h : AgreeApart id a b) {guard : Guard} (hid : guard.id = id) :
    AgreeApart id (a.dropGuard guard) b where
  next_eq := by rw [next_dropGuard, h.next_eq]
  entries_eq := by simp [entriesApart_dropGuard, hid, h.entries_eq]
  guards_eq := by
    have hnot : ∀ g ∈ guardsApart id b, g ≠ guard := by
      rintro g hg rfl
      simp [guardsApart, hid] at hg
    rw [guardsApart_dropGuard, h.guards_eq]
    exact List.filter_eq_self.mpr fun g hg ↦ decide_eq_true (hnot g hg)

/-- The room in which the run is about to give up its guard. -/
theorem agreeApart_cleared (room : RegistryRoom) (handle : RunHandle) (t : Ticket)
    (others later : List RegistryEvent) :
    AgreeApart handle.id
      (later.foldl apply ((others.foldl apply (room.register handle).1).read t).1)
      (room.withoutRun (others ++ later)) := by
  rw [withoutRun, List.foldl_append]
  exact (((AgreeApart.register_self room rfl).foldl_apply others).read_left t).foldl_apply later

theorem Coherent.depart (h : room.Coherent) (guard : Guard) :
    (room.depart guard others later).Coherent :=
  (((((h.foldl_apply others).read guard.ticket).foldl_apply later).apply
    (.dropGuard guard)).apply (.dropMailbox guard.ticket))

theorem sole_register (h : room.Coherent) (hfree : room.registry.contains handle.id = false) :
    Sole ⟨room.next, handle.id⟩ (room.register handle).1 := by
  rw [register_of_not_contains hfree]
  refine ⟨Nat.lt_succ_self _, fun g hg hticket ↦ ?_⟩
  rcases List.mem_cons.mp hg with rfl | hold
  · rfl
  · exact absurd hticket (Nat.ne_of_lt (h.ticket_lt g hold))

/-- Whoever gave up the guard of a registration, its entry went with it. -/
theorem ticket_ne_of_mem_depart (h : room.Coherent)
    (hfree : room.registry.contains handle.id = false) {e : RegistryEntry}
    (he : e ∈ ((room.register handle).1.depart ⟨room.next, handle.id⟩ others
      later).registry.entries) : e.ticket ≠ room.next := by
  intro hticket
  have hcoherent : ((room.register handle).1.depart ⟨room.next, handle.id⟩ others later).Coherent :=
    (h.apply (.register handle)).depart _
  have hguard := hcoherent.guarded e he
  have hsole : Sole ⟨room.next, handle.id⟩
      ((others.foldl RegistryRoom.apply (room.register handle).1).read room.next).1 := by
    have hothers := (sole_register h hfree).foldl_apply others
    rw [Sole, next_read, guards_read]
    exact hothers
  rw [depart, dropMailbox, guards_dropGuard] at hguard
  obtain ⟨hkept, hne⟩ := List.mem_filter.mp hguard
  have hown := (hsole.foldl_apply later).2 _ hkept hticket
  exact of_decide_eq_true hne hown

theorem restored_depart (h : room.Coherent) (hfree : room.registry.contains handle.id = false) :
    Restored handle.id (others ++ later) room
      ((room.register handle).1.depart ⟨room.next, handle.id⟩ others later) := by
  have hcleared := agreeApart_cleared room handle room.next others later
  have hfree' : RegistryEvent.dropGuard ⟨room.next, handle.id⟩ ∉ others ++ later →
      ((room.register handle).1.depart ⟨room.next, handle.id⟩ others later).registry.entries =
        entriesApart handle.id (room.withoutRun (others ++ later)) := by
    -- The guard is still the run's, so to give it up takes out what stands under the identity.
    intro hleft
    rw [List.mem_append, not_or] at hleft
    have hmem : ⟨room.next, handle.id⟩ ∈ (room.register handle).1.guards := by
      rw [register_of_not_contains hfree]
      exact List.mem_cons_self
    have hread := mem_guards_foldl_apply hmem hleft.1
    rw [← guards_read room.next] at hread
    rw [depart, dropMailbox, dropGuard_of_mem (mem_guards_foldl_apply hread hleft.2),
      entries_deregister]
    exact hcleared.entries_eq
  refine ⟨(hcleared.dropGuard_left rfl).entries_eq, fun e ↦ ticket_ne_of_mem_depart h hfree,
    fun _ ↦ hfree', fun hothers hleft ↦ ?_⟩
  rw [hfree' hleft]
  exact entriesApart_of_not_contains (h.skip.not_contains_foldl_apply hfree hothers)

end Depart

end RegistryRoom

end FlexGate
