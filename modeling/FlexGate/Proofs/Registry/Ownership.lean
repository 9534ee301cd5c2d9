import FlexGate.Proofs.Registry.Events

/-!
# Who owns the entry of a run

A registration that succeeds puts an entry into the registry and gives a guard for it. As long as
the entry is there, that guard has not been given up (`exists_guard_of_mem_entries`), so a registry
without guards is empty. With what coherence says of the identities this is the invariant that
every event keeps (`entries_are_guarded`).

A registration is in the registry exactly when it was accepted and no event has removed it
(`registered_run_iff`). A guard that is given up removes what stands under its identity, and that
may be the entry of a later registration. This is the one way in which a registration is lost while
its own guard is held and nobody else has removed it (`guards_protect_iff`). It needs an identity
that is registered twice: among fresh identities it does not happen (`not_staleDrop_of_nodup`).
-/

set_option autoImplicit false
set_option relaxedAutoImplicit false

namespace FlexGate.RegistryRoom

variable {room : RegistryRoom} {events : List RegistryEvent} {event : RegistryEvent} {t : Ticket}

/-! ### The fate of a registration -/

/-- The registration with a ticket is in the registry. -/
def Registered (room : RegistryRoom) (t : Ticket) : Prop :=
  ∃ e ∈ room.registry.entries, e.ticket = t

/-- An event is the attempt to register with a ticket, and it succeeds. -/
def Accepts (t : Ticket) (room : RegistryRoom) (event : RegistryEvent) : Prop :=
  ∃ handle, event = .register handle ∧ (room.register handle).2 = some ⟨t, handle.id⟩

/-- An event is the attempt to register with a ticket, and it fails. -/
def Refuses (t : Ticket) (room : RegistryRoom) (event : RegistryEvent) : Prop :=
  ∃ handle, event = .register handle ∧ room.next = t ∧ (room.register handle).2 = none

/-- An event removes the registration with a ticket from the registry. -/
def Removes (t : Ticket) (room : RegistryRoom) (event : RegistryEvent) : Prop :=
  room.Registered t ∧ ¬ (room.apply event).Registered t

theorem Coherent.lt_next_of_registered (h : room.Coherent) (ht : room.Registered t) :
    t < room.next := by
  obtain ⟨e, he, rfl⟩ := ht
  exact h.entry_lt he

theorem accepts_iff : Accepts t room event ↔ ∃ e, room.Enters event e ∧ e.ticket = t := by
  constructor
  · rintro ⟨handle, rfl, hsome⟩
    obtain ⟨hnew, hguard⟩ := register_eq_some_iff.mp hsome
    exact ⟨⟨handle.id, handle, t⟩, ⟨rfl, hnew, rfl, congrArg Guard.ticket hguard⟩, rfl⟩
  · rintro ⟨e, ⟨rfl, hnew, -, hticket⟩, rfl⟩
    exact ⟨e.handle, rfl, register_eq_some_iff.mpr ⟨hnew, by rw [hticket]⟩⟩

theorem eq_next_of_accepts (h : Accepts t room event) : t = room.next := by
  obtain ⟨handle, -, hsome⟩ := h
  exact congrArg Guard.ticket (register_eq_some_iff.mp hsome).2

/-- A registration is removed when its entry is taken out. -/
theorem removes_iff (h : room.Coherent) :
    Removes t room event ↔
      ∃ e ∈ room.registry.entries, e.ticket = t ∧ room.Takes event e := by
  constructor
  · rintro ⟨⟨e, he, rfl⟩, hgone⟩
    refine ⟨e, he, rfl, ?_⟩
    by_contra hkept
    exact hgone ⟨e, (mem_entries_apply h).mpr (.inl ⟨he, hkept⟩), rfl⟩
  · rintro ⟨e, he, rfl, htakes⟩
    refine ⟨⟨e, he, rfl⟩, ?_⟩
    rintro ⟨f, hf, hticket⟩
    rcases (mem_entries_apply h).mp hf with ⟨hold, hkept⟩ | ⟨-, -, -, hnext⟩
    · rw [h.eq_of_ticket_eq hold he hticket] at hkept
      exact hkept htakes
    · exact Nat.ne_of_lt (h.entry_lt he) (hticket.symm.trans hnext)

theorem registered_apply (h : room.Coherent) :
    (room.apply event).Registered t ↔
      (room.Registered t ∧ ¬ Removes t room event) ∨ Accepts t room event := by
  constructor
  · rintro ⟨e, he, rfl⟩
    rcases (mem_entries_apply h).mp he with ⟨hold, -⟩ | henters
    · exact .inl ⟨⟨e, hold, rfl⟩, fun hremoves ↦ hremoves.2 ⟨e, he, rfl⟩⟩
    · exact .inr (accepts_iff.mpr ⟨e, henters, rfl⟩)
  · rintro (⟨hold, hkept⟩ | haccepts)
    · by_contra hgone
      exact hkept ⟨hold, hgone⟩
    · obtain ⟨e, henters, rfl⟩ := accepts_iff.mp haccepts
      exact ⟨e, (mem_entries_apply h).mpr (.inr henters), rfl⟩

/-- What is removed was registered before. -/
theorem lt_next_of_happens_removes (h : Happens (Removes t) events) : t < (run events).next := by
  induction events using List.reverseRecOn with
  | nil => exact absurd h not_happens_nil
  | append_singleton events event ih =>
    have hle : (run events).next ≤ (run (events ++ [event])).next :=
      run_concat events event ▸ next_le_apply event
    rcases happens_concat.mp h with h | ⟨hregistered, -⟩
    · exact Nat.lt_of_lt_of_le (ih h) hle
    · exact Nat.lt_of_lt_of_le ((coherent_run events).lt_next_of_registered hregistered) hle

/-- A registration is in the registry exactly when it was accepted and has not been removed. -/
theorem registered_run_iff :
    (run events).Registered t ↔ Happens (Accepts t) events ∧ ¬ Happens (Removes t) events := by
  induction events using List.reverseRecOn with
  | nil =>
    refine ⟨fun ⟨e, he, _⟩ ↦ absurd he List.not_mem_nil, fun h ↦ absurd h.1 not_happens_nil⟩
  | append_singleton events event ih =>
    rw [run_concat, registered_apply (coherent_run events), happens_concat, happens_concat, ih]
    constructor
    · rintro (⟨⟨haccepted, hkept⟩, hnow⟩ | haccepts)
      · exact ⟨.inl haccepted, not_or.mpr ⟨hkept, hnow⟩⟩
      · -- The ticket is new, so nothing can have removed it yet.
        have hnew : ¬ t < (run events).next := by
          rw [eq_next_of_accepts haccepts]
          exact Nat.lt_irrefl _
        refine ⟨.inr haccepts, not_or.mpr ⟨fun h ↦ hnew (lt_next_of_happens_removes h), ?_⟩⟩
        exact fun h ↦ hnew ((coherent_run events).lt_next_of_registered h.1)
    · rintro ⟨haccepted | haccepts, hkept⟩
      · obtain ⟨hbefore, hnow⟩ := not_or.mp hkept
        exact .inl ⟨⟨haccepted, hbefore⟩, hnow⟩
      · exact .inr haccepts

/-! ### The guard of an entry -/

/-- An event is the registration that puts an entry into the registry and gives a guard for it. -/
def Registers (e : RegistryEntry) (guard : Guard) (room : RegistryRoom) (event : RegistryEvent) :
    Prop :=
  event = .register e.handle ∧ (room.register e.handle).2 = some guard ∧
    e ∉ room.registry.entries ∧ e ∈ (room.apply event).registry.entries

theorem happens_registers_of_mem {e : RegistryEntry} (he : e ∈ (run events).registry.entries) :
    Happens (Registers e ⟨e.ticket, e.key⟩) events := by
  induction events using List.reverseRecOn with
  | nil => exact absurd he List.not_mem_nil
  | append_singleton events event ih =>
    rw [run_concat] at he
    rw [happens_concat]
    rcases (mem_entries_apply (coherent_run events)).mp he with ⟨hold, -⟩ | henters
    · exact .inl (ih hold)
    · obtain ⟨hevent, hnew, hkey, hticket⟩ := henters
      refine .inr ⟨hevent, register_eq_some_iff.mpr ⟨hnew, by rw [hticket, hkey]⟩,
        fun hold ↦ ?_, he⟩
      exact Nat.ne_of_lt ((coherent_run events).entry_lt hold) hticket

theorem Coherent.length_filter_key_le_one (h : room.Coherent) (id : RunId) :
    (room.registry.entries.filter fun e ↦ e.key = id).length ≤ 1 := by
  have hcount := List.nodup_iff_count_le_one.mp h.keys_nodup id
  rw [List.count, List.countP_map, List.countP_eq_length_filter] at hcount
  simpa [Function.comp_def, beq_eq_decide] using hcount

/-- The guard that the registration of an entry gave has not been given up. -/
theorem exists_guard_of_mem_entries {e : RegistryEntry}
    (he : e ∈ (run events).registry.entries) :
    ∃ guard ∈ (run events).guards, Happens (Registers e guard) events :=
  ⟨⟨e.ticket, e.key⟩, (coherent_run events).guarded e he, happens_registers_of_mem he⟩

/-- At most one entry stands under an identity, under that of its own handle, and its guard is held.
An attempt to register an identity that is not in the registry puts an entry there and gives a
guard; one that is there already makes it fail, and what was there before is as it was. Clearing the
registry empties it and counts what was in it; without guards it is empty. -/
theorem entries_are_guarded (events : List RegistryEvent) :
    let room := run events
    (∀ id, (room.registry.entries.filter fun e ↦ e.key = id).length ≤ 1) ∧
    (∀ e ∈ room.registry.entries, e.key = e.handle.id) ∧
    (∀ e ∈ room.registry.entries, ∃ guard ∈ room.guards, Happens (Registers e guard) events) ∧
    (∀ handle, room.registry.contains handle.id = false →
      ∃ guard, (room.register handle).2 = some guard ∧ guard.id = handle.id ∧
        (room.register handle).1.registry.entries =
          room.registry.entries ++ [⟨handle.id, handle, guard.ticket⟩]) ∧
    (∀ handle, room.registry.contains handle.id = true →
      (room.register handle).2 = none ∧
      (room.register handle).1.registry = room.registry ∧
      (room.register handle).1.guards = room.guards ∧
      (room.register handle).1.unread = room.unread ∧
      ∀ t < room.next, (room.register handle).1.mailbox t = room.mailbox t) ∧
    (∀ reason, (room.terminateAll reason).2 = room.registry.size ∧
      (room.terminateAll reason).1.registry.entries = []) ∧
    (room.guards = [] → room.registry.entries = []) := by
  have hcoherent := coherent_run events
  refine ⟨hcoherent.length_filter_key_le_one, hcoherent.key_eq,
    fun e ↦ exists_guard_of_mem_entries, fun handle hc ↦ ?_, fun handle hc ↦ ?_,
    fun reason ↦ ?_, fun hguards ↦ ?_⟩
  · refine ⟨⟨(run events).next, handle.id⟩, register_eq_some_iff.mpr ⟨hc, rfl⟩, rfl, ?_⟩
    rw [register_of_not_contains hc, registry_setMailbox]
  · refine ⟨register_eq_none_iff.mpr hc, ?_, ?_, unread_register handle, fun t ht ↦ ?_⟩
    · rw [register_of_contains hc, registry_setMailbox]
    · rw [register_of_contains hc, guards_setMailbox]
    · rw [mailbox_register, if_neg (Nat.ne_of_lt ht)]
  · rw [terminateAll_eq hcoherent, registry_foldl_tell]
    exact ⟨rfl, rfl⟩
  · refine List.eq_nil_iff_forall_not_mem.mpr fun e he ↦ ?_
    have hguard := hcoherent.guarded e he
    rw [hguards] at hguard
    exact absurd hguard List.not_mem_nil

/-! ### Guards that outlive their entry -/

/-- What a guard is to do for its registration: one that was accepted, whose guard is held, and that
was not removed by its identity or with all others is in the registry. -/
def Protected (events : List RegistryEvent) : Prop :=
  ∀ t, Happens (Accepts t) events → (∃ guard ∈ (run events).guards, guard.ticket = t) →
    ¬ Happens (fun room event ↦ Removes t room event ∧
      ((∃ id, event = .deregister id) ∨ ∃ reason, event = .terminateAll reason)) events →
    (run events).Registered t

/-- A guard is given up while the entry of another registration stands under its identity. -/
def StaleDrop (room : RegistryRoom) (event : RegistryEvent) : Prop :=
  ∃ guard ∈ room.guards, event = .dropGuard guard ∧
    ∃ e ∈ room.registry.entries, e.key = guard.id ∧ e.ticket ≠ guard.ticket

/-- The guard of a registration is given up. -/
def DropsGuardOf (t : Ticket) (room : RegistryRoom) (event : RegistryEvent) : Prop :=
  ∃ guard ∈ room.guards, event = .dropGuard guard ∧ guard.ticket = t

/-- A guard that was given up does not come back. -/
theorem not_held_of_happens_dropsGuardOf (h : Happens (DropsGuardOf t) events) :
    t < (run events).next ∧ ¬ ∃ guard ∈ (run events).guards, guard.ticket = t := by
  induction events using List.reverseRecOn with
  | nil => exact absurd h not_happens_nil
  | append_singleton events event ih =>
    have hcoherent := coherent_run events
    have hnext : (run events).next ≤ ((run events).apply event).next := next_le_apply event
    rw [run_concat]
    rcases happens_concat.mp h with h | ⟨guard, hguard, rfl, rfl⟩
    · obtain ⟨hlt, hnone⟩ := ih h
      refine ⟨Nat.lt_of_lt_of_le hlt hnext, ?_⟩
      rintro ⟨other, hother, rfl⟩
      rcases mem_guards_apply.mp hother with ⟨hold, -⟩ | ⟨handle, -, hsome⟩
      · exact hnone ⟨other, hold, rfl⟩
      · rw [(register_eq_some_iff.mp hsome).2] at hlt
        exact Nat.lt_irrefl _ hlt
    · refine ⟨Nat.lt_of_lt_of_le (hcoherent.ticket_lt guard hguard) hnext, ?_⟩
      rintro ⟨other, hother, hticket⟩
      rcases mem_guards_apply.mp hother with ⟨hold, hne⟩ | ⟨handle, hevent, -⟩
      · exact hne (by rw [hcoherent.guard_eq_of_ticket_eq hold hguard hticket])
      · cases hevent

/-- An event that removes a registration removes it by its identity, or with all others, or gives up
its guard, or gives up a stale guard. -/
theorem cases_of_removes (h : room.Coherent) (hremoves : Removes t room event) :
    ((∃ id, event = .deregister id) ∨ ∃ reason, event = .terminateAll reason) ∨
      DropsGuardOf t room event ∨ StaleDrop room event := by
  obtain ⟨e, he, rfl, htakes⟩ := (removes_iff h).mp hremoves
  cases event with
  | register handle => exact absurd htakes id
  | dropGuard guard =>
    obtain ⟨hguard, hkey⟩ := htakes
    by_cases hticket : guard.ticket = e.ticket
    · exact .inr (.inl ⟨guard, hguard, rfl, hticket⟩)
    · exact .inr (.inr ⟨guard, hguard, rfl, e, he, hkey, Ne.symm hticket⟩)
  | dropMailbox u => exact absurd htakes id
  | deregister id => exact .inl (.inl ⟨id, rfl⟩)
  | terminateAll reason => exact .inl (.inr ⟨reason, rfl⟩)

theorem protected_of_not_staleDrop (h : ¬ Happens StaleDrop events) : Protected events := by
  intro t haccepted hheld hkept
  refine registered_run_iff.mpr ⟨haccepted, ?_⟩
  rintro ⟨before, event, after, rfl, hremoves⟩
  rcases cases_of_removes (coherent_run before) hremoves with hother | hown | hstale
  · exact hkept ⟨before, event, after, rfl, hremoves, hother⟩
  · exact (not_held_of_happens_dropsGuardOf ⟨before, event, after, rfl, hown⟩).2 hheld
  · exact h ⟨before, event, after, rfl, hstale⟩

/-- Right after a stale guard was given up, some registration is lost. -/
theorem not_protected_of_staleDrop (h : StaleDrop (run events) event) :
    ¬ Protected (events ++ [event]) := by
  obtain ⟨guard, hguard, rfl, e, he, hkey, hticket⟩ := h
  have hcoherent := coherent_run events
  have hregistered : (run events).Registered e.ticket := ⟨e, he, rfl⟩
  obtain ⟨haccepted, hkept⟩ := registered_run_iff.mp hregistered
  have hremoves : Removes e.ticket (run events) (.dropGuard guard) :=
    (removes_iff hcoherent).mpr ⟨e, he, rfl, hguard, hkey⟩
  intro hprotected
  rw [Removes, ← run_concat] at hremoves
  refine hremoves.2 (hprotected e.ticket (haccepted.append _) ?_ ?_)
  · refine ⟨⟨e.ticket, e.key⟩, ?_, rfl⟩
    rw [run_concat, mem_guards_apply]
    refine .inl ⟨hcoherent.guarded e he, fun heq ↦ hticket ?_⟩
    exact congrArg Guard.ticket (RegistryEvent.dropGuard.inj heq).symm
  · rw [happens_concat]
    rintro (hbefore | ⟨-, ⟨id, hevent⟩ | ⟨reason, hevent⟩⟩)
    · exact hkept (hbefore.mono fun _ _ hp ↦ hp.1)
    · cases hevent
    · cases hevent

/-! ### Fresh identities -/

/-- The identities that a run attempts to register. -/
def identities (events : List RegistryEvent) : List RunId :=
  events.filterMap fun
    | .register handle => some handle.id
    | _ => none

theorem guards_of_identities (events : List RegistryEvent) :
    (∀ guard ∈ (run events).guards, guard.id ∈ identities events) ∧
      ((identities events).Nodup → ((run events).guards.map Guard.id).Nodup) := by
  induction events using List.reverseRecOn with
  | nil => exact ⟨fun _ hg ↦ absurd hg List.not_mem_nil, fun _ ↦ List.nodup_nil⟩
  | append_singleton events event ih =>
    obtain ⟨hmem, hnodup⟩ := ih
    have happend : identities (events ++ [event]) = identities events ++ identities [event] :=
      List.filterMap_append
    rw [run_concat, happend]
    constructor
    · intro guard hguard
      rw [List.mem_append]
      rcases mem_guards_apply.mp hguard with ⟨hold, -⟩ | ⟨handle, rfl, hsome⟩
      · exact .inl (hmem guard hold)
      · rw [(register_eq_some_iff.mp hsome).2]
        exact .inr List.mem_cons_self
    · intro hfresh
      have hbefore := hnodup (List.nodup_append.mp hfresh).1
      cases event with
      | register handle =>
        cases hc : (run events).registry.contains handle.id with
        | true => simpa [apply, register_of_contains hc] using hbefore
        | false =>
          have hnew : ∀ guard ∈ (run events).guards, guard.id ≠ handle.id := fun guard hguard ↦
            (List.nodup_append.mp hfresh).2.2 _ (hmem guard hguard) _ List.mem_cons_self
          simp only [apply, register_of_not_contains hc, guards_setMailbox, List.map_cons]
          refine List.nodup_cons.mpr ⟨fun hmem' ↦ ?_, hbefore⟩
          obtain ⟨guard, hguard, hid⟩ := List.mem_map.mp hmem'
          exact hnew guard hguard hid
      | dropGuard guard =>
        rw [apply, guards_dropGuard]
        exact hbefore.sublist (List.filter_sublist.map _)
      | dropMailbox u => exact hbefore
      | deregister id => simpa [apply] using hbefore
      | terminateAll reason => simpa [apply] using hbefore

/-- If no identity is registered twice, no guard is stale when it is given up. -/
theorem not_staleDrop_of_nodup (h : (identities events).Nodup) : ¬ Happens StaleDrop events := by
  rintro ⟨before, event, after, rfl, guard, hguard, -, e, he, hkey, hticket⟩
  have hbefore : (identities before).Nodup := by
    rw [identities, List.filterMap_append] at h
    exact (List.nodup_append.mp h).1
  have hguards := (guards_of_identities before).2 hbefore
  have heq := List.inj_on_of_nodup_map hguards ((coherent_run before).guarded e he) hguard hkey
  exact hticket (congrArg Guard.ticket heq)

/-- All along a run the guards protect their registrations exactly when no guard is given up while
the entry of another registration stands under its identity. That never happens if no identity is
registered twice. -/
theorem guards_protect_iff (events : List RegistryEvent) :
    ((∀ start, start <+: events → Protected start) ↔ ¬ Happens StaleDrop events) ∧
    ((identities events).Nodup → ∀ start, start <+: events → Protected start) := by
  have hprotects : ¬ Happens StaleDrop events → ∀ start, start <+: events → Protected start := by
    rintro h start ⟨rest, rfl⟩
    exact protected_of_not_staleDrop fun hstale ↦ h (hstale.append rest)
  refine ⟨⟨fun hprotected ↦ ?_, hprotects⟩, fun hfresh ↦ hprotects (not_staleDrop_of_nodup hfresh)⟩
  rintro ⟨before, event, after, rfl, hstale⟩
  exact not_protected_of_staleDrop hstale (hprotected _ ⟨after, by simp⟩)

/-- A run is registered, removed by its identity and registered again, and then the guard of the
first registration is given up. -/
def secondGeneration : List RegistryEvent :=
  let handle : RunHandle := { id := ⟨"a"⟩, interpreter := "flex", script := "script.flex" }
  [.register handle, .deregister ⟨"a"⟩, .register handle, .dropGuard ⟨0, ⟨"a"⟩⟩]

/-- The second registration is lost, though its own guard is held and nobody removed it. -/
theorem secondGeneration_not_protected :
    ¬ Protected secondGeneration ∧ (run secondGeneration).guards = [⟨1, ⟨"a"⟩⟩] ∧
      (run secondGeneration).registry.entries = [] := by
  refine ⟨?_, by decide, by decide⟩
  have hstale : StaleDrop (run (secondGeneration.take 3)) (.dropGuard ⟨0, ⟨"a"⟩⟩) :=
    ⟨⟨0, ⟨"a"⟩⟩, by decide, rfl, ⟨⟨"a"⟩, ⟨⟨"a"⟩, none, "flex", "script.flex"⟩, 1⟩, by decide, rfl,
      by decide⟩
  exact not_protected_of_staleDrop hstale

end FlexGate.RegistryRoom
