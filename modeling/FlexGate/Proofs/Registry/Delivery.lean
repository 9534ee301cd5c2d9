import FlexGate.Proofs.Registry.Ownership

/-!
# What a run is told

Clearing the registry tells every run that is in it to end; the other ways to remove a run close its
mailbox in silence. While a mailbox is read, it says what has become of the attempt to register that
it belongs to (`Delivers`): nothing yet, if the run is registered; the reason, if it was removed
with all others; and that it is closed, if the attempt failed, as it does when its identity is taken
and only then (`refuses_iff_exists_register`), or the run was withdrawn. A new mailbox says so
(`Delivers.start`), an event that removes the run changes the mailbox as it should
(`Delivers.of_terminates`, `Delivers.of_withdraws`), and one that does not leaves it alone
(`Delivers.of_not_removes`); so a mailbox is right after every run of events (`delivers_run`).

All that was done to stop runs is kept in `stops`, and there it can be read that no run is told two
things (`messages_run`), though identities and the clearing of the registry may come again. A run
whose mailbox nobody reads is told nothing; if its process is known it is killed (`kills_apply`).
-/

set_option autoImplicit false
set_option relaxedAutoImplicit false

namespace FlexGate

/-- The reason that a mailbox holds. -/
def Mailbox.reason? : Mailbox → Option String
  | .told reason => some reason
  | _ => none

/-- What a stop told the run with a ticket. -/
def Stop.reasonFor? (t : Ticket) : Stop → Option String
  | .told u reason => if u = t then some reason else none
  | .killed _ _ => none

/-- The process that a stop killed, with the ticket of its run. -/
def Stop.kill? : Stop → Option (Ticket × Nat)
  | .told _ _ => none
  | .killed t pid => some (t, pid)

namespace RegistryRoom

variable {room : RegistryRoom} {events : List RegistryEvent} {event : RegistryEvent} {t : Ticket}

/-! ### Attempts -/

/-- An event is the attempt to register with a ticket. -/
def Attempts (t : Ticket) (room : RegistryRoom) (event : RegistryEvent) : Prop :=
  ∃ handle, event = .register handle ∧ room.next = t

theorem Refuses.attempts (h : Refuses t room event) : Attempts t room event := by
  obtain ⟨handle, hevent, hnext, -⟩ := h
  exact ⟨handle, hevent, hnext⟩

theorem Accepts.attempts (h : Accepts t room event) : Attempts t room event := by
  have hnext := eq_next_of_accepts h
  obtain ⟨handle, hevent, -⟩ := h
  exact ⟨handle, hevent, hnext.symm⟩

/-- An attempt succeeds if its identity is not in the registry. -/
theorem accepts_iff_exists_register : Accepts t room event ↔
    ∃ handle, event = .register handle ∧ room.next = t ∧
      room.registry.contains handle.id = false := by
  constructor
  · rintro ⟨handle, hevent, hsome⟩
    obtain ⟨hfree, hguard⟩ := register_eq_some_iff.mp hsome
    exact ⟨handle, hevent, (congrArg Guard.ticket hguard).symm, hfree⟩
  · rintro ⟨handle, hevent, rfl, hfree⟩
    exact ⟨handle, hevent, register_eq_some_iff.mpr ⟨hfree, rfl⟩⟩

/-- An attempt fails if its identity is in the registry. -/
theorem refuses_iff_exists_register : Refuses t room event ↔
    ∃ handle, event = .register handle ∧ room.next = t ∧
      room.registry.contains handle.id = true := by
  simp only [Refuses, register_eq_none_iff]

theorem accepts_register_iff {handle : RunHandle} :
    Accepts room.next room (.register handle) ↔ room.registry.contains handle.id = false := by
  simp [accepts_iff_exists_register]

theorem refuses_register_iff {handle : RunHandle} :
    Refuses room.next room (.register handle) ↔ room.registry.contains handle.id = true := by
  simp [refuses_iff_exists_register]

theorem happens_attempts_iff : Happens (Attempts t) events ↔ t < (run events).next := by
  induction events using List.reverseRecOn with
  | nil => exact ⟨fun h ↦ absurd h not_happens_nil, fun h ↦ absurd h (Nat.not_lt_zero t)⟩
  | append_singleton events event ih =>
    rw [happens_concat, ih, run_concat]
    constructor
    · rintro (h | ⟨handle, rfl, rfl⟩)
      · exact Nat.lt_of_lt_of_le h (next_le_apply event)
      · rw [apply, next_register]
        exact Nat.lt_succ_self _
    · intro h
      by_cases ht : t < (run events).next
      · exact .inl ht
      · obtain ⟨rfl, handle, rfl⟩ := exists_register_of_lt_next (Nat.not_lt.mp ht) h
        exact .inr ⟨handle, rfl, rfl⟩

/-! ### Ways to remove a run -/

/-- Clearing the registry for a reason removes the registration with a ticket. -/
def Terminates (reason : String) (t : Ticket) (room : RegistryRoom) (event : RegistryEvent) :
    Prop :=
  event = .terminateAll reason ∧ Removes t room event

/-- Giving up a guard, or taking a run out by its identity, removes the registration with a
ticket. -/
def Withdraws (t : Ticket) (room : RegistryRoom) (event : RegistryEvent) : Prop :=
  ((∃ guard, event = .dropGuard guard) ∨ ∃ id, event = .deregister id) ∧ Removes t room event

theorem mailbox_apply_of_removes (h : room.Coherent) (hremoves : Removes t room event) :
    (room.apply event).mailbox t = room.leaves t event := by
  rw [mailbox_apply h event (h.lt_next_of_registered hremoves.1),
    if_pos ((removes_iff h).mp hremoves)]

theorem mailbox_apply_of_not_removes (h : room.Coherent) (ht : t < room.next)
    (hkept : ¬ Removes t room event) : (room.apply event).mailbox t = room.mailbox t := by
  rw [mailbox_apply h event ht, if_neg fun htakes ↦ hkept ((removes_iff h).mpr htakes)]

theorem removes_terminateAll (h : room.Coherent) (reason : String) (ht : room.Registered t) :
    Removes t room (.terminateAll reason) := by
  obtain ⟨e, he, rfl⟩ := ht
  have htakes : room.Takes (.terminateAll reason) e := trivial
  exact (removes_iff h).mpr ⟨e, he, rfl, htakes⟩

/-- An event that removes a run does so with all others, or withdraws the run. -/
theorem terminates_or_withdraws_of_removes (h : Removes t room event) (hcoherent : room.Coherent) :
    (∃ reason, Terminates reason t room event) ∨ Withdraws t room event := by
  obtain ⟨e, -, rfl, htakes⟩ := (removes_iff hcoherent).mp h
  cases event with
  | register handle => exact absurd htakes id
  | dropGuard guard => exact .inr ⟨.inl ⟨guard, rfl⟩, h⟩
  | dropMailbox u => exact absurd htakes id
  | deregister id => exact .inr ⟨.inr ⟨id, rfl⟩, h⟩
  | terminateAll reason => exact .inl ⟨reason, rfl, h⟩

/-- What was removed had been accepted. -/
theorem happens_accepts_of_removes (h : Happens (Removes t) events) :
    Happens (Accepts t) events := by
  obtain ⟨before, event, after, rfl, hremoves⟩ := h
  exact (registered_run_iff.mp hremoves.1).1.append (event :: after)

/-! ### What was said to a run -/

/-- What a run was told to end it, the earliest first. -/
def messages (room : RegistryRoom) (t : Ticket) : List String :=
  room.stops.filterMap (Stop.reasonFor? t)

/-- The processes that were killed with their groups, the earliest first, and the tickets of their
runs. -/
def kills (room : RegistryRoom) : List (Ticket × Nat) := room.stops.filterMap Stop.kill?

/-- The processes that an event kills: those that are known of the entries that it removes with all
others and whose mailboxes nobody reads. -/
def killsOf (room : RegistryRoom) : RegistryEvent → List (Ticket × Nat)
  | .terminateAll _ =>
    (room.registry.entries.filter fun e ↦ e.ticket ∈ room.unread).filterMap fun e ↦
      e.handle.pid.map (e.ticket, ·)
  | _ => []

theorem kills_apply (h : room.Coherent) (event : RegistryEvent) :
    (room.apply event).kills = room.kills ++ room.killsOf event := by
  rw [kills, stops_apply h, List.filterMap_append]
  cases event with
  | terminateAll reason =>
    simp only [stopsOf, killsOf, List.filterMap_filterMap, List.filterMap_filter]
    congr 1
    refine List.filterMap_congr fun e _ ↦ ?_
    by_cases hread : e.ticket ∈ room.unread
    · cases hpid : e.handle.pid <;> simp [stopOf, hread, hpid, Stop.kill?]
    · simp [stopOf, hread, Stop.kill?]
  | _ => rfl

theorem messages_apply_of_not_terminateAll (h : room.Coherent)
    (hevent : ∀ reason, event ≠ .terminateAll reason) :
    (room.apply event).messages t = room.messages t := by
  have hnone : room.stopsOf event = [] := by
    cases event with
    | terminateAll reason => exact absurd rfl (hevent reason)
    | _ => rfl
  rw [messages, stops_apply h, hnone, List.append_nil, messages]

/-- The reason is said once for each entry of the run, if somebody listens. -/
theorem messages_terminateAll (h : room.Coherent) (reason : String) (t : Ticket) :
    (room.apply (.terminateAll reason)).messages t = room.messages t ++
      (room.registry.entries.filter fun e ↦ e.ticket = t ∧ t ∉ room.unread).map
        fun _ ↦ reason := by
  rw [messages, stops_apply h, List.filterMap_append, stopsOf, List.filterMap_filterMap, messages,
    ← List.filterMap_eq_map, List.filterMap_filter]
  congr 1
  refine List.filterMap_congr fun e _ ↦ ?_
  by_cases hread : e.ticket ∈ room.unread
  · have hsilent : ¬ (e.ticket = t ∧ t ∉ room.unread) := fun hand ↦ hand.2 (hand.1 ▸ hread)
    cases hpid : e.handle.pid <;> simp [stopOf, hread, hpid, Stop.reasonFor?, hsilent]
  · by_cases hticket : e.ticket = t
    · subst hticket
      simp [stopOf, hread, Stop.reasonFor?]
    · simp [stopOf, hread, Stop.reasonFor?, hticket]

theorem messages_terminateAll_of_silent (h : room.Coherent) (reason : String)
    (hsilent : ¬ (room.Registered t ∧ t ∉ room.unread)) :
    (room.apply (.terminateAll reason)).messages t = room.messages t := by
  have hnone : (room.registry.entries.filter fun e ↦ e.ticket = t ∧ t ∉ room.unread) = [] := by
    refine List.filter_eq_nil_iff.mpr fun e he hp ↦ hsilent ?_
    obtain ⟨hticket, hread⟩ := of_decide_eq_true hp
    exact ⟨⟨e, he, hticket⟩, hread⟩
  rw [messages_terminateAll h, hnone, List.map_nil, List.append_nil]

theorem messages_terminateAll_of_registered (h : room.Coherent) (reason : String)
    (ht : room.Registered t) (hread : t ∉ room.unread) :
    (room.apply (.terminateAll reason)).messages t = room.messages t ++ [reason] := by
  obtain ⟨e, he, rfl⟩ := ht
  have hone : (room.registry.entries.filter fun f ↦
      f.ticket = e.ticket ∧ e.ticket ∉ room.unread) = [e] := by
    have hsame : ∀ f ∈ room.registry.entries,
        decide (f.ticket = e.ticket ∧ e.ticket ∉ room.unread) = (f == e) := by
      intro f hf
      have hiff : f.ticket = e.ticket ↔ f = e :=
        ⟨fun hticket ↦ h.eq_of_ticket_eq hf he hticket, fun hfe ↦ hfe ▸ rfl⟩
      simp [hread, hiff, beq_eq_decide]
    rw [List.filter_congr hsame, List.filter_beq, List.count_eq_one_of_mem h.keys_nodup.of_map he,
      List.replicate_one]
  rw [messages_terminateAll h, hone, List.map_singleton]

/-- As long as a run is registered it has not been told anything, and it is told one thing at
most. -/
theorem messages_run (events : List RegistryEvent) (t : Ticket) :
    (run events).messages t = [] ∨
      (t < (run events).next ∧ ¬ (run events).Registered t ∧
        ∃ reason, (run events).messages t = [reason]) := by
  induction events using List.reverseRecOn with
  | nil => exact .inl rfl
  | append_singleton events event ih =>
    have hcoherent := coherent_run events
    rw [run_concat]
    by_cases hevent : ∃ reason, event = .terminateAll reason ∧
        (run events).Registered t ∧ t ∉ (run events).unread
    · obtain ⟨reason, rfl, hregistered, hread⟩ := hevent
      have hempty : (run events).messages t = [] := by
        rcases ih with hempty | ⟨-, hnot, -⟩
        · exact hempty
        · exact absurd hregistered hnot
      have hlt := hcoherent.lt_next_of_registered hregistered
      have hgone : ¬ ((run events).apply (.terminateAll reason)).Registered t :=
        (removes_terminateAll hcoherent reason hregistered).2
      refine .inr ⟨Nat.lt_of_lt_of_le hlt (next_le_apply _), hgone, reason, ?_⟩
      rw [messages_terminateAll_of_registered hcoherent reason hregistered hread, hempty,
        List.nil_append]
    · have hsame : ((run events).apply event).messages t = (run events).messages t := by
        by_cases hclears : ∃ reason, event = .terminateAll reason
        · obtain ⟨reason, rfl⟩ := hclears
          exact messages_terminateAll_of_silent hcoherent reason
            fun hheard ↦ hevent ⟨reason, rfl, hheard⟩
        · exact messages_apply_of_not_terminateAll hcoherent fun reason h ↦ hclears ⟨reason, h⟩
      rw [hsame]
      rcases ih with hempty | ⟨hlt, hnot, hone⟩
      · exact .inl hempty
      · refine .inr ⟨Nat.lt_of_lt_of_le hlt (next_le_apply _), fun h ↦ ?_, hone⟩
        rcases (registered_apply hcoherent).mp h with ⟨hold, -⟩ | haccepts
        · exact hnot hold
        · exact Nat.ne_of_lt hlt (eq_next_of_accepts haccepts)

/-! ### What a mailbox says -/

/-- The mailbox of an attempt says what has become of it, and holds all that the run was told. -/
structure Delivers (events : List RegistryEvent) (t : Ticket) : Prop where
  empty_iff : (run events).mailbox t = .empty ↔ (run events).Registered t
  told_iff : ∀ reason, (run events).mailbox t = .told reason ↔
    Happens (Terminates reason t) events
  closed_iff : (run events).mailbox t = .closed ↔
    Happens (Refuses t) events ∨ Happens (Withdraws t) events
  messages_eq : (run events).messages t = ((run events).mailbox t).reason?.toList

/-- Nothing has happened yet to a run that is registered. -/
theorem Delivers.of_registered (h : Delivers events t) (ht : (run events).Registered t) :
    (run events).messages t = [] ∧ (∀ reason, ¬ Happens (Terminates reason t) events) ∧
      ¬ Happens (Refuses t) events ∧ ¬ Happens (Withdraws t) events := by
  have hempty := h.empty_iff.mpr ht
  refine ⟨by rw [h.messages_eq, hempty]; rfl, fun reason hterminated ↦ ?_,
    fun hrefused ↦ ?_, fun hwithdrawn ↦ ?_⟩
  · have htold := (h.told_iff reason).mpr hterminated
    rw [hempty] at htold
    cases htold
  · have hclosed := h.closed_iff.mpr (.inl hrefused)
    rw [hempty] at hclosed
    cases hclosed
  · have hclosed := h.closed_iff.mpr (.inr hwithdrawn)
    rw [hempty] at hclosed
    cases hclosed

theorem Delivers.of_terminates {reason : String} (h : Delivers events t)
    (hterminates : Terminates reason t (run events) event) (hread : t ∉ (run events).unread) :
    Delivers (events ++ [event]) t := by
  have hcoherent := coherent_run events
  obtain ⟨rfl, hremoves⟩ := hterminates
  obtain ⟨hmessages, hterminated, hrefused, hwithdrawn⟩ := h.of_registered hremoves.1
  have hmailbox : (run (events ++ [.terminateAll reason])).mailbox t = .told reason := by
    rw [run_concat, mailbox_apply_of_removes hcoherent hremoves, leaves, if_neg hread]
  refine ⟨?_, fun other ↦ ?_, ?_, ?_⟩
  · rw [hmailbox, run_concat]
    exact iff_of_false (by simp) hremoves.2
  · rw [hmailbox, happens_concat, or_iff_right (hterminated other)]
    constructor
    · rintro ⟨⟩
      exact ⟨rfl, hremoves⟩
    · rintro ⟨⟨⟩, -⟩
      rfl
  · rw [hmailbox, happens_concat, happens_concat, or_iff_right hrefused, or_iff_right hwithdrawn]
    refine iff_of_false (by simp) ?_
    rintro (⟨handle, ⟨⟩, -⟩ | ⟨⟨guard, ⟨⟩⟩ | ⟨id, ⟨⟩⟩, -⟩)
  · rw [hmailbox, run_concat,
      messages_terminateAll_of_registered hcoherent reason hremoves.1 hread, hmessages]
    rfl

theorem Delivers.of_withdraws (h : Delivers events t)
    (hwithdraws : Withdraws t (run events) event) : Delivers (events ++ [event]) t := by
  have hcoherent := coherent_run events
  obtain ⟨hmessages, hterminated, -, -⟩ := h.of_registered hwithdraws.2.1
  have hclears : ∀ reason, event ≠ .terminateAll reason := by
    rintro reason rfl
    obtain ⟨⟨guard, ⟨⟩⟩ | ⟨id, ⟨⟩⟩, -⟩ := hwithdraws
  have hmailbox : (run (events ++ [event])).mailbox t = .closed := by
    rw [run_concat, mailbox_apply_of_removes hcoherent hwithdraws.2]
    obtain ⟨⟨guard, rfl⟩ | ⟨id, rfl⟩, -⟩ := hwithdraws <;> rfl
  refine ⟨?_, fun reason ↦ ?_, ?_, ?_⟩
  · rw [hmailbox, run_concat]
    exact iff_of_false (by simp) hwithdraws.2.2
  · rw [hmailbox, happens_concat, or_iff_right (hterminated reason)]
    exact iff_of_false (by simp) fun hterminates ↦ hclears reason hterminates.1
  · rw [hmailbox]
    exact iff_of_true rfl (.inr (happens_concat.mpr (.inr hwithdraws)))
  · rw [hmailbox, run_concat, messages_apply_of_not_terminateAll hcoherent hclears, hmessages]
    rfl

/-- Nothing changes for an attempt that was made before if the event does not remove its entry. -/
theorem Delivers.of_not_removes (h : Delivers events t) (ht : t < (run events).next)
    (hkept : ¬ Removes t (run events) event) : Delivers (events ++ [event]) t := by
  have hcoherent := coherent_run events
  have hmailbox : (run (events ++ [event])).mailbox t = (run events).mailbox t :=
    run_concat events event ▸ mailbox_apply_of_not_removes hcoherent ht hkept
  have hnew : t ≠ (run events).next := Nat.ne_of_lt ht
  have hmessages : (run (events ++ [event])).messages t = (run events).messages t := by
    rw [run_concat]
    by_cases hclears : ∃ reason, event = .terminateAll reason
    · obtain ⟨reason, rfl⟩ := hclears
      refine messages_terminateAll_of_silent hcoherent reason fun hheard ↦ hkept ?_
      exact removes_terminateAll hcoherent reason hheard.1
    · exact messages_apply_of_not_terminateAll hcoherent fun reason h ↦ hclears ⟨reason, h⟩
  refine ⟨?_, fun reason ↦ ?_, ?_, ?_⟩
  · rw [hmailbox, h.empty_iff, run_concat, registered_apply hcoherent,
      or_iff_left fun haccepts ↦ hnew (eq_next_of_accepts haccepts), and_iff_left hkept]
  · rw [hmailbox, h.told_iff, happens_concat, or_iff_left fun hterminates ↦ hkept hterminates.2]
  · have hrefuses : ¬ Refuses t (run events) event := by
      rintro ⟨-, -, hnext, -⟩
      exact hnew hnext.symm
    have hwithdraws : ¬ Withdraws t (run events) event := fun h ↦ hkept h.2
    rw [hmailbox, h.closed_iff, happens_concat, happens_concat, or_iff_left hrefuses,
      or_iff_left hwithdraws]
  · rw [hmailbox, hmessages, h.messages_eq]

/-- The mailbox of a new attempt is empty if the attempt succeeds, and closed if it fails. -/
theorem Delivers.start (handle : RunHandle) :
    Delivers (events ++ [.register handle]) (run events).next := by
  have hcoherent := coherent_run events
  have hnew : ¬ (run events).next < (run events).next := Nat.lt_irrefl _
  have hremoved : ¬ Happens (Removes (run events).next) (events ++ [.register handle]) := by
    rw [happens_concat]
    rintro (h | h)
    · exact hnew (lt_next_of_happens_removes h)
    · exact hnew (hcoherent.lt_next_of_registered h.1)
  have haccepted : ¬ Happens (Accepts (run events).next) events := fun h ↦
    hnew (happens_attempts_iff.mp (h.mono fun _ _ haccepts ↦ haccepts.attempts))
  have hrefused : ¬ Happens (Refuses (run events).next) events := fun h ↦
    hnew (happens_attempts_iff.mp (h.mono fun _ _ hrefuses ↦ hrefuses.attempts))
  have hwithdrawn : ¬ Happens (Withdraws (run events).next) (events ++ [.register handle]) :=
    fun h ↦ hremoved (h.mono fun _ _ hwithdraws ↦ hwithdraws.2)
  have hmailbox : (run (events ++ [.register handle])).mailbox (run events).next =
      if (run events).registry.contains handle.id then .closed else .empty := by
    rw [run_concat, apply, mailbox_register, if_pos rfl]
  refine ⟨?_, fun reason ↦ ?_, ?_, ?_⟩
  · rw [hmailbox, registered_run_iff, and_iff_left hremoved, happens_concat,
      or_iff_right haccepted, accepts_register_iff]
    split <;> simp [*]
  · rw [hmailbox]
    refine iff_of_false (by split <;> simp) fun h ↦ ?_
    exact hremoved (h.mono fun _ _ hterminates ↦ hterminates.2)
  · rw [hmailbox, or_iff_left hwithdrawn, happens_concat, or_iff_right hrefused,
      refuses_register_iff]
    split <;> simp [*]
  · have hmessages := (messages_run events (run events).next).resolve_right fun h ↦ hnew h.1
    have hsilent : ∀ reason, RegistryEvent.register handle ≠ .terminateAll reason := by
      rintro reason ⟨⟩
    rw [hmailbox, run_concat, messages_apply_of_not_terminateAll hcoherent hsilent, hmessages]
    split <;> rfl

theorem delivers_run (ht : t < (run events).next) (hread : t ∉ (run events).unread) :
    Delivers events t := by
  induction events using List.reverseRecOn with
  | nil => exact absurd ht (Nat.not_lt_zero t)
  | append_singleton events event ih =>
    rw [run_concat] at ht hread
    have hread' : t ∉ (run events).unread := fun hmem ↦ hread (unread_subset_apply event hmem)
    by_cases hold : t < (run events).next
    · by_cases hremoves : Removes t (run events) event
      · rcases terminates_or_withdraws_of_removes hremoves (coherent_run events) with
          ⟨reason, hterminates⟩ | hwithdraws
        · exact (ih hold hread').of_terminates hterminates hread'
        · exact (ih hold hread').of_withdraws hwithdraws
      · exact (ih hold hread').of_not_removes hold hremoves
    · obtain ⟨rfl, handle, rfl⟩ := exists_register_of_lt_next (Nat.not_lt.mp hold) ht
      exact .start handle

/-- While the mailbox of an attempt is read, it is empty if the attempt succeeded and the run has
not been removed, it holds the reason if the run was removed with all others, and it is closed if
the attempt failed or the run was withdrawn; what it holds is all that the run was ever told. No run
is told two things. Clearing the registry kills the processes of the runs that cannot be told, where
they are known, and nothing else kills any. An attempt succeeds just when its identity is not in the
registry, and fails just when it is. -/
theorem termination_delivered (events : List RegistryEvent) :
    let room := run events
    (∀ t, Happens (Attempts t) events → t ∉ room.unread →
      (room.mailbox t = .empty ↔
        Happens (Accepts t) events ∧ ¬ Happens (Removes t) events) ∧
      (∀ reason, room.mailbox t = .told reason ↔
        Happens (Accepts t) events ∧ Happens (Terminates reason t) events) ∧
      (room.mailbox t = .closed ↔
        Happens (Refuses t) events ∨
          (Happens (Accepts t) events ∧ Happens (Withdraws t) events)) ∧
      room.messages t = (room.mailbox t).reason?.toList) ∧
    (∀ t, (room.messages t).length ≤ 1) ∧
    (∀ event, (room.apply event).kills = room.kills ++ room.killsOf event) ∧
    ∀ t before event,
      (Accepts t before event ↔ ∃ handle, event = .register handle ∧ before.next = t ∧
        before.registry.contains handle.id = false) ∧
      (Refuses t before event ↔ ∃ handle, event = .register handle ∧ before.next = t ∧
        before.registry.contains handle.id = true) := by
  refine ⟨fun t hattempts hread ↦ ?_, fun t ↦ ?_, kills_apply (coherent_run events),
    fun t before event ↦ ⟨accepts_iff_exists_register, refuses_iff_exists_register⟩⟩
  · have hdelivers := delivers_run (happens_attempts_iff.mp hattempts) hread
    refine ⟨?_, fun reason ↦ ?_, ?_, hdelivers.messages_eq⟩
    · rw [hdelivers.empty_iff, registered_run_iff]
    · rw [hdelivers.told_iff, iff_and_self]
      exact fun h ↦ happens_accepts_of_removes (h.mono fun _ _ hterminates ↦ hterminates.2)
    · have haccepted : Happens (Withdraws t) events → Happens (Accepts t) events := fun h ↦
        happens_accepts_of_removes (h.mono fun _ _ hwithdraws ↦ hwithdraws.2)
      rw [hdelivers.closed_iff, and_iff_right_of_imp haccepted]
  · rcases messages_run events t with hnone | ⟨-, -, reason, hone⟩
    · simp [hnone]
    · simp [hone]

end RegistryRoom

end FlexGate
