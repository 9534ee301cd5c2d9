import FlexGate.Proofs.Source.Effects
import Mathlib.Data.List.Infix

/-!
# The files of sources that come and go

A run starts from any tree of files, with no source in use. If no two sources in use are ever in the
same file (`Apart`), then the file of a source that was written holds just what was written until
the source is given up (`Wrote.mem_held`). Where a temporary source was given up there is no file,
unless a later one was written there that is kept or was not given up (`Wrote.replaced`).

Sources are in different files if their paths are different, in normal form, and all absolute or all
relative (`apart_of_paths_nodup`).
-/

set_option autoImplicit false
set_option relaxedAutoImplicit false

namespace FlexGate.SourceRoom

variable {event : SourceEvent}

/-! ### Runs -/

/-- The room that some events lead to from a tree of files with no source in use. -/
def run (files : FileTree) (events : List SourceEvent) : SourceRoom := events.foldl apply { files }

variable {files : FileTree} {events : List SourceEvent} {plan : SourcePlan} {text : String}
  {ticket : Nat}

@[simp] theorem run_concat (files : FileTree) (events : List SourceEvent) (event : SourceEvent) :
    run files (events ++ [event]) = (run files events).apply event := by
  unfold run
  rw [List.foldl_append]
  rfl

theorem sound_run (files : FileTree) (events : List SourceEvent) : (run files events).Sound := by
  induction events using List.reverseRecOn with
  | nil => exact .start files
  | append_singleton events event ih =>
    rw [run_concat]
    exact ih.of_effect (ih.effect event)

/-- At some moment of a run, an event and the room in which it happened were as described. -/
def Happens (p : SourceRoom → SourceEvent → Prop) (files : FileTree) (events : List SourceEvent) :
    Prop :=
  ∃ before event, before ++ [event] <+: events ∧ p (run files before) event

section Happens

variable {p : SourceRoom → SourceEvent → Prop}

theorem not_happens_nil : ¬ Happens p files [] := by
  rintro ⟨before, event, hinitial, -⟩
  simp at hinitial

theorem happens_concat :
    Happens p files (events ++ [event]) ↔ Happens p files events ∨ p (run files events) event := by
  constructor
  · rintro ⟨before, other, hinitial, hp⟩
    rcases List.prefix_concat_iff.mp hinitial with heq | hinitial
    · obtain ⟨rfl, hevent⟩ := List.append_inj' heq rfl
      obtain rfl : other = event := by simpa using hevent
      exact .inr hp
    · exact .inl ⟨before, other, hinitial, hp⟩
  · rintro (⟨before, other, hinitial, hp⟩ | hp)
    · exact ⟨before, other, hinitial.trans (List.prefix_append events [event]), hp⟩
    · exact ⟨events, event, List.prefix_rfl, hp⟩

end Happens

/-- In a run, a source was written and given a ticket. -/
def Wrote (files : FileTree) (events : List SourceEvent) (ticket : Nat) (plan : SourcePlan)
    (text : String) : Prop :=
  Happens (fun room event ↦ event = .write plan text ∧ (room.write plan text).2 = .ok ticket)
    files events

/-- In a run, a source was cleaned up or dropped after it had been given its ticket. -/
def GaveUp (files : FileTree) (events : List SourceEvent) (ticket : Nat) : Prop :=
  Happens (fun room event ↦ ticket < room.next ∧ event.GivesUp ticket) files events

/-- At each moment of a run, the paths of the sources in use are those of different files. -/
def Apart (files : FileTree) (events : List SourceEvent) : Prop :=
  ∀ before, before <+: events → (run files before).places.Nodup

theorem Apart.of_concat (h : Apart files (events ++ [event])) : Apart files events :=
  fun before hinitial ↦ h before (hinitial.trans (List.prefix_append events [event]))

theorem Apart.places_nodup (h : Apart files events) : (run files events).places.Nodup :=
  h events List.prefix_rfl

/-- Sources whose paths differ are in different files, if the paths are in normal form and of one
kind. -/
theorem apart_of_paths_nodup (absolute : Bool)
    (h : ∀ before, before <+: events →
      ((run files before).held.map fun held ↦ held.source.path).Nodup ∧
        ∀ held ∈ (run files before).held, FileTree.IsNormal held.source.path ∧
          held.source.path.isAbsolute = absolute) : Apart files events := by
  intro before hinitial
  obtain ⟨hnodup, hnormal⟩ := h before hinitial
  refine List.pairwise_filterMap.mpr ((List.pairwise_map.mp hnodup).imp_of_mem ?_)
  rintro a b ha hb hne q hplace _ hplace' rfl
  obtain ⟨hnormalA, habsoluteA⟩ := hnormal a ha
  obtain ⟨hnormalB, habsoluteB⟩ := hnormal b hb
  exact hne (hnormalA.eq_of_place? hnormalB (habsoluteA.trans habsoluteB.symm) hplace hplace')

theorem GaveUp.lt_next (h : GaveUp files events ticket) : ticket < (run files events).next := by
  induction events using List.reverseRecOn with
  | nil => exact absurd h not_happens_nil
  | append_singleton events event ih =>
    rw [run_concat]
    have hle := ((sound_run files events).effect event).next_le
    rcases happens_concat.mp h with h | ⟨hlt, -⟩
    · exact (ih h).trans_le hle
    · exact hlt.trans_le hle

/-- A source is not given up by the event that it is given its ticket in. -/
theorem not_gaveUp_next : ¬ GaveUp files (events ++ [event]) (run files events).next := by
  intro h
  rcases happens_concat.mp h with h | ⟨hlt, -⟩
  · exact Nat.lt_irrefl _ (GaveUp.lt_next h)
  · exact Nat.lt_irrefl _ hlt

/-- The ticket of a source that was written is one that was given out, and its path leads to a
place. -/
theorem Wrote.lt_next_and_place? (h : Wrote files events ticket plan text) :
    ticket < (run files events).next ∧
      ∃ q, (run files events).files.place? plan.path = some q := by
  induction events using List.reverseRecOn with
  | nil => exact absurd h not_happens_nil
  | append_singleton events event ih =>
    rw [run_concat]
    have heffect := (sound_run files events).effect event
    rcases happens_concat.mp h with h | ⟨rfl, hwrite⟩
    · obtain ⟨hlt, q, hq⟩ := ih h
      exact ⟨hlt.trans_le heffect.next_le, q, heffect.leaves.place?_eq_some hq⟩
    · obtain ⟨rfl, written, hwritten⟩ := write_eq_ok_iff.mp hwrite
      rw [apply_write_of_ok hwritten]
      obtain ⟨q, hq, -⟩ := FileTree.leaves_of_writeText hwritten
      exact ⟨Nat.lt_succ_self _, q, hq⟩

/-- A source that was written is in use until it is given up. -/
theorem Wrote.inUse_iff (h : Wrote files events ticket plan text) :
    (run files events).InUse ticket ↔ ¬ GaveUp files events ticket := by
  induction events using List.reverseRecOn with
  | nil => exact absurd h not_happens_nil
  | append_singleton events event ih =>
    rcases happens_concat.mp h with h | ⟨rfl, hwrite⟩
    · have hlt := (Wrote.lt_next_and_place? h).1
      have hgaveUp : GaveUp files (events ++ [event]) ticket ↔
          GaveUp files events ticket ∨ ticket < (run files events).next ∧ event.GivesUp ticket :=
        happens_concat
      rw [run_concat, ((sound_run files events).effect event).inUse_iff hlt, ih h, hgaveUp, not_or,
        and_iff_right hlt]
    · obtain ⟨rfl, written, hwritten⟩ := write_eq_ok_iff.mp hwrite
      rw [run_concat, apply_write_of_ok hwritten]
      exact iff_of_true ⟨_, List.mem_cons_self, rfl⟩ not_gaveUp_next

/-- A source in use is the one that was written under its ticket, and its file holds just what was
written. -/
theorem Wrote.of_mem_held (h : Wrote files events ticket plan text) (hapart : Apart files events)
    {held : HeldSource} (hheld : held ∈ (run files events).held) (hticket : held.ticket = ticket) :
    held.source = ⟨plan.path, plan.temporary⟩ ∧
      (run files events).files.readBytes plan.path = .ok (Text.Utf8.encoded text) := by
  induction events using List.reverseRecOn with
  | nil => exact absurd h not_happens_nil
  | append_singleton events event ih =>
    have hsound := sound_run files events
    have heffect := hsound.effect event
    have hnodup := hapart.places_nodup
    rw [run_concat] at hheld hnodup ⊢
    rcases happens_concat.mp h with h | ⟨rfl, hwrite⟩
    · have hlt : held.ticket < (run files events).next := hticket ▸ (Wrote.lt_next_and_place? h).1
      have hbefore := (heffect.mem_or_eq_next hheld).resolve_right hlt.ne
      obtain ⟨hsource, hread⟩ := ih h hapart.of_concat hbefore
      have hpath : plan.path = held.source.path := by rw [hsource]
      refine ⟨hsource, ?_⟩
      rw [hpath] at hread ⊢
      exact heffect.readBytes_of_mem hapart.of_concat.places_nodup hnodup hbefore hheld hlt hread
    · obtain ⟨rfl, written, hwritten⟩ := write_eq_ok_iff.mp hwrite
      rw [apply_write_of_ok hwritten] at hheld ⊢
      refine ⟨?_, FileTree.readBytes_of_writeText hwritten⟩
      rcases List.mem_cons.mp hheld with rfl | hheld
      · rfl
      · exact absurd hticket (hsound.ticket_lt held hheld).ne

/-- A source that was written is as it was planned, and holds what was written, until it is given
up. -/
theorem Wrote.mem_held (h : Wrote files events ticket plan text) (hapart : Apart files events)
    (hstays : ¬ GaveUp files events ticket) :
    ⟨ticket, ⟨plan.path, plan.temporary⟩, false⟩ ∈ (run files events).held ∧
      (run files events).files.readBytes plan.path = .ok (Text.Utf8.encoded text) := by
  obtain ⟨held, hheld, rfl⟩ := h.inUse_iff.mpr hstays
  obtain ⟨hsource, hread⟩ := h.of_mem_held hapart hheld rfl
  have hcleaned := (sound_run files events).not_cleaned held hheld
  rw [← hsource, ← hcleaned]
  exact ⟨hheld, hread⟩

/-- After the source with a ticket, another was written to the place that a path leads to. -/
def WroteLater (files : FileTree) (events : List SourceEvent) (ticket : Nat) (path : Path)
    (later : Nat) (plan : SourcePlan) : Prop :=
  ticket < later ∧ (∃ text, Wrote files events later plan text) ∧
    ∃ q, (run files events).files.place? plan.path = some q ∧
      (run files events).files.place? path = some q

/-- Where a temporary source that was given up has been, a file is one that was written later. -/
theorem Wrote.exists_wroteLater (h : Wrote files events ticket plan text)
    (hapart : Apart files events) (htemporary : plan.temporary = true)
    (hgone : GaveUp files events ticket) {bytes : List UInt8}
    (hread : (run files events).files.readBytes plan.path = .ok bytes) :
    ∃ later plan', WroteLater files events ticket plan.path later plan' := by
  induction events using List.reverseRecOn with
  | nil => exact absurd h not_happens_nil
  | append_singleton events event ih =>
    have hsound := sound_run files events
    have heffect := hsound.effect event
    unfold WroteLater
    rw [run_concat] at hread ⊢
    rcases happens_concat.mp h with h | ⟨rfl, hwrite⟩
    · obtain ⟨hlt, q, hplace⟩ := Wrote.lt_next_and_place? h
      have hplace' := heffect.leaves.place?_eq_some hplace
      obtain ⟨executable, hget⟩ := (FileTree.readBytes_eq_ok_iff_get? hplace').mp hread
      rcases heffect.get?_eq_file hget with hget' | ⟨later, text', rfl, hlater, hwrite⟩
      · have hgone' : GaveUp files events ticket := by
          by_contra hstays
          -- Otherwise the event gave up the source, and took the file away.
          obtain ⟨hheld, -⟩ := Wrote.mem_held h hapart.of_concat hstays
          have hevent := ((happens_concat.mp hgone).resolve_left hstays).2
          rw [hsound.files_of_givesUp hheld hevent] at hget
          exact MaterializedSource.get?_cleanup_ne htemporary hplace bytes executable hget
        have hread' := (FileTree.readBytes_eq_ok_iff_get? hplace).mpr ⟨executable, hget'⟩
        obtain ⟨later, plan', hlater, ⟨text', hwrote⟩, place, hsame, hsame'⟩ :=
          ih h hapart.of_concat hgone' hread'
        exact ⟨later, plan', hlater, ⟨text', happens_concat.mpr (.inl hwrote)⟩, place,
          heffect.leaves.place?_eq_some hsame, heffect.leaves.place?_eq_some hsame'⟩
      · have hwrote : Wrote files (events ++ [.write later text']) (run files events).next later
            text' :=
          happens_concat.mpr (.inr ⟨rfl, write_eq_ok_iff.mpr ⟨rfl, hwrite⟩⟩)
        exact ⟨_, later, hlt, ⟨text', hwrote⟩, q, hlater, hplace'⟩
    · obtain ⟨rfl, -⟩ := write_eq_ok_iff.mp hwrite
      exact absurd hgone not_gaveUp_next

/-- The place of a source is taken by a later one, which is kept or was not given up. -/
def Replaced (files : FileTree) (events : List SourceEvent) (ticket : Nat) (path : Path) : Prop :=
  ∃ later plan, WroteLater files events ticket path later plan ∧
    (plan.temporary = false ∨ ¬ GaveUp files events later)

/-- Where a temporary source that was given up has been, there is no file, unless the source was
replaced. -/
theorem Wrote.replaced (h : Wrote files events ticket plan text) (hapart : Apart files events)
    (htemporary : plan.temporary = true) (hgone : GaveUp files events ticket) {bytes : List UInt8}
    (hread : (run files events).files.readBytes plan.path = .ok bytes) :
    Replaced files events ticket plan.path := by
  -- The last source that was written there cannot be a temporary one that was given up.
  induction hn : (run files events).next - ticket using Nat.strong_induction_on
    generalizing ticket plan text with
  | _ n ih =>
    obtain ⟨later, plan', hwroteLater⟩ := h.exists_wroteLater hapart htemporary hgone hread
    obtain ⟨hlt, ⟨text', hwrote⟩, q, hplace', hplace⟩ := hwroteLater
    by_cases hstays : plan'.temporary = false ∨ ¬ GaveUp files events later
    · exact ⟨later, plan', ⟨hlt, ⟨text', hwrote⟩, q, hplace', hplace⟩, hstays⟩
    · obtain ⟨htemporary', hgone'⟩ := not_or.mp hstays
      have hread' : (run files events).files.readBytes plan'.path = .ok bytes := by
        rw [FileTree.readBytes_eq_ok_iff_get? hplace']
        exact (FileTree.readBytes_eq_ok_iff_get? hplace).mp hread
      have hbound := h.lt_next_and_place?.1
      obtain ⟨last, plan'', ⟨hlast, htext, place, hsame'', hsame⟩, hstays''⟩ :=
        ih _ (by omega) hwrote (by simpa using htemporary') (not_not.mp hgone') hread' rfl
      obtain rfl : q = place := Option.some.inj (hplace'.symm.trans hsame)
      exact ⟨last, plan'', ⟨hlt.trans hlast, htext, q, hsame'', hplace⟩, hstays''⟩

/-- A source in the temporary directory, a file that was there, and a source that is kept. -/
def threeSources : List SourceEvent :=
  [.write ⟨"temp/a.flex".toList, true⟩ "etb3(1)", .existing "notes".toList,
    .write ⟨"out/b.flex".toList, false⟩ "sa7"]

end FlexGate.SourceRoom
