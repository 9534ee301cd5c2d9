import FlexGate.Proofs.FileTree.Frames
import FlexGate.Source.Room
import Mathlib.Data.List.Nodup
import Mathlib.Data.List.Pairwise

/-!
# What is done with sources

There are two ways to give up a source, and both come to cleaning it up, since none that is in use
was cleaned up before (`Sound`). So an event has one of five effects on a room of sources
(`Effect`): a source was written or could not be, a file was taken as it was there, nothing was
given up, or one source was.

Whatever the effect, all files stay as they were but for those that the event has to do with
(`Effect.leaves`). As long as the sources in use lead to different places, an event does not change
the file of a source that was in use before and still is (`Effect.readBytes_of_mem`).
-/

set_option autoImplicit false
set_option relaxedAutoImplicit false

namespace FlexGate

/-! ### Giving up a source -/

namespace MaterializedSource

variable {t t' : FileTree} {source : MaterializedSource}

theorem cleanup_files_of_ok (htemporary : source.temporary = true)
    (h : t.removeFile source.path = .ok t') : source.cleanup .files t = t' := by
  simp [cleanup, SourceStore.files, htemporary, h]

theorem cleanup_files_of_error {fault : IoFault} (h : t.removeFile source.path = .error fault) :
    source.cleanup .files t = t := by
  simp [cleanup, SourceStore.files, h]

/-- Cleaning up leaves all files alone but that of the source. -/
theorem leaves_cleanup (source : MaterializedSource) (t : FileTree) :
    t.Leaves (source.cleanup .files t) fun q ↦ t.place? source.path = some q := by
  cases htemporary : source.temporary with
  | false =>
    rw [cleanup_of_not_temporary _ htemporary]
    exact .refl t _
  | true =>
    cases hremove : t.removeFile source.path with
    | error fault =>
      rw [cleanup_files_of_error hremove]
      exact .refl t _
    | ok removed =>
      rw [cleanup_files_of_ok htemporary hremove]
      obtain ⟨q, hplace, hleaves, -⟩ := FileTree.leaves_of_removeFile hremove
      refine hleaves.mono ?_
      rintro _ rfl
      exact hplace

/-- Where a temporary source was cleaned up there is no file. -/
theorem readBytes_cleanup_ne (htemporary : source.temporary = true) (bytes : List UInt8) :
    (source.cleanup .files t).readBytes source.path ≠ .ok bytes := by
  cases hremove : t.removeFile source.path with
  | error fault =>
    rw [cleanup_files_of_error hremove]
    intro hread
    -- A file that is there could have been removed.
    obtain ⟨place, executable, hfind⟩ := FileTree.readBytes_eq_ok_iff.mp hread
    rw [FileTree.removeFile_of_find hfind] at hremove
    cases hremove
  | ok removed =>
    rw [cleanup_files_of_ok htemporary hremove]
    exact FileTree.readBytes_removeFile hremove bytes

theorem get?_cleanup_ne (htemporary : source.temporary = true) {q : Place}
    (hplace : t.place? source.path = some q) (bytes : List UInt8) (executable : Bool) :
    (source.cleanup .files t).get? q ≠ some (.file bytes executable) := by
  intro hget
  have hplace' := (source.leaves_cleanup t).place?_eq_some hplace
  exact readBytes_cleanup_ne htemporary bytes
    ((FileTree.readBytes_eq_ok_iff_get? hplace').mpr ⟨executable, hget⟩)

/-- Cleaning up makes no file. -/
theorem get?_of_get?_cleanup {q : Place} {bytes : List UInt8} {executable : Bool}
    (h : (source.cleanup .files t).get? q = some (.file bytes executable)) :
    t.get? q = some (.file bytes executable) := by
  cases htemporary : source.temporary with
  | false => rwa [cleanup_of_not_temporary _ htemporary] at h
  | true =>
    by_cases hplace : t.place? source.path = some q
    · exact absurd h (get?_cleanup_ne htemporary hplace bytes executable)
    · exact ((source.leaves_cleanup t).file_iff q hplace bytes executable).mp h

end MaterializedSource

namespace HeldSource

variable {held : HeldSource}

theorem cleanUp_eq (held : HeldSource) (files : FileTree) :
    held.cleanUp files = held.source.cleanup .files files := by
  unfold cleanUp drop
  simp

/-- A source that is given up without having been cleaned up removes the same file. -/
theorem drop_eq (h : held.cleaned = false) (files : FileTree) :
    held.drop files = held.source.cleanup .files files := by
  cases htemporary : held.source.temporary with
  | false => simp [drop, htemporary]
  | true =>
    cases hremove : files.removeFile held.source.path with
    | error fault =>
      rw [MaterializedSource.cleanup_files_of_error hremove]
      simp [drop, hremove]
    | ok removed =>
      rw [MaterializedSource.cleanup_files_of_ok htemporary hremove]
      simp [drop, hremove, htemporary, h]

end HeldSource

/-- Whether an event gives up the source with a ticket, in one way or the other. -/
def SourceEvent.GivesUp (event : SourceEvent) (ticket : Nat) : Prop :=
  event = .cleanUp ticket ∨ event = .drop ticket

theorem SourceEvent.GivesUp.givesUp_iff {event : SourceEvent} {ticket other : Nat}
    (h : event.GivesUp ticket) : event.GivesUp other ↔ other = ticket := by
  rcases h with rfl | rfl <;> simp [GivesUp, eq_comm]

theorem SourceEvent.not_givesUp_write (plan : SourcePlan) (text : String) (ticket : Nat) :
    ¬ (write plan text).GivesUp ticket := by
  simp [GivesUp]

theorem SourceEvent.not_givesUp_existing (path : Path) (ticket : Nat) :
    ¬ (existing path).GivesUp ticket := by
  simp [GivesUp]

namespace SourceRoom

variable {room room' : SourceRoom} {event : SourceEvent}

/-- A room in which each source in use has a ticket of its own, that was given out, and none was
cleaned up, since cleaning up gives it up. -/
structure Sound (room : SourceRoom) : Prop where
  tickets_nodup : (room.held.map HeldSource.ticket).Nodup
  ticket_lt : ∀ held ∈ room.held, held.ticket < room.next
  not_cleaned : ∀ held ∈ room.held, held.cleaned = false

/-- What an event makes of a room. -/
inductive Effect (room : SourceRoom) : SourceEvent → SourceRoom → Prop
  | written {plan : SourcePlan} {text : String} {files : FileTree}
    (h : room.files.writeText plan.path text = (files, none)) :
    Effect room (.write plan text) ({ room with files }.hold ⟨plan.path, plan.temporary⟩).1
  | refused {plan : SourcePlan} {text : String} {files : FileTree} {fault : IoFault}
    (h : room.files.writeText plan.path text = (files, some fault)) :
    Effect room (.write plan text) { room with files }
  | taken (path : Path) : Effect room (.existing path) (room.hold (.existing path)).1
  | nothing {event : SourceEvent} {ticket : Nat} (hevent : event.GivesUp ticket)
    (h : ∀ held ∈ room.held, held.ticket ≠ ticket) : Effect room event room
  | givenUp {event : SourceEvent} {held : HeldSource} (hevent : event.GivesUp held.ticket)
    (h : held ∈ room.held) :
    Effect room event
      { room with
        files := held.source.cleanup .files room.files
        held := room.held.filter fun other ↦ other.ticket ≠ held.ticket }

theorem find?_eq_none_iff {ticket : Nat} :
    room.find? ticket = none ↔ ∀ held ∈ room.held, held.ticket ≠ ticket := by
  simp [find?]

theorem mem_of_find?_eq_some {ticket : Nat} {held : HeldSource}
    (h : room.find? ticket = some held) : held ∈ room.held ∧ held.ticket = ticket :=
  ⟨List.mem_of_find?_eq_some h, by simpa using List.find?_some h⟩

/-- Both ways to give up a source come to the same. -/
theorem effect_finish {way : HeldSource → FileTree → FileTree}
    (hway : ∀ held ∈ room.held, way held room.files = held.source.cleanup .files room.files)
    {ticket : Nat} (hevent : event.GivesUp ticket) :
    Effect room event (room.finish way ticket) := by
  unfold finish
  cases hfind : room.find? ticket with
  | none => exact .nothing hevent (find?_eq_none_iff.mp hfind)
  | some held =>
    obtain ⟨hheld, rfl⟩ := mem_of_find?_eq_some hfind
    simp only [hway held hheld]
    exact .givenUp hevent hheld

section Writing

variable {plan : SourcePlan} {text : String} {files : FileTree} {fault : IoFault}

theorem write_of_ok (h : room.files.writeText plan.path text = (files, none)) :
    room.write plan text =
      (({ room with files }.hold ⟨plan.path, plan.temporary⟩).1, .ok room.next) := by
  simp [write, MaterializedSource.write, SourceStore.files, hold, h]

theorem write_of_error (h : room.files.writeText plan.path text = (files, some fault)) :
    room.write plan text =
      ({ room with files }, .error (MaterializedSource.writeFailure plan.path fault)) := by
  simp [write, MaterializedSource.write, SourceStore.files, h]

theorem apply_write_of_ok (h : room.files.writeText plan.path text = (files, none)) :
    room.apply (.write plan text) = ({ room with files }.hold ⟨plan.path, plan.temporary⟩).1 := by
  rw [apply, write_of_ok h]

theorem write_eq_ok_iff {ticket : Nat} :
    (room.write plan text).2 = .ok ticket ↔
      ticket = room.next ∧ ∃ files, room.files.writeText plan.path text = (files, none) := by
  rcases hwrite : room.files.writeText plan.path text with ⟨files, _ | fault⟩
  · rw [write_of_ok hwrite]
    simp [eq_comm]
  · rw [write_of_error hwrite]
    simp

theorem exists_of_write_eq_error {failure : RunFailure}
    (h : (room.write plan text).2 = .error failure) :
    (∃ reason, failure = .materializationFailed (some (String.ofList plan.path)) reason) ∧
      room.files.Leaves (room.write plan text).1.files FileTree.nowhere := by
  rcases hwrite : room.files.writeText plan.path text with ⟨files, _ | fault⟩
  · rw [write_of_ok hwrite] at h
    cases h
  · rw [write_of_error hwrite] at h ⊢
    obtain rfl := Except.error.inj h
    exact ⟨⟨fault.message, rfl⟩, FileTree.leaves_of_failed_writeText hwrite⟩

end Writing

theorem Sound.effect (h : room.Sound) (event : SourceEvent) :
    Effect room event (room.apply event) := by
  cases event with
  | write plan text =>
    rcases hwrite : room.files.writeText plan.path text with ⟨files, _ | fault⟩
    · rw [apply_write_of_ok hwrite]
      exact .written hwrite
    · rw [apply, write_of_error hwrite]
      exact .refused hwrite
  | existing path => exact .taken path
  | cleanUp ticket => exact effect_finish (fun held _ ↦ held.cleanUp_eq room.files) (.inl rfl)
  | drop ticket =>
    have hdrop : ∀ held ∈ room.held, held.drop room.files = held.source.cleanup .files room.files :=
      fun held hheld ↦ HeldSource.drop_eq (h.not_cleaned held hheld) room.files
    exact effect_finish hdrop (.inr rfl)

theorem Sound.start (files : FileTree) : Sound { files } where
  tickets_nodup := List.nodup_nil
  ticket_lt := fun _ hheld ↦ absurd hheld List.not_mem_nil
  not_cleaned := fun _ hheld ↦ absurd hheld List.not_mem_nil

theorem Sound.hold (h : room.Sound) (files : FileTree) (source : MaterializedSource) :
    Sound ({ room with files }.hold source).1 where
  tickets_nodup := by
    refine List.nodup_cons.mpr ⟨fun hmem ↦ ?_, h.tickets_nodup⟩
    obtain ⟨held, hheld, hticket⟩ := List.mem_map.mp hmem
    exact absurd hticket (Nat.ne_of_lt (h.ticket_lt held hheld))
  ticket_lt := by
    intro held hheld
    rcases List.mem_cons.mp hheld with rfl | hheld
    · exact Nat.lt_succ_self room.next
    · exact Nat.lt_succ_of_lt (h.ticket_lt held hheld)
  not_cleaned := by
    intro held hheld
    rcases List.mem_cons.mp hheld with rfl | hheld
    · rfl
    · exact h.not_cleaned held hheld

theorem Sound.of_effect (h : room.Sound) (heffect : Effect room event room') : room'.Sound := by
  cases heffect with
  | written => exact h.hold _ _
  | refused => exact ⟨h.tickets_nodup, h.ticket_lt, h.not_cleaned⟩
  | taken path => exact h.hold room.files _
  | nothing => exact h
  | @givenUp _ held =>
    have hsublist := List.filter_sublist (p := fun other ↦ decide (other.ticket ≠ held.ticket))
      (l := room.held)
    exact {
      tickets_nodup := h.tickets_nodup.sublist (hsublist.map _)
      ticket_lt := fun other hother ↦ h.ticket_lt other (hsublist.mem hother)
      not_cleaned := fun other hother ↦ h.not_cleaned other (hsublist.mem hother) }

theorem Sound.eq_of_ticket_eq (h : room.Sound) {a b : HeldSource} (ha : a ∈ room.held)
    (hb : b ∈ room.held) (hticket : a.ticket = b.ticket) : a = b :=
  List.inj_on_of_nodup_map h.tickets_nodup ha hb hticket

theorem Sound.find?_eq_some (h : room.Sound) {held : HeldSource} (hheld : held ∈ room.held) :
    room.find? held.ticket = some held := by
  cases hfind : room.find? held.ticket with
  | none => exact absurd rfl (find?_eq_none_iff.mp hfind held hheld)
  | some other =>
    obtain ⟨hother, hticket⟩ := mem_of_find?_eq_some hfind
    rw [h.eq_of_ticket_eq hother hheld hticket]

/-- A source that is given up is cleaned up, in one way or the other. -/
theorem Sound.files_of_givesUp (h : room.Sound) {held : HeldSource} (hheld : held ∈ room.held)
    (hevent : event.GivesUp held.ticket) :
    (room.apply event).files = held.source.cleanup .files room.files := by
  rcases hevent with rfl | rfl
  · show (room.finish HeldSource.cleanUp held.ticket).files = _
    rw [finish, h.find?_eq_some hheld]
    exact held.cleanUp_eq room.files
  · show (room.finish HeldSource.drop held.ticket).files = _
    rw [finish, h.find?_eq_some hheld]
    exact HeldSource.drop_eq (h.not_cleaned held hheld) room.files

/-! ### Files -/

/-- Whether an event has to do with the file of a path: it writes that file or gives up a source in
it. -/
def Touches (room : SourceRoom) (path : Path) : SourceEvent → Prop
  | .write plan _ => plan.path = path
  | .existing _ => False
  | .cleanUp ticket => ∃ held ∈ room.held, held.ticket = ticket ∧ held.source.path = path
  | .drop ticket => ∃ held ∈ room.held, held.ticket = ticket ∧ held.source.path = path

/-- An event leaves all files alone but those that it has to do with. -/
theorem Effect.leaves (h : Effect room event room') :
    room.files.Leaves room'.files fun q ↦
      ∃ path, room.Touches path event ∧ room'.files.place? path = some q := by
  cases h with
  | written hwrite =>
    obtain ⟨q, hplace, hleaves⟩ := FileTree.leaves_of_writeText hwrite
    refine hleaves.mono ?_
    rintro _ rfl
    exact ⟨_, rfl, hplace⟩
  | refused hwrite =>
    exact (FileTree.leaves_of_failed_writeText hwrite).mono fun _ ↦ False.elim
  | taken => exact .refl room.files _
  | nothing => exact .refl room.files _
  | @givenUp _ held hevent hheld =>
    have hleaves := held.source.leaves_cleanup room.files
    refine hleaves.mono fun q hplace ↦ ⟨held.source.path, ?_, hleaves.place?_eq_some hplace⟩
    rcases hevent with rfl | rfl
    · exact ⟨held, hheld, rfl, rfl⟩
    · exact ⟨held, hheld, rfl, rfl⟩

/-- A file that is there after an event was there before, unless the event wrote it. -/
theorem Effect.get?_eq_file (h : Effect room event room') {q : Place} {bytes : List UInt8}
    {executable : Bool} (hget : room'.files.get? q = some (.file bytes executable)) :
    room.files.get? q = some (.file bytes executable) ∨
      ∃ plan text, event = .write plan text ∧ room'.files.place? plan.path = some q ∧
        ∃ files, room.files.writeText plan.path text = (files, none) := by
  cases h with
  | @written plan text files hwrite =>
    obtain ⟨place, hplace, hleaves⟩ := FileTree.leaves_of_writeText hwrite
    by_cases hq : q = place
    · exact .inr ⟨plan, text, rfl, hq ▸ hplace, files, hwrite⟩
    · exact .inl ((hleaves.file_iff q hq bytes executable).mp hget)
  | refused hwrite =>
    have hleaves := FileTree.leaves_of_failed_writeText hwrite
    exact .inl ((hleaves.file_iff q id bytes executable).mp hget)
  | taken => exact .inl hget
  | nothing => exact .inl hget
  | givenUp => exact .inl (MaterializedSource.get?_of_get?_cleanup hget)

/-! ### Sources in use -/

theorem Effect.mem_or_eq_next (h : Effect room event room') {held : HeldSource}
    (hheld : held ∈ room'.held) : held ∈ room.held ∨ held.ticket = room.next := by
  cases h with
  | written => exact (List.mem_cons.mp hheld).symm.imp_right (congrArg HeldSource.ticket)
  | refused => exact .inl hheld
  | taken => exact (List.mem_cons.mp hheld).symm.imp_right (congrArg HeldSource.ticket)
  | nothing => exact .inl hheld
  | givenUp => exact .inl (List.mem_of_mem_filter hheld)

/-- Whether the source with a ticket is in use. -/
def InUse (room : SourceRoom) (ticket : Nat) : Prop := ∃ held ∈ room.held, held.ticket = ticket

theorem inUse_hold_iff {files : FileTree} {source : MaterializedSource} {ticket : Nat}
    (hlt : ticket < room.next) :
    ({ room with files }.hold source).1.InUse ticket ↔ room.InUse ticket := by
  show (∃ held ∈ ⟨room.next, source, false⟩ :: room.held, held.ticket = ticket) ↔ _
  rw [List.exists_mem_cons_iff]
  exact or_iff_right (Nat.ne_of_gt hlt)

/-- A source stays in use until it is given up. -/
theorem Effect.inUse_iff (h : Effect room event room') {ticket : Nat} (hlt : ticket < room.next) :
    room'.InUse ticket ↔ room.InUse ticket ∧ ¬ event.GivesUp ticket := by
  cases h with
  | @written plan text =>
    rw [inUse_hold_iff hlt, and_iff_left (SourceEvent.not_givesUp_write plan text ticket)]
  | @refused plan text =>
    rw [and_iff_left (SourceEvent.not_givesUp_write plan text ticket)]
    rfl
  | taken path =>
    rw [and_iff_left (SourceEvent.not_givesUp_existing path ticket)]
    exact inUse_hold_iff hlt
  | nothing hevent hnone =>
    rw [hevent.givesUp_iff, iff_self_and]
    rintro ⟨held, hheld, rfl⟩
    exact hnone held hheld
  | @givenUp _ other hevent hother =>
    rw [hevent.givesUp_iff]
    constructor
    · rintro ⟨held, hheld, rfl⟩
      obtain ⟨hheld, hne⟩ := List.mem_filter.mp hheld
      exact ⟨⟨held, hheld, rfl⟩, of_decide_eq_true hne⟩
    · rintro ⟨⟨held, hheld, rfl⟩, hne⟩
      exact ⟨held, List.mem_filter.mpr ⟨hheld, decide_eq_true hne⟩, rfl⟩

theorem Effect.next_le (h : Effect room event room') : room.next ≤ room'.next := by
  cases h with
  | written => exact Nat.le_succ room.next
  | refused => exact Nat.le_refl room.next
  | taken => exact Nat.le_succ room.next
  | nothing => exact Nat.le_refl room.next
  | givenUp => exact Nat.le_refl room.next

/-- The places that the sources in use lead to. -/
def places (room : SourceRoom) : List Place :=
  room.held.filterMap fun held ↦ room.files.place? held.source.path

/-- Different sources in use lead to different places. -/
theorem place?_ne (h : room.places.Nodup) {a b : HeldSource} (ha : a ∈ room.held)
    (hb : b ∈ room.held) (hne : a ≠ b) {q : Place} (hq : room.files.place? a.source.path = some q) :
    room.files.place? b.source.path ≠ some q := by
  have hpairwise := List.pairwise_filterMap.mp h
  have hsymm : Std.Symm fun a b : HeldSource ↦
      ∀ p, room.files.place? a.source.path = some p →
        ∀ q, room.files.place? b.source.path = some q → p ≠ q :=
    ⟨fun a b hab p hp q hq hpq ↦ hab q hq p hp hpq.symm⟩
  intro hq'
  exact hpairwise.forall ha hb hne q hq q hq' rfl

/-- The file of a source stays as it is while the source is in use, if that of no other source in
use is the same. -/
theorem Effect.readBytes_of_mem (h : Effect room event room') (hroom : room.places.Nodup)
    (hroom' : room'.places.Nodup) {held : HeldSource} (hheld : held ∈ room.held)
    (hheld' : held ∈ room'.held) (hlt : held.ticket < room.next) {bytes : List UInt8}
    (hread : room.files.readBytes held.source.path = .ok bytes) :
    room'.files.readBytes held.source.path = .ok bytes := by
  cases h with
  | @written plan text files hwrite =>
    obtain ⟨q, hplace, hleaves⟩ := FileTree.leaves_of_writeText hwrite
    refine hleaves.readBytes_eq_ok hread ?_
    rintro _ hheldPlace rfl
    have hne : held ≠ ⟨room.next, ⟨plan.path, plan.temporary⟩, false⟩ := by
      rintro rfl
      exact Nat.lt_irrefl _ hlt
    exact place?_ne hroom' hheld' List.mem_cons_self hne (hleaves.place?_eq_some hheldPlace) hplace
  | refused hwrite =>
    exact (FileTree.leaves_of_failed_writeText hwrite).readBytes_eq_ok hread fun _ _ ↦ id
  | taken => exact hread
  | nothing => exact hread
  | @givenUp _ other hevent hother =>
    refine (other.source.leaves_cleanup room.files).readBytes_eq_ok hread fun q hplace ↦ ?_
    have hne : held ≠ other := by
      rintro rfl
      simp at hheld'
    exact place?_ne hroom hheld hother hne hplace

end SourceRoom

end FlexGate
