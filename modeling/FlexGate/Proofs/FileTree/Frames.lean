import FlexGate.Proofs.FileTree.Parents

/-!
# What an access to files leaves alone

A path that is walked to a name leads to a place (`place?`), and it leads there in every tree that
has the directories on the way (`DirectoriesIn.place?_eq_some`). A file is read where its path leads
(`readBytes_eq_ok_iff_place?`).

An access never takes a directory away, and it makes, changes and removes files only at the place
that its path leads to (`Leaves`). Making directories leaves all files alone (`leaves_ensureAll`),
and so does writing that fails (`leaves_of_failed_writeText`).
-/

set_option autoImplicit false
set_option relaxedAutoImplicit false

namespace FlexGate.FileTree

variable {t t' t'' : FileTree} {path : Path} {q : Place}

/-! ### Where paths lead -/

/-- The place where a path can name a file. -/
def place? (t : FileTree) (path : Path) : Option Place :=
  match t.walk path with
  | .ok (place, .name name false) =>
    if byteLength name ≤ maxNameBytes then some (place ++ [name]) else none
  | _ => none

theorem place?_eq_some_iff :
    t.place? path = some q ↔
      ∃ place name, t.walk path = .ok (place, .name name false) ∧
        byteLength name ≤ maxNameBytes ∧ q = place ++ [name] := by
  unfold place?
  cases hwalk : t.walk path with
  | error fault => simp
  | ok reached =>
    obtain ⟨place, step⟩ := reached
    cases step with
    | stay => simp
    | up => simp
    | name name slash =>
      cases slash with
      | true => simp
      | false => simp [eq_comm, and_assoc]

theorem DirectoriesIn.place?_eq_some (h : t.DirectoriesIn t') (hplace : t.place? path = some q) :
    t'.place? path = some q := by
  obtain ⟨place, name, hwalk, hshort, hq⟩ := place?_eq_some_iff.mp hplace
  exact place?_eq_some_iff.mpr ⟨place, name, h.walk hwalk, hshort, hq⟩

theorem readBytes_eq_ok_iff_place? {bytes : List UInt8} :
    t.readBytes path = .ok bytes ↔
      ∃ q executable, t.place? path = some q ∧ t.get? q = some (.file bytes executable) := by
  rw [readBytes_eq_ok_iff]
  constructor
  · rintro ⟨q, executable, hfind⟩
    obtain ⟨place, name, hwalk, hshort, hget, rfl⟩ := find_eq_file_iff.mp hfind
    exact ⟨_, executable, place?_eq_some_iff.mpr ⟨place, name, hwalk, hshort, rfl⟩, hget⟩
  · rintro ⟨q, executable, hplace, hget⟩
    obtain ⟨place, name, hwalk, hshort, rfl⟩ := place?_eq_some_iff.mp hplace
    exact ⟨_, executable, find_eq_file_iff.mpr ⟨place, name, hwalk, hshort, hget, rfl⟩⟩

theorem readBytes_eq_ok_iff_get? (hplace : t.place? path = some q) {bytes : List UInt8} :
    t.readBytes path = .ok bytes ↔ ∃ executable, t.get? q = some (.file bytes executable) := by
  rw [readBytes_eq_ok_iff_place?]
  constructor
  · rintro ⟨place, executable, hplace', hget⟩
    obtain rfl : q = place := Option.some.inj (hplace.symm.trans hplace')
    exact ⟨executable, hget⟩
  · rintro ⟨executable, hget⟩
    exact ⟨q, executable, hplace, hget⟩

/-! ### Paths in normal form -/

theorem enterAll_eq_append {l : List (List Char)} {place : Place}
    (hl : ∀ name ∈ l, name ≠ ['.'] ∧ name ≠ ['.', '.']) (h : t.enterAll place l = .ok q) :
    q = place ++ l := by
  induction l generalizing place with
  | nil => simpa [eq_comm] using h
  | cons name l ih =>
    obtain ⟨hhere, hup⟩ := hl name List.mem_cons_self
    obtain ⟨next, hnext, hrest⟩ := enterAll_cons_eq_ok_iff.mp h
    rcases enter_eq_ok_iff.mp hnext with ⟨h, -⟩ | ⟨-, h, -⟩ | ⟨-, -, -, -, rfl⟩
    · exact absurd h hhere
    · exact absurd h hup
    · rw [ih (fun other hother ↦ hl other (List.mem_cons_of_mem name hother)) hrest,
        List.append_assoc, List.singleton_append]

/-- Without points for names, a path leads to the place of its names. -/
theorem eq_append_of_place? (hnames : ∀ name ∈ names path, name ≠ ['.'] ∧ name ≠ ['.', '.'])
    (h : t.place? path = some q) : q = t.origin path ++ names path := by
  obtain ⟨place, name, hwalk, -, rfl⟩ := place?_eq_some_iff.mp h
  obtain ⟨-, ⟨-, -, hstep⟩ | ⟨last, hlast, henter, hstep⟩⟩ := walk_eq_ok_iff.mp hwalk
  · cases hstep
  · obtain ⟨hhere, hup⟩ := hnames last (List.mem_of_getLast? hlast)
    rw [lastStep, if_neg hhere, if_neg hup] at hstep
    obtain ⟨rfl, -⟩ := LastStep.name.inj hstep
    have hentered : ∀ other ∈ (names path).dropLast, other ≠ ['.'] ∧ other ≠ ['.', '.'] :=
      fun other hother ↦ hnames other ((List.dropLast_sublist _).mem hother)
    rw [enterAll_eq_append hentered henter, List.append_assoc,
      List.dropLast_append_getLast? name hlast]

/-- A path in normal form: it has no points for names, and no empty segment but the one before the
slash of an absolute path. -/
structure IsNormal (path : Path) : Prop where
  named : ∀ name ∈ names path, name ≠ ['.'] ∧ name ≠ ['.', '.']
  segments_eq : path.segments = (if path.isAbsolute then [[]] else []) ++ names path

instance (path : Path) : Decidable (IsNormal path) :=
  decidable_of_iff (_ ∧ _) ⟨fun h ↦ ⟨h.1, h.2⟩, fun h ↦ ⟨h.named, h.segments_eq⟩⟩

/-- Different paths in normal form, both absolute or both relative, lead to different places. -/
theorem IsNormal.eq_of_place? {other : Path} (h : IsNormal path) (hother : IsNormal other)
    (habsolute : path.isAbsolute = other.isAbsolute) (hplace : t.place? path = some q)
    (hplace' : t.place? other = some q) : path = other := by
  have hq := eq_append_of_place? h.named hplace
  rw [eq_append_of_place? hother.named hplace', origin, origin, habsolute] at hq
  have hnames : names other = names path := List.append_cancel_left hq
  rw [← Path.intercalate_segments path, h.segments_eq, habsolute, ← hnames, ← hother.segments_eq,
    Path.intercalate_segments]

/-! ### Frames -/

/-- From one tree to another no directory was taken away, and at no place but certain ones a file
was made, changed or removed. -/
structure Leaves (t t' : FileTree) (changed : Place → Prop) : Prop where
  directories : t.DirectoriesIn t'
  file_iff : ∀ q, ¬ changed q → ∀ bytes executable,
    t'.get? q = some (.file bytes executable) ↔ t.get? q = some (.file bytes executable)

namespace Leaves

variable {changed other : Place → Prop}

theorem refl (t : FileTree) (changed : Place → Prop) : t.Leaves t changed where
  directories := ⟨rfl, fun _ h ↦ h⟩
  file_iff := fun _ _ _ _ ↦ Iff.rfl

theorem trans (h : t.Leaves t' changed) (h' : t'.Leaves t'' changed) : t.Leaves t'' changed where
  directories :=
    { here_eq := h'.directories.here_eq.trans h.directories.here_eq
      directory := fun place hplace ↦
        h'.directories.directory place (h.directories.directory place hplace) }
  file_iff := fun q hq bytes executable ↦
    (h'.file_iff q hq bytes executable).trans (h.file_iff q hq bytes executable)

theorem mono (h : t.Leaves t' changed) (hother : ∀ q, changed q → other q) :
    t.Leaves t' other where
  directories := h.directories
  file_iff := fun q hq ↦ h.file_iff q (mt (hother q) hq)

theorem place?_eq_some (h : t.Leaves t' changed) (hplace : t.place? path = some q) :
    t'.place? path = some q :=
  h.directories.place?_eq_some hplace

/-- A file that is left alone is read as before. -/
theorem readBytes_eq_ok (h : t.Leaves t' changed) {bytes : List UInt8}
    (hread : t.readBytes path = .ok bytes) (hpath : ∀ q, t.place? path = some q → ¬ changed q) :
    t'.readBytes path = .ok bytes := by
  obtain ⟨q, executable, hplace, hget⟩ := readBytes_eq_ok_iff_place?.mp hread
  have hget' := (h.file_iff q (hpath q hplace) bytes executable).mpr hget
  exact readBytes_eq_ok_iff_place?.mpr ⟨q, executable, h.place?_eq_some hplace, hget'⟩

end Leaves

/-- No place. -/
abbrev nowhere : Place → Prop := fun _ ↦ False

/-! ### Directories -/

theorem leaves_of_makeDirectory (h : t.makeDirectory path = .ok t') : t.Leaves t' nowhere := by
  rw [makeDirectory] at h
  cases hwalk : t.walk path with
  | error fault => simp [hwalk] at h
  | ok reached =>
    obtain ⟨place, step⟩ := reached
    simp only [hwalk, ok_bind] at h
    cases step with
    | stay => cases h
    | up => cases h
    | name name slash =>
      by_cases hlong : maxNameBytes < byteLength name
      · simp [hlong] at h
      · cases hget : t.get? (place ++ [name]) with
        | some node => simp [hlong, hget] at h
        | none =>
          obtain rfl : t.put (place ++ [name]) .directory = t' := by simpa [hlong, hget] using h
          have hne : place ++ [name] ≠ [] := by simp
          refine ⟨directoriesIn_put hne (by simp [hget]) .directory, fun q _ bytes executable ↦ ?_⟩
          rw [get?_put _ _ _ _ hne]
          by_cases hq : q = place ++ [name]
          · simp [hq, hget]
          · rw [if_neg hq]

theorem leaves_of_ensureDirectory (h : t.ensureDirectory path = .ok t') : t.Leaves t' nowhere := by
  unfold ensureDirectory at h
  split at h
  case h_1 made hmade =>
    obtain rfl := Except.ok.inj h
    exact leaves_of_makeDirectory hmade
  case h_2 =>
    split at h
    · obtain rfl := Except.ok.inj h
      exact .refl t nowhere
    · cases h

theorem leaves_ensureAll (t : FileTree) (paths : List Path) :
    t.Leaves (t.ensureAll paths).1 nowhere := by
  induction paths with
  | nil => exact .refl t nowhere
  | cons path above ih =>
    rw [ensureAll]
    split
    case h_1 made hmade => exact leaves_of_ensureDirectory hmade
    case h_2 =>
      split
      case h_1 made fault habove =>
        rw [habove] at ih
        exact ih
      case h_2 made habove =>
        rw [habove] at ih
        split
        case h_1 again hagain => exact ih.trans (leaves_of_ensureDirectory hagain)
        case h_2 => exact ih
    case h_3 => exact .refl t nowhere

theorem leaves_withParents (t : FileTree) (path : Path) :
    t.Leaves (t.withParents path).1 nowhere := by
  unfold withParents
  split
  · split
    · exact .refl t nowhere
    · exact leaves_ensureAll t _
  · exact .refl t nowhere

/-! ### Files -/

theorem leaves_of_writeBytes {bytes : List UInt8} (h : t.writeBytes path bytes = .ok t') :
    ∃ q, t'.place? path = some q ∧ t.Leaves t' (· = q) := by
  obtain ⟨place, name, executable, hwalk, hshort, hget, rfl⟩ := exists_of_writeBytes h
  have hne : place ++ [name] ≠ [] := by simp
  have hdirectories := directoriesIn_put hne hget (.file bytes executable)
  refine ⟨place ++ [name], ?_, hdirectories, fun q hq bytes executable ↦ ?_⟩
  · exact hdirectories.place?_eq_some (place?_eq_some_iff.mpr ⟨place, name, hwalk, hshort, rfl⟩)
  · rw [get?_put _ _ _ _ hne, if_neg hq]

/-- A text that is written changes at most the file that its path leads to. -/
theorem leaves_of_writeText {text : String} (h : t.writeText path text = (t', none)) :
    ∃ q, t'.place? path = some q ∧ t.Leaves t' (· = q) := by
  obtain ⟨made, hmade, hwrite⟩ := exists_of_writeText h
  obtain ⟨q, hplace, hleaves⟩ := leaves_of_writeBytes hwrite
  have hparents := t.leaves_withParents path
  rw [hmade] at hparents
  exact ⟨q, hplace, (hparents.mono fun _ ↦ False.elim).trans hleaves⟩

/-- A text that could not be written left all files as they were. -/
theorem leaves_of_failed_writeText {text : String} {fault : IoFault}
    (h : t.writeText path text = (t', some fault)) : t.Leaves t' nowhere := by
  have hparents := t.leaves_withParents path
  rcases cases_of_failed_writeText h with hmade | ⟨hmade, -⟩
  · rwa [hmade] at hparents
  · rwa [hmade] at hparents

/-- Removing takes away the file that the path leads to, and nothing else. -/
theorem leaves_of_removeFile (h : t.removeFile path = .ok t') :
    ∃ q, t.place? path = some q ∧ t.Leaves t' (· = q) ∧ t'.get? q = none := by
  obtain ⟨place, name, bytes, executable, hwalk, hshort, hget, rfl⟩ := exists_of_removeFile h
  have hne : place ++ [name] ≠ [] := by simp
  have herase := t.get?_erase (place ++ [name])
  refine ⟨place ++ [name], place?_eq_some_iff.mpr ⟨place, name, hwalk, hshort, rfl⟩,
    ⟨⟨rfl, fun q hq ↦ ?_⟩, fun q hq bytes executable ↦ ?_⟩, ?_⟩
  · have hother : q ≠ place ++ [name] := by
      rintro rfl
      rw [hget] at hq
      cases hq
    rw [herase q hne, if_neg hother, hq]
  · rw [herase q hne, if_neg hq]
  · rw [herase _ hne, if_pos rfl]

end FlexGate.FileTree
