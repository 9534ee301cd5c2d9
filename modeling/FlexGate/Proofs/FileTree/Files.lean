import FlexGate.FileTree.Access
import FlexGate.Proofs.Text.Utf8

/-!
# Files of a tree

A path is walked by its names (`walk_eq_ok_iff`). The walk asks for directories only, so it ends at
the same place in every tree that has these directories (`DirectoriesIn.walk`), in particular after
a file was written or removed.

A file that can be found can be written and removed (`writeBytes_of_find`, `removeFile_of_find`).
What is written is read back (`readBytes_writeBytes`), also as text
(`readText_of_readBytes_encoded`), and nothing is read where a file was removed
(`readBytes_removeFile`).
-/

set_option autoImplicit false
set_option relaxedAutoImplicit false

namespace FlexGate

/-! ### Programs that may fail -/

section Failing

variable {ε α β : Type}

@[simp] theorem ok_bind (a : α) (f : α → Except ε β) : (Except.ok a >>= f) = f a := rfl

@[simp] theorem error_bind (fault : ε) (f : α → Except ε β) :
    (Except.error fault >>= f) = .error fault := rfl

@[simp] theorem pure_eq_ok (a : α) : (pure a : Except ε α) = .ok a := rfl

@[simp] theorem throw_eq_error (fault : ε) : (throw fault : Except ε α) = .error fault := rfl

end Failing

namespace FileTree

variable {t t' : FileTree} {path : Path} {place q : Place}

/-! ### Steps of a walk -/

/-- The names that a path is walked by. -/
def names (path : Path) : List (List Char) := path.segments.filter fun s ↦ !s.isEmpty

/-- Where the walk of a path starts. -/
def origin (t : FileTree) (path : Path) : Place := if path.isAbsolute then [] else t.here

/-- A path that can be walked, in a tree that has what it names. -/
structure IsWalkable (path : Path) : Prop where
  ne_nil : path ≠ []
  no_nul : '\x00' ∉ path
  short : byteLength path < maxPathBytes

theorem enter_eq_ok_iff {name : List Char} :
    t.enter place name = .ok q ↔
      (name = ['.'] ∧ q = place) ∨
      (name ≠ ['.'] ∧ name = ['.', '.'] ∧ q = place.dropLast) ∨
      (name ≠ ['.'] ∧ name ≠ ['.', '.'] ∧ byteLength name ≤ maxNameBytes ∧
        t.get? (place ++ [name]) = some .directory ∧ q = place ++ [name]) := by
  rw [enter]
  by_cases hhere : name = ['.']
  · simp [hhere, eq_comm]
  by_cases hup : name = ['.', '.']
  · simp [hup, eq_comm]
  by_cases hlong : maxNameBytes < byteLength name
  · simp [hhere, hup, hlong, Nat.not_le.mpr hlong]
  · rw [if_neg hhere, if_neg hup, if_neg hlong]
    cases hget : t.get? (place ++ [name]) with
    | none => simp [hhere, hup]
    | some node => cases node <;> simp [hhere, hup, Nat.not_lt.mp hlong, eq_comm]

@[simp] theorem enterAll_nil : t.enterAll place [] = .ok place := rfl

theorem enterAll_cons_eq_ok_iff {name : List Char} {rest : List (List Char)} :
    t.enterAll place (name :: rest) = .ok q ↔
      ∃ next, t.enter place name = .ok next ∧ t.enterAll next rest = .ok q := by
  rw [enterAll]
  cases t.enter place name with
  | error fault => simp
  | ok next => simp

theorem enterAll_append_eq_ok_iff {first rest : List (List Char)} :
    t.enterAll place (first ++ rest) = .ok q ↔
      ∃ next, t.enterAll place first = .ok next ∧ t.enterAll next rest = .ok q := by
  induction first generalizing place with
  | nil => simp
  | cons name first ih =>
    simp only [List.cons_append, enterAll_cons_eq_ok_iff, ih]
    constructor
    · rintro ⟨a, ha, b, hb, hq⟩
      exact ⟨b, ⟨a, ha, hb⟩, hq⟩
    · rintro ⟨b, ⟨a, ha, hb⟩, hq⟩
      exact ⟨a, ha, b, hb, hq⟩

theorem walk_eq_ok_iff {step : LastStep} :
    t.walk path = .ok (place, step) ↔
      IsWalkable path ∧
      ((names path = [] ∧ place = t.origin path ∧ step = .stay) ∨
        ∃ last, (names path).getLast? = some last ∧
          t.enterAll (t.origin path) (names path).dropLast = .ok place ∧
          step = lastStep last (path.getLast? == some '/')) := by
  have hguards : IsWalkable path ↔ path ≠ [] ∧ ¬ path.contains '\x00' = true ∧
      ¬ maxPathBytes ≤ byteLength path := by
    constructor
    · rintro ⟨hne, hnul, hshort⟩
      exact ⟨hne, by simpa using hnul, Nat.not_le.mpr hshort⟩
    · rintro ⟨hne, hnul, hshort⟩
      exact ⟨hne, by simpa using hnul, Nat.not_le.mp hshort⟩
  rw [walk, hguards]
  by_cases hne : path = []
  · simp [hne]
  by_cases hnul : path.contains '\x00' = true
  · rw [if_neg hne, if_pos hnul]
    exact ⟨nofun, fun h ↦ absurd hnul h.1.2.1⟩
  by_cases hlong : maxPathBytes ≤ byteLength path
  · rw [if_neg hne, if_neg hnul, if_pos hlong]
    exact ⟨nofun, fun h ↦ absurd hlong h.1.2.2⟩
  rw [if_neg hne, if_neg hnul, if_neg hlong]
  simp only [hne, hnul, hlong, ne_eq, not_false_eq_true, true_and]
  rw [← names, ← origin]
  cases hlast : (names path).getLast? with
  | none =>
    have hnil : names path = [] := List.getLast?_eq_none_iff.mp hlast
    simp [hnil, eq_comm]
  | some last =>
    have hcons : names path ≠ [] := by
      intro hnil
      simp [hnil] at hlast
    cases henter : t.enterAll (t.origin path) (names path).dropLast with
    | error fault => simp [hcons]
    | ok next => simp [hcons, eq_comm]

/-! ### Trees with more directories -/

/-- The directories of a tree are directories of another, and relative paths start from the same
place in both. -/
structure DirectoriesIn (t t' : FileTree) : Prop where
  here_eq : t'.here = t.here
  directory : ∀ place, t.get? place = some .directory → t'.get? place = some .directory

namespace DirectoriesIn

theorem enter (h : t.DirectoriesIn t') {name : List Char} (he : t.enter place name = .ok q) :
    t'.enter place name = .ok q := by
  rw [enter_eq_ok_iff] at he ⊢
  exact he.imp_right (Or.imp_right fun ⟨hhere, hup, hshort, hget, hq⟩ ↦
    ⟨hhere, hup, hshort, h.directory _ hget, hq⟩)

theorem enterAll (h : t.DirectoriesIn t') {names : List (List Char)}
    (he : t.enterAll place names = .ok q) : t'.enterAll place names = .ok q := by
  induction names generalizing place with
  | nil => exact he
  | cons name names ih =>
    obtain ⟨next, hname, hrest⟩ := enterAll_cons_eq_ok_iff.mp he
    exact enterAll_cons_eq_ok_iff.mpr ⟨next, h.enter hname, ih hrest⟩

theorem origin_eq (h : t.DirectoriesIn t') (path : Path) : t'.origin path = t.origin path := by
  rw [origin, origin, h.here_eq]

theorem walk (h : t.DirectoriesIn t') {step : LastStep} (hw : t.walk path = .ok (place, step)) :
    t'.walk path = .ok (place, step) := by
  rw [walk_eq_ok_iff] at hw ⊢
  rw [h.origin_eq]
  obtain ⟨hpath, hstay | ⟨last, hlast, henter, hstep⟩⟩ := hw
  · exact ⟨hpath, .inl hstay⟩
  · exact ⟨hpath, .inr ⟨last, hlast, h.enterAll henter, hstep⟩⟩

end DirectoriesIn

/-! ### Files -/

theorem find_eq_file_iff {bytes : List UInt8} {executable : Bool} :
    t.find path = .ok (q, .file bytes executable) ↔
      ∃ place name, t.walk path = .ok (place, .name name false) ∧
        byteLength name ≤ maxNameBytes ∧
        t.get? (place ++ [name]) = some (.file bytes executable) ∧ q = place ++ [name] := by
  rw [find]
  cases hwalk : t.walk path with
  | error fault => simp
  | ok reached =>
    obtain ⟨place, step⟩ := reached
    cases step with
    | stay => simp
    | up => simp
    | name name slash =>
      simp only [ok_bind]
      by_cases hlong : maxNameBytes < byteLength name
      · simp [hlong, Nat.not_le.mpr hlong]
      · rw [if_neg hlong]
        cases hget : t.get? (place ++ [name]) with
        | none => simp [hget]
        | some node =>
          cases node <;> cases slash <;>
            simp [hget,
              Nat.not_lt.mp hlong, eq_comm, and_comm, and_assoc]

theorem readBytes_eq_ok_iff {bytes : List UInt8} :
    t.readBytes path = .ok bytes ↔
      ∃ q executable, t.find path = .ok (q, .file bytes executable) := by
  rw [readBytes]
  cases t.find path with
  | error fault => simp
  | ok found =>
    obtain ⟨place, node⟩ := found
    cases node <;> simp

theorem isFile_iff : t.isFile path = true ↔ ∃ bytes, t.readBytes path = .ok bytes := by
  simp only [readBytes_eq_ok_iff, isFile]
  cases t.find path with
  | error fault => simp
  | ok found =>
    obtain ⟨place, node⟩ := found
    cases node <;> simp

theorem exists?_of_readBytes {bytes : List UInt8} (h : t.readBytes path = .ok bytes) :
    t.exists? path = true := by
  obtain ⟨place, executable, hfind⟩ := readBytes_eq_ok_iff.mp h
  rw [exists?, hfind]

theorem readText_eq_ok_iff {text : String} :
    t.readText path = .ok text ↔
      ∃ bytes, t.readBytes path = .ok bytes ∧ Text.Utf8.decode? bytes = some text.toList := by
  rw [readText]
  cases t.readBytes path with
  | error fault => simp
  | ok bytes =>
    simp only [ok_bind]
    cases hdecode : Text.Utf8.decode? bytes with
    | none => simp [hdecode]
    | some chars =>
      simp only [pure_eq_ok, Except.ok.injEq, exists_eq_left', hdecode, Option.some.injEq]
      exact ⟨fun h ↦ by rw [← h, String.toList_ofList], fun h ↦ by rw [h, String.ofList_toList]⟩

/-! ### Writing and removing -/

theorem exists_of_writeBytes {bytes : List UInt8} (h : t.writeBytes path bytes = .ok t') :
    ∃ place name executable, t.walk path = .ok (place, .name name false) ∧
      byteLength name ≤ maxNameBytes ∧ t.get? (place ++ [name]) ≠ some .directory ∧
      t' = t.put (place ++ [name]) (.file bytes executable) := by
  rw [writeBytes] at h
  cases hwalk : t.walk path with
  | error fault => simp [hwalk] at h
  | ok reached =>
    obtain ⟨place, step⟩ := reached
    simp only [hwalk, ok_bind] at h
    cases step with
    | stay => cases h
    | up => cases h
    | name name slash =>
      cases slash with
      | true => cases h
      | false =>
        by_cases hlong : maxNameBytes < byteLength name
        · simp [hlong] at h
        · cases hget : t.get? (place ++ [name]) with
          | none =>
            simp [hlong, hget] at h
            exact ⟨place, name, false, rfl, Nat.not_lt.mp hlong, by simp [hget], h.symm⟩
          | some node =>
            cases node with
            | directory => simp [hlong, hget] at h
            | file old executable =>
              simp [hlong, hget] at h
              exact ⟨place, name, executable, rfl, Nat.not_lt.mp hlong, by simp [hget], h.symm⟩

/-- A file that can be found can be written. -/
theorem writeBytes_of_find {old : List UInt8} {executable : Bool}
    (h : t.find path = .ok (q, .file old executable)) (bytes : List UInt8) :
    t.writeBytes path bytes = .ok (t.put q (.file bytes executable)) := by
  obtain ⟨place, name, hwalk, hshort, hget, rfl⟩ := find_eq_file_iff.mp h
  simp [writeBytes, hwalk, hget, Nat.not_lt.mpr hshort]

theorem exists_of_removeFile (h : t.removeFile path = .ok t') :
    ∃ place name bytes executable, t.walk path = .ok (place, .name name false) ∧
      byteLength name ≤ maxNameBytes ∧
      t.get? (place ++ [name]) = some (.file bytes executable) ∧
      t' = t.erase (place ++ [name]) := by
  rw [removeFile] at h
  cases hwalk : t.walk path with
  | error fault => simp [hwalk] at h
  | ok reached =>
    obtain ⟨place, step⟩ := reached
    simp only [hwalk, ok_bind] at h
    cases step with
    | stay => cases h
    | up => cases h
    | name name slash =>
      by_cases hlong : maxNameBytes < byteLength name
      · simp [hlong] at h
      · cases hget : t.get? (place ++ [name]) with
        | none => simp [hlong, hget] at h
        | some node =>
          cases node with
          | directory => simp [hlong, hget] at h
          | file bytes executable =>
            cases slash with
            | true => simp [hlong, hget] at h
            | false =>
              simp [hlong, hget] at h
              exact ⟨place, name, bytes, executable, rfl, Nat.not_lt.mp hlong, hget, h.symm⟩

/-- A file that can be found can be removed. -/
theorem removeFile_of_find {old : List UInt8} {executable : Bool}
    (h : t.find path = .ok (q, .file old executable)) :
    t.removeFile path = .ok (t.erase q) := by
  obtain ⟨place, name, hwalk, hshort, hget, rfl⟩ := find_eq_file_iff.mp h
  simp [removeFile, hwalk, hget, Nat.not_lt.mpr hshort]

theorem directoriesIn_put (hq : q ≠ []) (h : t.get? q ≠ some .directory) (node : FileNode) :
    t.DirectoriesIn (t.put q node) where
  here_eq := rfl
  directory := by
    intro place hplace
    have hne : place ≠ q := by
      rintro rfl
      exact h hplace
    rw [get?_put t q place node hq, if_neg hne, hplace]

theorem directoriesIn_of_erase (hq : q ≠ []) : (t.erase q).DirectoriesIn t where
  here_eq := rfl
  directory := by
    intro place hplace
    rw [get?_erase t q place hq] at hplace
    split at hplace
    · cases hplace
    · exact hplace

/-- A file that was written reads as what was written. -/
theorem readBytes_writeBytes {bytes : List UInt8} (h : t.writeBytes path bytes = .ok t') :
    t'.readBytes path = .ok bytes := by
  obtain ⟨place, name, executable, hwalk, hshort, hget, rfl⟩ := exists_of_writeBytes h
  have hne : place ++ [name] ≠ [] := by simp
  have hwalk' := (directoriesIn_put hne hget (.file bytes executable)).walk hwalk
  have hget' : (t.put (place ++ [name]) (.file bytes executable)).get? (place ++ [name]) =
      some (.file bytes executable) := by
    rw [get?_put _ _ _ _ hne, if_pos rfl]
  exact readBytes_eq_ok_iff.mpr ⟨place ++ [name], executable,
    find_eq_file_iff.mpr ⟨place, name, hwalk', hshort, hget', rfl⟩⟩

/-- Nothing is read where a file was removed. -/
theorem readBytes_removeFile (h : t.removeFile path = .ok t') (bytes : List UInt8) :
    t'.readBytes path ≠ .ok bytes := by
  obtain ⟨place, name, -, -, hwalk, -, -, rfl⟩ := exists_of_removeFile h
  have hne : place ++ [name] ≠ [] := by simp
  intro hread
  obtain ⟨q, executable, hfind⟩ := readBytes_eq_ok_iff.mp hread
  obtain ⟨place', name', hwalk', -, hget, -⟩ := find_eq_file_iff.mp hfind
  -- The walk ends where it ended before, since its directories were there before.
  have hsame := ((directoriesIn_of_erase hne).walk hwalk').symm.trans hwalk
  cases hsame
  rw [get?_erase _ _ _ hne, if_pos rfl] at hget
  cases hget

/-- A file whose bytes encode a text reads as the text. -/
theorem readText_of_readBytes_encoded {text : String}
    (h : t.readBytes path = .ok (Text.Utf8.encoded text)) : t.readText path = .ok text :=
  readText_eq_ok_iff.mpr ⟨_, h, Text.Utf8.decode?_encode text.toList⟩

end FileTree

end FlexGate
