import FlexGate.Proofs.FileTree.Files
import FlexGate.Proofs.Path.Segments

/-!
# The directory above a path

The names of a path begin with those of its parent (`exists_names_of_parent?`), so what a path leads
to needs its parent to be a directory (`isDirectory_parent`, `isDirectory_parent_of_readBytes`).
Where making directories failed there is no directory, and where writing failed there is no file
(`readBytes_of_failed_writeText`).
-/

set_option autoImplicit false
set_option relaxedAutoImplicit false

namespace FlexGate

namespace Path

/-- Void segments at the end are dropped, up to one that is not void. -/
theorem exists_dropVoidEnd (first : List Char) (rest : List (List Char)) :
    ∃ kept voids, dropVoidEnd (first :: rest) = first :: kept ∧ rest = kept ++ voids ∧
      ∀ last, kept.getLast? = some last → isVoid last = false := by
  refine ⟨(rest.reverse.dropWhile isVoid).reverse, (rest.reverse.takeWhile isVoid).reverse, rfl, ?_,
    fun last hlast ↦ ?_⟩
  · rw [← List.reverse_append, List.takeWhile_append_dropWhile, List.reverse_reverse]
  · have hhead := List.head?_dropWhile_not isVoid rest.reverse
    rw [List.getLast?_reverse] at hlast
    rw [hlast] at hhead
    simpa using hhead

/-- The parent of a path is what stands before some slash that a name follows. -/
theorem exists_of_parent? {p q : Path} (h : p.parent? = some q) (hq : q ≠ []) :
    ∃ a b, p = a ++ '/' :: b ∧ (q = a ∨ a = [] ∧ q = ['/']) ∧
      ∃ name ∈ segments b, name ≠ [] := by
  obtain ⟨first, rest, hsegments⟩ := List.exists_cons_of_ne_nil (segments_ne_nil p)
  obtain ⟨kept, voids, hkept, hrest, hlast⟩ := exists_dropVoidEnd first rest
  rw [parent?, hsegments, hkept] at h
  obtain rfl | ⟨start, last, rfl⟩ := List.eq_nil_or_concat kept
  · dsimp only at h
    split at h
    · cases h
    · exact absurd (Option.some.inj h).symm hq
  · rw [List.concat_eq_append] at *
    have hlast' : isVoid last = false := hlast last (by simp)
    obtain ⟨above, voids', habove, hstart, -⟩ := exists_dropVoidEnd first start
    have hsplit : segments p = (first :: above) ++ (voids' ++ last :: voids) := by
      simp [hsegments, hrest, hstart]
    obtain ⟨a, b, hp, ha, hb⟩ := exists_of_segments_eq_append hsplit (by simp) (by simp)
    obtain ⟨second, more, hmore⟩ := List.exists_cons_of_ne_nil (List.concat_ne_nil last start)
    rw [hmore] at h
    dsimp only at h
    rw [← hmore, List.dropLast_concat, habove, ← ha] at h
    refine ⟨a, b, hp, ?_, last, by simp [hb], ?_⟩
    · split at h
      case h_1 hroot =>
        have hnil := intercalate_segments a
        rw [hroot] at hnil
        exact .inr ⟨hnil.symm, (Option.some.inj h).symm⟩
      case h_2 =>
        rw [intercalate_segments] at h
        exact .inl (Option.some.inj h).symm
    · rintro rfl
      simp [isVoid] at hlast'

end Path

namespace FileTree

variable {t t' : FileTree} {path parent : Path} {place : Place}

theorem byteLength_append (a b : List Char) :
    byteLength (a ++ b) = byteLength a + byteLength b := by
  have hfrom (text : List Char) (n : Nat) :
      text.foldl (fun n c ↦ n + c.utf8Size) n = n + byteLength text := by
    induction text generalizing n with
    | nil => rfl
    | cons c text ih =>
      rw [byteLength, List.foldl_cons, List.foldl_cons, ih, ih (0 + c.utf8Size), Nat.zero_add,
        Nat.add_assoc]
  rw [byteLength, List.foldl_append, hfrom]
  rfl

theorem names_append_slash (a b : Path) : names (a ++ '/' :: b) = names a ++ names b := by
  rw [names, Path.segments_append_slash, List.filter_append]
  rfl

/-- The names of a path begin with those of its parent, from the same start, and more follow. -/
theorem exists_names_of_parent? (h : path.parent? = some parent) (hparent : parent ≠ []) :
    ∃ more, more ≠ [] ∧ names path = names parent ++ more ∧
      (∀ t : FileTree, t.origin parent = t.origin path) ∧
      (IsWalkable path → IsWalkable parent) := by
  obtain ⟨a, b, rfl, hq, name, hname, hne⟩ := Path.exists_of_parent? h hparent
  have hmore : names b ≠ [] := List.ne_nil_of_mem (List.mem_filter.mpr ⟨hname, by simpa using hne⟩)
  refine ⟨names b, hmore, ?_, ?_, ?_⟩
  · rw [names_append_slash]
    rcases hq with rfl | ⟨rfl, rfl⟩ <;> rfl
  · intro t
    rcases hq with rfl | ⟨rfl, rfl⟩
    · obtain ⟨c, rest, rfl⟩ := List.exists_cons_of_ne_nil hparent
      rfl
    · rfl
  · rintro ⟨-, hnul, hshort⟩
    rw [byteLength_append] at hshort
    rcases hq with rfl | ⟨rfl, rfl⟩
    · exact ⟨hparent, fun hmem ↦ hnul (List.mem_append_left _ hmem), by omega⟩
    · exact ⟨hparent, by decide, by decide⟩

/-- A walk whose last step was not taken leads to a directory just when that step can be taken into
it. -/
theorem isDirectory_of_walk {last : List Char} {slash : Bool}
    (h : t.walk path = .ok (place, lastStep last slash)) :
    t.isDirectory path = true ↔ ∃ q, t.enter place last = .ok q := by
  simp only [isDirectory, find, h, ok_bind, enter, lastStep]
  by_cases hhere : last = ['.']
  · simp [hhere]
  by_cases hup : last = ['.', '.']
  · simp [hup]
  rw [if_neg hhere, if_neg hup, if_neg hhere, if_neg hup]
  by_cases hlong : maxNameBytes < byteLength last
  · simp [hlong]
  · cases hget : t.get? (place ++ [last]) with
    | none => simp [hlong, hget]
    | some node =>
      cases node <;> cases slash <;>
        simp [hlong, hget]

/-- A path leads to a directory just when all its names can be entered. -/
theorem isDirectory_iff :
    t.isDirectory path = true ↔
      IsWalkable path ∧ ∃ place, t.enterAll (t.origin path) (names path) = .ok place := by
  constructor
  · intro h
    cases hwalk : t.walk path with
    | error fault => simp [isDirectory, find, hwalk] at h
    | ok reached =>
      obtain ⟨place, step⟩ := reached
      obtain ⟨hpath, ⟨hnil, -, -⟩ | ⟨last, hlast, henter, rfl⟩⟩ := walk_eq_ok_iff.mp hwalk
      · exact ⟨hpath, t.origin path, by rw [hnil, enterAll_nil]⟩
      · obtain ⟨q, hq⟩ := (isDirectory_of_walk hwalk).mp h
        refine ⟨hpath, q, ?_⟩
        rw [← List.dropLast_append_getLast? last hlast, enterAll_append_eq_ok_iff]
        exact ⟨place, henter, enterAll_cons_eq_ok_iff.mpr ⟨q, hq, rfl⟩⟩
  · rintro ⟨hpath, place, henter⟩
    cases hlast : (names path).getLast? with
    | none =>
      have hwalk : t.walk path = .ok (t.origin path, .stay) :=
        walk_eq_ok_iff.mpr ⟨hpath, .inl ⟨List.getLast?_eq_none_iff.mp hlast, rfl, rfl⟩⟩
      simp [isDirectory, find, hwalk]
    | some last =>
      rw [← List.dropLast_append_getLast? last hlast, enterAll_append_eq_ok_iff] at henter
      obtain ⟨next, hnext, hrest⟩ := henter
      obtain ⟨q, hq, -⟩ := enterAll_cons_eq_ok_iff.mp hrest
      exact (isDirectory_of_walk (walk_eq_ok_iff.mpr
        ⟨hpath, .inr ⟨last, hlast, hnext, rfl⟩⟩)).mpr ⟨q, hq⟩

theorem isDirectory_parent (h : t.isDirectory path = true) (hparent : path.parent? = some parent)
    (hne : parent ≠ []) : t.isDirectory parent = true := by
  obtain ⟨more, -, hnames, horigin, hwalkable⟩ := exists_names_of_parent? hparent hne
  obtain ⟨hpath, place, henter⟩ := isDirectory_iff.mp h
  rw [hnames, enterAll_append_eq_ok_iff] at henter
  obtain ⟨next, hnext, -⟩ := henter
  exact isDirectory_iff.mpr ⟨hwalkable hpath, next, horigin t ▸ hnext⟩

theorem isDirectory_parent_of_readBytes {bytes : List UInt8} (h : t.readBytes path = .ok bytes)
    (hparent : path.parent? = some parent) (hne : parent ≠ []) :
    t.isDirectory parent = true := by
  obtain ⟨more, hmore, hnames, horigin, hwalkable⟩ := exists_names_of_parent? hparent hne
  obtain ⟨q, executable, hfind⟩ := readBytes_eq_ok_iff.mp h
  obtain ⟨place, name, hwalk, -⟩ := find_eq_file_iff.mp hfind
  obtain ⟨hpath, ⟨-, -, hstep⟩ | ⟨last, -, henter, -⟩⟩ := walk_eq_ok_iff.mp hwalk
  · cases hstep
  · rw [hnames, List.dropLast_append_of_ne_nil hmore, enterAll_append_eq_ok_iff] at henter
    obtain ⟨next, hnext, -⟩ := henter
    exact isDirectory_iff.mpr ⟨hwalkable hpath, next, horigin t ▸ hnext⟩

/-! ### Where something failed -/

theorem isDirectory_eq_false_of_ensureDirectory {fault : IoFault}
    (h : t.ensureDirectory path = .error fault) : t.isDirectory path = false := by
  rw [ensureDirectory] at h
  cases hmake : t.makeDirectory path with
  | ok made => simp [hmake] at h
  | error fault =>
    simp only [hmake] at h
    split at h
    · cases h
    · exact Bool.eq_false_iff.mpr ‹_›

theorem ensureAll_cons_eq_some {above : List Path} {fault : IoFault}
    (h : t.ensureAll (path :: above) = (t', some fault)) :
    t'.isDirectory path = false ∨ t.ensureAll above = (t', some fault) := by
  rw [ensureAll] at h
  split at h
  case h_1 => cases h
  case h_2 hmissing =>
    split at h
    case h_1 made cause hfailed =>
      cases h
      exact .inr hfailed
    case h_2 made hmade =>
      split at h
      case h_1 => cases h
      case h_2 hagain =>
        cases h
        exact .inl (isDirectory_eq_false_of_ensureDirectory hagain)
  case h_3 hfailed =>
    cases h
    exact .inl (isDirectory_eq_false_of_ensureDirectory hfailed)

/-- Where making directories failed, there is no directory. -/
theorem isDirectory_eq_false_of_ensureAll {fuel : Nat} {fault : IoFault}
    (h : t.ensureAll (ancestors fuel path) = (t', some fault)) : t'.isDirectory path = false := by
  induction fuel generalizing path with
  | zero => cases h
  | succ fuel ih =>
    rw [ancestors] at h
    split at h
    · cases h
    · cases hparent : path.parent? with
      | none =>
        rw [hparent] at h
        exact (ensureAll_cons_eq_some h).resolve_right nofun
      | some parent =>
        rw [hparent] at h
        rcases ensureAll_cons_eq_some h with hpath | habove
        · exact hpath
        · have hne : parent ≠ [] := by
            rintro rfl
            cases fuel <;> cases habove
          have hnot : t'.isDirectory parent = false := ih habove
          exact Bool.eq_false_iff.mpr fun hdirectory ↦
            Bool.eq_false_iff.mp hnot (isDirectory_parent hdirectory hparent hne)

/-- The tree in which the directories above a file were made, as far as that went. -/
def withParents (t : FileTree) (path : Path) : FileTree × Option IoFault :=
  match path.parent? with
  | some parent => if parent.isEmpty then (t, none) else makeDirectories t parent
  | none => (t, none)

theorem writeText_eq (t : FileTree) (path : Path) (text : String) :
    t.writeText path text =
      match t.withParents path with
      | (made, some fault) => (made, some fault)
      | (made, none) =>
        match made.writeBytes path (Text.Utf8.encoded text) with
        | .ok written => (written, none)
        | .error fault => (made, some fault) := by
  rw [writeText, withParents]
  cases path.parent? with
  | none => rfl
  | some parent =>
    dsimp only
    cases parent.isEmpty with
    | true => rfl
    | false =>
      rw [if_neg Bool.false_ne_true]
      rcases t.makeDirectories parent with ⟨made, _ | fault⟩ <;> rfl

/-- To write a text, the directories above were made, and then the file was written. -/
theorem exists_of_writeText {text : String} (h : t.writeText path text = (t', none)) :
    ∃ made, t.withParents path = (made, none) ∧
      made.writeBytes path (Text.Utf8.encoded text) = .ok t' := by
  rw [writeText_eq] at h
  rcases hmade : t.withParents path with ⟨made, _ | fault⟩
  · rw [hmade] at h
    cases hwrite : made.writeBytes path (Text.Utf8.encoded text) with
    | ok written =>
      obtain rfl : written = t' := by simpa [hwrite] using h
      exact ⟨made, rfl, hwrite⟩
    | error fault => simp [hwrite] at h
  · simp [hmade] at h

/-- Writing fails at a directory above, or else at the file. -/
theorem cases_of_failed_writeText {text : String} {fault : IoFault}
    (h : t.writeText path text = (t', some fault)) :
    t.withParents path = (t', some fault) ∨
      t.withParents path = (t', none) ∧
        t'.writeBytes path (Text.Utf8.encoded text) = .error fault := by
  rw [writeText_eq] at h
  rcases hmade : t.withParents path with ⟨made, _ | cause⟩
  · rw [hmade] at h
    cases hwrite : made.writeBytes path (Text.Utf8.encoded text) with
    | ok written => simp [hwrite] at h
    | error cause =>
      obtain ⟨rfl, rfl⟩ : made = t' ∧ cause = fault := by simpa [hwrite] using h
      exact .inr ⟨rfl, hwrite⟩
  · rw [hmade] at h
    exact .inl h

/-- Where writing succeeded, the text is read. -/
theorem readBytes_of_writeText {text : String} (h : t.writeText path text = (t', none)) :
    t'.readBytes path = .ok (Text.Utf8.encoded text) := by
  obtain ⟨made, -, hwrite⟩ := exists_of_writeText h
  exact readBytes_writeBytes hwrite

theorem isDirectory_parent_eq_false_of_withParents {fault : IoFault}
    (h : t.withParents path = (t', some fault)) :
    ∃ parent, path.parent? = some parent ∧ parent ≠ [] ∧ t'.isDirectory parent = false := by
  rw [withParents] at h
  split at h
  case h_1 parent hparent =>
    split at h
    · cases h
    · exact ⟨parent, hparent, by simpa using ‹¬ parent.isEmpty = true›,
        isDirectory_eq_false_of_ensureAll h⟩
  case h_2 => cases h

/-- Where writing failed, no file is read. -/
theorem readBytes_of_failed_writeText {text : String} {fault : IoFault}
    (h : t.writeText path text = (t', some fault)) (bytes : List UInt8) :
    t'.readBytes path ≠ .ok bytes := by
  intro hread
  rcases cases_of_failed_writeText h with hmade | ⟨-, hwrite⟩
  · -- A directory is missing above the file.
    obtain ⟨parent, hparent, hne, hnot⟩ := isDirectory_parent_eq_false_of_withParents hmade
    rw [isDirectory_parent_of_readBytes hread hparent hne] at hnot
    cases hnot
  · -- A file that can be read could have been written.
    obtain ⟨q, executable, hfind⟩ := readBytes_eq_ok_iff.mp hread
    rw [writeBytes_of_find hfind] at hwrite
    cases hwrite

end FileTree

end FlexGate
