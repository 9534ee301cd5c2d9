import FlexGate.Proofs.Path.Stems
import FlexGate.Proofs.Settings.Layers
import FlexGate.Source.Plan

/-!
# Which extensions of scripts can be used

Settings tell the extensions of scripts. Validation only asks that each starts with a point, while a
file is recognized as a script if what follows the last point of its name is one of them, without
the points it starts with. So an extension that has another point in it, or a slash, is accepted but
recognizes no file: a name that ends in it is one of a script just when it also ends in another
extension that is plain (`isScriptName_append_iff`).
-/

set_option autoImplicit false
set_option relaxedAutoImplicit false

namespace FlexGate

open FlexGate.Path (IsStem)

/-- An extension without the points that it starts with. -/
def bareExtension (e : String) : List Char := e.toList.dropWhile (· = '.')

/-- An extension that has no point but at its start, and no slash. -/
def IsPlainExtension (e : String) : Prop := '.' ∉ bareExtension e ∧ '/' ∉ bareExtension e

instance (e : String) : Decidable (IsPlainExtension e) := inferInstanceAs (Decidable (_ ∧ _))

theorem isStem_letter : IsStem ['x'] := ⟨by decide, 'x', by decide, by decide⟩

/-- The extension of the files that are named by a stem with a text behind it. The text starts with
a point, so any stem will do (`IsStem.extension?_append_congr`). -/
def endingOf? (text : List Char) : Option (List Char) := Path.extension? ('x' :: text)

namespace ExecutionSettings

variable {s : ExecutionSettings}

/-- Whether files with an extension are recognized as scripts, whatever the stem of their name and
the case of the extension. -/
def Recognizes (s : ExecutionSettings) (e : String) : Prop :=
  ∀ stem variant, IsStem stem → lowerAscii variant = lowerAscii e.toList →
    s.isScriptName (stem ++ variant) = true

/-- Whether an extension is plain or ends in one of the extensions of scripts that is. -/
def EndsPlainly (s : ExecutionSettings) (e : String) : Prop :=
  IsPlainExtension e ∨ ∃ known ∈ s.fileExtensions, IsPlainExtension known ∧
    (endingOf? e.toList).map lowerAscii = some (lowerAscii (bareExtension known))

theorem isScriptName_iff {path : Path} :
    s.isScriptName path = true ↔ ∃ known ∈ s.fileExtensions,
      path.extension?.map lowerAscii = some (lowerAscii (bareExtension known)) := by
  unfold isScriptName
  cases path.extension? with
  | none => simp
  | some ext =>
    show s.knowsExtension ext = true ↔ _
    unfold knowsExtension bareExtension
    rw [List.any_eq_true]
    simp only [beq_iff_eq, Option.map_some, Option.some.injEq]
    exact exists_congr fun known ↦ and_congr_right fun _ ↦ eq_comm

end ExecutionSettings

theorem Settings.exists_of_mem_fileExtensions {s : Settings} (h : s.Valid) {e : String}
    (he : e ∈ s.execution.fileExtensions) : ∃ rest, e.toList = '.' :: rest := by
  have hnone : s.violation? = none := by
    rw [Valid, validate] at h
    cases hviolation : s.violation? with
    | none => rfl
    | some cause => simp [hviolation] at h
  have hbad : badExtension? s.execution.fileExtensions = none := by
    have hmem : (badExtension? s.execution.fileExtensions).map (fun bad ↦
        SettingsFailure.invalidValue "extensions must start with '.'" "execution.file_extensions"
          bad "e.g. \".flex\"") ∈ s.violations := by
      simp [violations]
    exact Option.map_eq_none_iff.mp (List.findSome?_eq_none_iff.mp hnone _ hmem)
  have hhead : e.toList.head? = some '.' := by
    have hgood := List.find?_eq_none.mp hbad e he
    rw [Bool.or_eq_true, not_or] at hgood
    simpa using hgood.1
  exact List.head?_eq_some_iff.mp hhead

/-- An extension is what it is without points at the start, behind at least one point. -/
theorem exists_points {e : String} {rest : List Char} (he : e.toList = '.' :: rest) :
    ∃ n, e.toList = List.replicate n '.' ++ '.' :: bareExtension e := by
  have hpoints : ∀ c ∈ rest.takeWhile (· = '.'), c = '.' := by
    intro c hc
    simpa using List.mem_takeWhile_imp hc
  have hbare : bareExtension e = rest.dropWhile (· = '.') := by
    rw [bareExtension, he]
    rfl
  refine ⟨(rest.takeWhile (· = '.')).length, ?_⟩
  rw [he, hbare, ← List.singleton_append (l := rest.dropWhile (· = '.')), ← List.append_assoc,
    ← List.replicate_succ', List.replicate_succ, List.cons_append,
    ← List.eq_replicate_of_mem hpoints, List.takeWhile_append_dropWhile]

/-- A plain extension is the ending of the names that end in it. -/
theorem endingOf?_of_isPlainExtension {e : String} {rest : List Char} (he : e.toList = '.' :: rest)
    (h : IsPlainExtension e) : endingOf? e.toList = some (bareExtension e) := by
  obtain ⟨n, hpoints⟩ := exists_points he
  have hslash : '/' ∉ List.replicate n '.' := fun hmem ↦
    absurd (List.eq_of_mem_replicate hmem) (by decide)
  show Path.extension? (['x'] ++ e.toList) = _
  rw [hpoints, ← List.append_assoc]
  exact (isStem_letter.append hslash).extension?_append h.1 h.2

/-- The extension of a name that ends in an accepted extension is its ending, up to the case of
letters. -/
theorem map_extension?_append {e : String} {rest : List Char} (he : e.toList = '.' :: rest)
    {stem variant : List Char} (hstem : IsStem stem)
    (hvariant : lowerAscii variant = lowerAscii e.toList) :
    (Path.extension? (stem ++ variant)).map lowerAscii = (endingOf? e.toList).map lowerAscii := by
  have hlower : lowerAscii e.toList = '.' :: lowerAscii rest := by
    rw [he]
    rfl
  calc (Path.extension? (stem ++ variant)).map lowerAscii
      = Path.extension? (lowerAscii stem ++ '.' :: lowerAscii rest) := by
        rw [← Path.extension?_lowerAscii, lowerAscii_append, hvariant, hlower]
    _ = Path.extension? (['x'] ++ '.' :: lowerAscii rest) :=
        hstem.lowerAscii.extension?_append_congr isStem_letter (lowerAscii rest)
    _ = (endingOf? e.toList).map lowerAscii := by
        rw [endingOf?, ← Path.extension?_lowerAscii, he]
        rfl

/-- A file that is named by a stem with an accepted extension behind it is recognized if the
extension is plain or ends in another that is, and only then. -/
theorem isScriptName_append_iff {s : Settings} (h : s.Valid) {e : String}
    (he : e ∈ s.execution.fileExtensions) {stem variant : List Char} (hstem : IsStem stem)
    (hvariant : lowerAscii variant = lowerAscii e.toList) :
    s.execution.isScriptName (stem ++ variant) = true ↔ s.execution.EndsPlainly e := by
  obtain ⟨rest, hrest⟩ := s.exists_of_mem_fileExtensions h he
  rw [ExecutionSettings.isScriptName_iff, map_extension?_append hrest hstem hvariant]
  constructor
  · rintro ⟨known, hknown, heq⟩
    obtain ⟨ext, hext, hlower⟩ := Option.map_eq_some_iff.mp heq
    obtain ⟨hpoint, hslash⟩ := Path.not_mem_of_extension? hext
    refine .inr ⟨known, hknown, ⟨?_, ?_⟩, heq⟩
    · rwa [← mem_lowerAscii_iff (by decide), ← hlower, mem_lowerAscii_iff (by decide)]
    · rwa [← mem_lowerAscii_iff (by decide), ← hlower, mem_lowerAscii_iff (by decide)]
  · rintro (hplain | ⟨known, hknown, -, heq⟩)
    · exact ⟨e, he, by rw [endingOf?_of_isPlainExtension hrest hplain, Option.map_some]⟩
    · exact ⟨known, hknown, heq⟩

/-- Every accepted extension is recognized just when each is plain or ends in one that is. In any
case, whether an extension is recognized depends neither on the stem nor on the case of letters. -/
theorem accepted_extensions_recognized_iff {s : Settings} (h : s.Valid) :
    ((∀ e ∈ s.execution.fileExtensions, s.execution.Recognizes e) ↔
      ∀ e ∈ s.execution.fileExtensions, s.execution.EndsPlainly e) ∧
    ∀ e ∈ s.execution.fileExtensions, ∀ stem variant, IsStem stem →
      lowerAscii variant = lowerAscii e.toList →
        (s.execution.isScriptName (stem ++ variant) = true ↔ s.execution.EndsPlainly e) := by
  refine ⟨forall₂_congr fun e he ↦ ⟨?_, ?_⟩, fun e he stem variant ↦ isScriptName_append_iff h he⟩
  · intro hrecognizes
    exact (isScriptName_append_iff h he isStem_letter rfl).mp (hrecognizes _ _ isStem_letter rfl)
  · intro hends stem variant hstem hvariant
    exact (isScriptName_append_iff h he hstem hvariant).mpr hends

/-- Settings whose extensions of scripts are these. -/
def Settings.withExtensions (extensions : List String) : Settings :=
  { execution := { fileExtensions := extensions } }

/-- An extension with a point in it is recognized if what follows the point is an extension too. -/
theorem accepted_extensions_recognized_iff_nested :
    let s := Settings.withExtensions [".flex", ".test.flex"]
    s.Valid ∧ s.execution.isScriptName "Demo.Test.FLEX".toList = true := by
  intro s
  have hvalid : s.Valid := by
    rw [Settings.Valid]
    decide +kernel
  have hends : s.execution.EndsPlainly ".test.flex" :=
    .inr ⟨".flex", by decide, by decide, by decide⟩
  have hstem : IsStem "Demo".toList := ⟨by decide, 'D', by decide, by decide⟩
  exact ⟨hvalid, ((accepted_extensions_recognized_iff hvalid).2 ".test.flex" (by decide)
    "Demo".toList ".Test.FLEX".toList hstem (by decide)).mpr hends⟩

/-- An extension that validation accepts and that no file is recognized by, though it is the only
one. -/
theorem innerPoint_not_recognized :
    let s := Settings.withExtensions [".test.flex"]
    s.Valid ∧ IsStem "demo".toList ∧ s.execution.isScriptName "demo.test.flex".toList = false ∧
      ¬ ∀ e ∈ s.execution.fileExtensions, s.execution.Recognizes e := by
  intro s
  have hvalid : s.Valid := by
    rw [Settings.Valid]
    decide +kernel
  have hstem : IsStem "demo".toList := ⟨by decide, 'd', by decide, by decide⟩
  have hname : s.execution.isScriptName ("demo".toList ++ ".test.flex".toList) = false := by decide
  refine ⟨hvalid, hstem, hname, fun h ↦ ?_⟩
  have hrecognized := h ".test.flex" (by decide) "demo".toList ".test.flex".toList hstem rfl
  exact absurd (hname.symm.trans hrecognized) Bool.false_ne_true

end FlexGate
