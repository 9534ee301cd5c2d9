import FlexGate.Proofs.Path.Segments
import FlexGate.Proofs.Text.Lines
import FlexGate.Source.Plan

/-!
# The extension of a source that is kept

A kept source is put where the output directory leads with the name that was asked for, or with a
stamped one (`path_make_of_wantedName`, `path_make_of_no_wantedName`). If that path names no script,
the extension of scripts is put at its end, which makes it a script unless the name ends in a slash
(`isScriptName_append_scriptExtension`). So just then a kept source may be none
(`kept_source_stays_script_iff`).
-/

set_option autoImplicit false
set_option relaxedAutoImplicit false

namespace FlexGate

/-- Neither part of a stamp has a slash in it, as there is none in dates and in digits. -/
def RunStamp.HasNoSlash (stamp : RunStamp) : Prop :=
  '/' ∉ stamp.time.toList ∧ '/' ∉ stamp.id.text.toList

instance (stamp : RunStamp) : Decidable stamp.HasNoSlash :=
  inferInstanceAs (Decidable (_ ∧ _))

theorem ExecutionSettings.knowsExtension_flex {s : ExecutionSettings}
    (h : ".flex" ∈ s.fileExtensions) : s.knowsExtension "flex".toList = true :=
  List.any_eq_true.mpr ⟨".flex", h, by decide⟩

namespace SourcePlan

variable {s : ExecutionSettings} {fileName : Option String} {stamp : RunStamp} {name : List Char}

/-! ### The name that is asked for -/

theorem wantedName_eq_some_iff :
    wantedName fileName = some name ↔
      name ≠ [] ∧ ∃ text, fileName = some text ∧ Text.trim text.toList = name := by
  cases fileName with
  | none => simp [wantedName]
  | some text =>
    simp only [wantedName, Option.map_some, Option.filter_eq_some_iff, Option.some.injEq,
      Bool.not_eq_true', List.isEmpty_eq_false_iff, exists_eq_left']
    exact and_comm

/-- A text with no blank at either end is wanted as it is. -/
theorem wantedName_ofList (hne : name ≠ [])
    (hhead : ∀ c, name.head? = some c → Text.isBlank c = false)
    (hlast : ∀ c, name.getLast? = some c → Text.isBlank c = false) :
    wantedName (some (String.ofList name)) = some name := by
  have htrim : Text.trim ([] ++ name ++ []) = name :=
    Text.trim_append nofun nofun hne hhead hlast
  rw [List.nil_append, List.append_nil] at htrim
  exact wantedName_eq_some_iff.mpr ⟨hne, _, rfl, by rw [String.toList_ofList, htrim]⟩

theorem path_make_of_wantedName (h : wantedName fileName = some name) :
    (make s fileName true stamp).path = asScript s (Path.join s.outputDir.toList name) := by
  change kept s fileName stamp = _
  simp only [kept, h]

theorem path_make_of_no_wantedName (h : wantedName fileName = none) :
    (make s fileName true stamp).path =
      Path.join s.outputDir.toList (stampedName "execution" stamp) := by
  change kept s fileName stamp = _
  simp only [kept, h]

/-! ### The extension -/

theorem isScriptName_append_scriptExtension (hflex : ".flex" ∈ s.fileExtensions) (p : Path) :
    s.isScriptName (p ++ scriptExtension) = true ↔ ¬ (p = [] ∨ p.getLast? = some '/') := by
  have hext : (p ++ scriptExtension).extension? =
      if p = [] ∨ p.getLast? = some '/' then none else some "flex".toList :=
    Path.extension?_append (by decide) (by decide) (by decide) p
  rw [ExecutionSettings.isScriptName, hext]
  by_cases hend : p = [] ∨ p.getLast? = some '/'
  · rw [if_pos hend]
    exact iff_of_false Bool.false_ne_true (not_not_intro hend)
  · rw [if_neg hend]
    exact iff_of_true (ExecutionSettings.knowsExtension_flex hflex) hend

theorem isVoid_append_scriptExtension (name : List Char) :
    Path.isVoid (name ++ scriptExtension) = false :=
  Path.isVoid_append (by decide) (by decide) name

theorem append_scriptExtension_ne_up (name : List Char) : name ++ scriptExtension ≠ ['.', '.'] :=
  Path.append_ne_up (by decide) (by decide) name

/-- Where the extension is all that stands behind the last slash, it is a name without one. -/
theorem bare_extension {p : Path} (h : p = [] ∨ p.getLast? = some '/') :
    (p ++ scriptExtension).fileName? = some scriptExtension ∧
      (p ++ scriptExtension).extension? = none := by
  have hpoint : '.' ∉ "flex".toList := by decide
  have hslash : '/' ∉ "flex".toList := by decide
  obtain ⟨last, hlast, hname⟩ := Path.exists_fileName?_append hpoint hslash (by decide) p
  obtain rfl : last = [] := hlast.mpr h
  refine ⟨hname, ?_⟩
  have hext := Path.extension?_append hpoint hslash (by decide) p
  rwa [if_pos h] at hext

/-- A stamped name is one segment, with the extension of scripts behind something. -/
theorem exists_stampedName (h : stamp.HasNoSlash) :
    ∃ stem, stem ≠ [] ∧ '/' ∉ stem ∧ stampedName "execution" stamp = stem ++ scriptExtension := by
  refine ⟨("execution" ++ "_" ++ stamp.time ++ "_" ++ stamp.id.short).toList, ?_, ?_, rfl⟩
  · simp
  · have hshort : '/' ∉ stamp.id.short.toList := by
      rw [RunId.short, String.toList_ofList]
      exact fun hmem ↦ h.2 (List.mem_of_mem_filter (List.mem_of_mem_take hmem))
    simp [h.1, hshort]

theorem isScriptName_asScript_iff (hflex : ".flex" ∈ s.fileExtensions) {p : Path} (hp : p ≠ []) :
    s.isScriptName (asScript s p) = true ↔
      (p.getLast? = some '/' → s.isScriptName p = true) := by
  rw [asScript]
  by_cases hscript : s.isScriptName p = true
  · simp [hscript]
  · rw [if_neg hscript, isScriptName_append_scriptExtension hflex]
    simp [hp, hscript]

/-- The path of a kept source names a script, unless the name that is asked for ends in a slash. -/
theorem isScriptName_path_make_iff (hflex : ".flex" ∈ s.fileExtensions) (h : stamp.HasNoSlash) :
    s.isScriptName (make s fileName true stamp).path = true ↔
      ∀ name, wantedName fileName = some name → name.getLast? = some '/' →
        s.isScriptName (Path.join s.outputDir.toList name) = true := by
  cases hwanted : wantedName fileName with
  | some name =>
    have hne : name ≠ [] := (wantedName_eq_some_iff.mp hwanted).1
    rw [path_make_of_wantedName hwanted, isScriptName_asScript_iff hflex (Path.join_ne_nil hne _),
      Path.getLast?_join hne]
    simp only [Option.some.injEq, forall_eq']
  | none =>
    obtain ⟨stem, hne, hstem, hname⟩ := exists_stampedName h
    have hslash : stem.getLast? ≠ some '/' := fun hlast ↦ hstem (List.mem_of_getLast? hlast)
    rw [path_make_of_no_wantedName hwanted, hname, Path.join_append hne,
      isScriptName_append_scriptExtension hflex, Path.getLast?_join hne]
    simp [Path.join_ne_nil hne, hslash]

/-! ### Asking again -/

theorem not_isBlank_of_getLast?_append (p : Path) {c : Char}
    (h : (p ++ scriptExtension).getLast? = some c) : Text.isBlank c = false := by
  rw [List.getLast?_append_of_ne_nil p (by decide)] at h
  obtain rfl : 'x' = c := Option.some.inj h
  decide

theorem not_isBlank_of_getLast?_path {c : Char}
    (h : (make s fileName true stamp).path.getLast? = some c) : Text.isBlank c = false := by
  cases hwanted : wantedName fileName with
  | some name =>
    obtain ⟨hne, text, -, htrim⟩ := wantedName_eq_some_iff.mp hwanted
    rw [path_make_of_wantedName hwanted, asScript] at h
    split at h
    · rw [Path.getLast?_join hne, ← htrim] at h
      exact Text.not_isBlank_of_getLast?_trim h
    · exact not_isBlank_of_getLast?_append _ h
  | none =>
    rw [path_make_of_no_wantedName hwanted, Path.getLast?_join (by simp [stampedName])] at h
    exact not_isBlank_of_getLast?_append _ h

/-- When the path of a kept source is asked for, as an absolute name, at most the extension is put
to it. -/
theorem path_make_again {path : Path} (hpath : (make s fileName true stamp).path = path)
    (habsolute : path.isAbsolute = true) (later : RunStamp) :
    (make s (some (String.ofList path)) true later).path = asScript s path := by
  obtain ⟨rest, rfl⟩ : ∃ rest, path = '/' :: rest :=
    List.head?_eq_some_iff.mp (by simpa [Path.isAbsolute] using habsolute)
  have hhead : ∀ c, List.head? ('/' :: rest) = some c → Text.isBlank c = false := by
    rintro c hc
    obtain rfl : '/' = c := Option.some.inj hc
    decide
  have hlast : ∀ c, List.getLast? ('/' :: rest) = some c → Text.isBlank c = false :=
    fun c hc ↦ not_isBlank_of_getLast?_path (hpath ▸ hc)
  have hwanted := wantedName_ofList (List.cons_ne_nil '/' rest) hhead hlast
  rw [path_make_of_wantedName hwanted, Path.join_of_isAbsolute habsolute]

/-- What is expected of a kept source: its path names a script, and if the path is absolute, the
source gets the same path when that is asked for. -/
structure StaysScript (s : ExecutionSettings) (fileName : Option String) (stamp : RunStamp) :
    Prop where
  isScriptName : s.isScriptName (make s fileName true stamp).path = true
  again : ∀ path, (make s fileName true stamp).path = path → path.isAbsolute = true →
    ∀ later, (make s (some (String.ofList path)) true later).path = path

theorem staysScript_iff :
    StaysScript s fileName stamp ↔ s.isScriptName (make s fileName true stamp).path = true := by
  refine ⟨StaysScript.isScriptName, fun h ↦ ⟨h, ?_⟩⟩
  rintro path rfl habsolute later
  rw [path_make_again rfl habsolute, asScript, if_pos h]

/-- When a kept source is a script under its path: unless the name that is asked for ends in a slash
and names no script before that. In that case the path ends in the bare extension, which is a name
without an extension, and the extension is put to the path once more when that is asked for. -/
theorem kept_source_stays_script_iff (s : ExecutionSettings) (fileName : Option String)
    (stamp : RunStamp) (hflex : ".flex" ∈ s.fileExtensions) (hstamp : stamp.HasNoSlash) :
    (StaysScript s fileName stamp ↔
      ∀ name, wantedName fileName = some name → name.getLast? = some '/' →
        s.isScriptName (Path.join s.outputDir.toList name) = true) ∧
    (¬ StaysScript s fileName stamp → ∀ path, (make s fileName true stamp).path = path →
      path.fileName? = some scriptExtension ∧ path.extension? = none ∧
      (path.isAbsolute = true → ∀ later,
        (make s (some (String.ofList path)) true later).path = path ++ scriptExtension)) := by
  refine ⟨staysScript_iff.trans (isScriptName_path_make_iff hflex hstamp), ?_⟩
  intro hnot path hpath
  rw [staysScript_iff, hpath] at hnot
  have hnames := hnot
  rw [← hpath, isScriptName_path_make_iff hflex hstamp] at hnames
  simp only [not_forall] at hnames
  obtain ⟨name, hwanted, hslash, hscript⟩ := hnames
  have hne : name ≠ [] := (wantedName_eq_some_iff.mp hwanted).1
  have hend : (Path.join s.outputDir.toList name).getLast? = some '/' := by
    rw [Path.getLast?_join hne, hslash]
  have hbare : path = Path.join s.outputDir.toList name ++ scriptExtension := by
    rw [← hpath, path_make_of_wantedName hwanted, asScript, if_neg hscript]
  obtain ⟨hfile, hext⟩ := bare_extension (.inr hend)
  rw [← hbare] at hfile hext
  refine ⟨hfile, hext, fun habsolute later ↦ ?_⟩
  rw [path_make_again hpath habsolute, asScript, if_neg hnot]

/-- A slash behind the name of a script does no harm. -/
theorem kept_source_stays_script_iff_trailingSlash :
    ".flex" ∈ ({} : ExecutionSettings).fileExtensions ∧
    (⟨"20240229_123456", .ofNumber 7⟩ : RunStamp).HasNoSlash ∧
    StaysScript {} (some " /srv/demo.FLX/ ") ⟨"20240229_123456", .ofNumber 7⟩ := by
  have hflex : ".flex" ∈ ({} : ExecutionSettings).fileExtensions := by decide
  have hstamp : (⟨"20240229_123456", .ofNumber 7⟩ : RunStamp).HasNoSlash := by decide
  refine ⟨hflex, hstamp, ?_⟩
  rw [(kept_source_stays_script_iff {} (some " /srv/demo.FLX/ ") _ hflex hstamp).1]
  intro name hwanted _
  have hname : wantedName (some " /srv/demo.FLX/ ") = some "/srv/demo.FLX/".toList := by decide
  obtain rfl : "/srv/demo.FLX/".toList = name := Option.some.inj (hname.symm.trans hwanted)
  decide

/-- Where a directory is asked for, the source is kept in it under the bare extension. -/
theorem demosDirectory_not_staysScript :
    (make {} (some "demos/") true ⟨"20240229_123456", .ofNumber 7⟩).path =
      "./flex_examples/demos/.flex".toList ∧
    ¬ StaysScript {} (some "demos/") ⟨"20240229_123456", .ofNumber 7⟩ := by
  refine ⟨by decide, fun h ↦ ?_⟩
  have hscript := h.isScriptName
  revert hscript
  decide

end SourcePlan

end FlexGate
