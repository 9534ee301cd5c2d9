import FlexGate.Proofs.Analysis.Walks
import FlexGate.Proofs.Loop.Mending
import FlexGate.Proofs.Pattern.Scan
import FlexGate.Report.Document
import Mathlib.Data.List.Forall2

/-!
# The lines of a text report

A report carries pieces of the program: the bound of a critical loop, as it is and mended, and a
short name. Each was read on one line, so none holds a line feed (`staysOnLine_analyze`), and nor
does what is put around them. So the text report falls into the lines that were made for it and no
others (`splitLines_render`), each with the label of what it is for (`labelled_renderedLines`), and
what its second line says of the program is what the machine-readable form says
(`report_lines_exact`).
-/

set_option autoImplicit false
set_option relaxedAutoImplicit false

namespace FlexGate

/-! ### Wording -/

/-- Whether a string holds no line feed. -/
def Unbroken (s : String) : Prop := '\n' ∉ s.toList

namespace Unbroken

theorem ofList {text : List Char} (h : '\n' ∉ text) : Unbroken (String.ofList text) := by
  rwa [Unbroken, String.toList_ofList]

/-- A text that is written out. -/
theorem literal {text : List Char} (h : '\n' ∉ text := by decide) :
    Unbroken (String.ofList text) :=
  ofList h

theorem inQuotes {c : Char} (h : c ≠ '\n' := by decide) : Unbroken (Text.inQuotes c) := by
  simp [Unbroken, Text.inQuotes, h.symm]

theorem append {s t : String} (hs : Unbroken s) (ht : Unbroken t) : Unbroken (s ++ t) := by
  rw [Unbroken, String.toList_append, List.mem_append]
  exact not_or.mpr ⟨hs, ht⟩

theorem between {s t u : String} (hs : Unbroken s) (ht : Unbroken t) (hu : Unbroken u) :
    Unbroken (s ++ t ++ u) :=
  .append (.append hs ht) hu

theorem nat (n : Nat) : Unbroken (toString n) := by
  intro h
  have hdigit : '\n' ∈ Nat.toDigits 10 n := by simpa using h
  exact absurd (Nat.isDigit_of_mem_toDigits (by decide) (by decide) hdigit) (by decide)

end Unbroken

/-- Whether the piece of a line that a defect carries, if it does, holds no line feed. -/
def Defect.StaysOnLine : Defect → Prop
  | .inclusiveBound bound => '\n' ∉ bound
  | _ => True

/-- Whether the piece of a line that a warning carries, if it does, holds no line feed. -/
def Warning.StaysOnLine : Warning → Prop
  | .shortName _ name => '\n' ∉ name
  | _ => True

theorem FindingKind.unbroken_name (kind : FindingKind) : Unbroken kind.name := by
  cases kind <;> exact .literal

namespace Defect

theorem unbroken_message (d : Defect) : Unbroken d.message := by
  cases d with
  | inclusiveBound => exact .append .literal .literal
  | _ => exact .literal

theorem unbroken_rationale (d : Defect) : Unbroken d.rationale := by
  cases d with
  | inclusiveBound => exact .append .literal .literal
  | _ => exact .literal

theorem unbroken_suggestion {d : Defect} (h : d.StaysOnLine) : Unbroken d.suggestion := by
  cases d with
  | inclusiveBound bound =>
    have hadjust : '\n' ∉ LoopBound.adjust bound := fun hmem ↦
      (LoopBound.mem_adjust hmem).elim h (by decide)
    exact .between (.between .literal (.ofList h) .literal) (.ofList hadjust) .literal
  | closingBrace header =>
    cases header with
    | none => exact .between .literal .inQuotes .literal
    | some n => exact .between (.between .literal (.nat n) .literal) .inQuotes .literal
  | openingBrace openLine =>
    cases openLine with
    | none => exact .between .literal .inQuotes .literal
    | some n => exact .between (.between .literal .inQuotes .literal) (.nat n) .literal
  | _ => exact .literal

end Defect

theorem Finding.unbroken_place (f : Finding) : Unbroken f.place := by
  rw [Finding.place]
  split
  · exact .append (.between .literal (.nat _) .literal) (.nat _)
  · exact .append .literal (.nat _)

theorem Finding.unbroken_of_mem_rendered {f : Finding} (h : f.defect.StaysOnLine) {line : String}
    (hline : line ∈ f.rendered) : Unbroken line := by
  rw [Finding.rendered, List.mem_append, List.mem_append, List.mem_singleton] at hline
  rcases hline with (rfl | hline) | hline
  · exact .append (.between (.between .literal f.kind.unbroken_name .literal)
      f.unbroken_place .literal) f.defect.unbroken_message
  · split at hline
    · cases hline
    · rw [List.mem_singleton.mp hline]
      exact .append .literal (Defect.unbroken_suggestion h)
  · split at hline
    · cases hline
    · rw [List.mem_singleton.mp hline]
      exact .append .literal f.defect.unbroken_rationale

theorem Warning.unbroken_message {w : Warning} (h : w.StaysOnLine) : Unbroken w.message := by
  cases w with
  | mixedDialects => exact .literal
  | shortName line name =>
    exact .between (.between .literal (.nat line) .literal) (.ofList h) .literal
  | longLine line length =>
    exact .between (.between .literal (.nat line) .literal) (.nat length) .literal

theorem Advice.unbroken_message (a : Advice) : Unbroken a.message := by
  cases a <;> exact .literal

/-! ### The lines of a report -/

/-- What a line of a text report is for. -/
inductive LineRole
  | dialect
  | status
  | finding
  | help
  | why
  | warning
  | suggestion

/-- What a line starts with. -/
def LineRole.label : LineRole → String
  | .dialect => "dialect: "
  | .status => "status: "
  | .finding => "error["
  | .help => "  help: "
  | .why => "  why: "
  | .warning => "warning: "
  | .suggestion => "suggestion: "

/-- A line that starts with the label of its role. -/
def Labelled (role : LineRole) (line : String) : Prop := role.label.toList <+: line.toList

theorem labelled_append (role : LineRole) (rest : String) : Labelled role (role.label ++ rest) := by
  rw [Labelled, String.toList_append]
  exact List.prefix_append _ _

namespace Finding

/-- The lines of a finding: one for itself, and one each for the suggestion and the rationale that
are not empty. -/
def roles (f : Finding) : List LineRole :=
  [.finding] ++ (if f.defect.suggestion = "" then [] else [.help]) ++
    (if f.defect.rationale = "" then [] else [.why])

def lineCount (f : Finding) : Nat :=
  1 + (if f.defect.suggestion = "" then 0 else 1) + (if f.defect.rationale = "" then 0 else 1)

theorem length_roles (f : Finding) : f.roles.length = f.lineCount := by
  rw [roles, lineCount, List.length_append, List.length_append, List.length_singleton]
  split <;> split <;> rfl

theorem labelled_rendered (f : Finding) : List.Forall₂ Labelled f.roles f.rendered := by
  have hif {s : String} {role : LineRole} :
      List.Forall₂ Labelled (if s = "" then [] else [role])
        (if s.isEmpty then [] else [role.label ++ s]) := by
    simp only [String.isEmpty_iff]
    split
    · exact .nil
    · exact .cons (labelled_append role s) .nil
  refine List.rel_append (List.rel_append (.cons ?_ .nil) hif) hif
  simp only [String.append_assoc]
  exact labelled_append .finding _

end Finding

namespace Report

/-- What the lines of a report are for, from the first to the last. -/
def roles (r : Report) : List LineRole :=
  [.dialect, .status] ++ r.findings.flatMap Finding.roles ++
    r.warnings.map (fun _ ↦ .warning) ++ r.suggestions.map fun _ ↦ .suggestion

/-- How many lines a report has: two, those of its findings, and one for each warning and each
suggestion. -/
def lineCount (r : Report) : Nat :=
  2 + r.findings.foldr (fun f n ↦ f.lineCount + n) 0 + r.warnings.length + r.suggestions.length

theorem length_roles (r : Report) : r.roles.length = r.lineCount := by
  have hfindings (fs : List Finding) :
      (fs.flatMap Finding.roles).length = fs.foldr (fun f n ↦ f.lineCount + n) 0 := by
    induction fs with
    | nil => rfl
    | cons f fs ih =>
      rw [List.flatMap_cons, List.length_append, f.length_roles, ih, List.foldr_cons]
  simp only [roles, lineCount, List.length_append, hfindings, List.length_map]
  rfl

theorem labelled_renderedLines (r : Report) : List.Forall₂ Labelled r.roles r.renderedLines := by
  have hmap {α : Type} {role : LineRole} {text : α → String} (items : List α) :
      List.Forall₂ Labelled (items.map fun _ ↦ role)
        (items.map fun item ↦ role.label ++ text item) := by
    induction items with
    | nil => exact .nil
    | cons item items ih => exact .cons (labelled_append role _) ih
  have hfindings (fs : List Finding) :
      List.Forall₂ Labelled (fs.flatMap Finding.roles) (fs.flatMap Finding.rendered) := by
    induction fs with
    | nil => exact .nil
    | cons f fs ih => exact List.rel_append f.labelled_rendered ih
  have hhead : List.Forall₂ Labelled [.dialect, .status]
      ["dialect: " ++ r.dialect.name, "status: " ++ r.status] :=
    .cons (labelled_append .dialect _) (.cons (labelled_append .status _) .nil)
  exact List.rel_append (List.rel_append (List.rel_append hhead (hfindings _)) (hmap _)) (hmap _)

theorem length_renderedLines (r : Report) : r.renderedLines.length = r.lineCount :=
  r.labelled_renderedLines.length_eq.symm.trans r.length_roles

/-- The text of a report is its lines, each ended by a line feed. -/
theorem toList_render (r : Report) :
    r.render.toList = (r.renderedLines.map String.toList).flatMap (· ++ ['\n']) := by
  have hfold (lines : List String) (s : String) :
      ((lines.map fun line ↦ line ++ "\n").foldl (· ++ ·) s).toList =
        s.toList ++ (lines.map String.toList).flatMap (· ++ ['\n']) := by
    induction lines generalizing s with
    | nil => simp
    | cons line lines ih =>
      rw [List.map_cons, List.foldl_cons, ih, String.toList_append, String.toList_append,
        List.map_cons, List.flatMap_cons, List.append_assoc]
      rfl
  exact hfold r.renderedLines ""

/-- The pieces of lines that a report carries hold no line feed. -/
structure StaysOnLine (r : Report) : Prop where
  findings : ∀ f ∈ r.findings, f.defect.StaysOnLine
  warnings : ∀ w ∈ r.warnings, w.StaysOnLine

theorem unbroken_status (r : Report) : Unbroken r.status := by
  rw [status]
  split
  · exact .literal
  · split <;> exact .literal

theorem unbroken_of_mem_renderedLines {r : Report} (h : r.StaysOnLine) {line : String}
    (hline : line ∈ r.renderedLines) : Unbroken line := by
  simp only [renderedLines, List.mem_append, List.mem_cons, List.not_mem_nil, or_false,
    List.mem_flatMap, List.mem_map] at hline
  rcases hline with (((rfl | rfl) | ⟨f, hf, hline⟩) | ⟨w, hw, rfl⟩) | ⟨a, -, rfl⟩
  · refine .append .literal ?_
    cases r.dialect <;> exact .literal
  · exact .append .literal r.unbroken_status
  · exact Finding.unbroken_of_mem_rendered (h.findings f hf) hline
  · exact .append .literal (Warning.unbroken_message (h.warnings w hw))
  · exact .append .literal a.unbroken_message

theorem splitLines_render {r : Report} (h : r.StaysOnLine) :
    Text.splitLines r.render.toList = r.renderedLines.map String.toList ++ [[]] := by
  rw [toList_render]
  refine Text.splitLines_flatMap fun line hline ↦ ?_
  obtain ⟨s, hs, rfl⟩ := List.mem_map.mp hline
  exact unbroken_of_mem_renderedLines h hs

/-! ### The verdict -/

/-- A report has one of three statuses, one for each way the two flags can be. -/
theorem status_cases (r : Report) :
    (r.status = "acceptable" ∧ r.isAcceptable = true ∧ r.hasCriticalLoop = false) ∨
      (r.status = "rejected (critical loop-bound defect)" ∧ r.isAcceptable = false ∧
        r.hasCriticalLoop = true) ∨
      (r.status = "rejected" ∧ r.isAcceptable = false ∧ r.hasCriticalLoop = false) := by
  cases hacceptable : r.isAcceptable with
  | true =>
    have hcritical := hasCriticalLoop_eq_false_of_isAcceptable hacceptable
    exact .inl ⟨by simp [status, hcritical, hacceptable], rfl, hcritical⟩
  | false =>
    cases hcritical : r.hasCriticalLoop with
    | true => exact .inr (.inl ⟨by simp [status, hcritical], rfl, rfl⟩)
    | false => exact .inr (.inr ⟨by simp [status, hcritical, hacceptable], rfl, rfl⟩)

theorem status_iff (r : Report) :
    (r.status = "acceptable" ↔ r.isAcceptable = true) ∧
      (r.status = "rejected (critical loop-bound defect)" ↔ r.hasCriticalLoop = true) ∧
      (r.status = "rejected" ↔ r.isAcceptable = false ∧ r.hasCriticalLoop = false) := by
  rcases r.status_cases with ⟨hs, ha, hc⟩ | ⟨hs, ha, hc⟩ | ⟨hs, ha, hc⟩
  · simp [hs, ha, hc]
  · simp [hs, ha, hc]
  · simp [hs, ha, hc]

/-- The second line gives the status and nothing else. -/
theorem second_line_iff (r : Report) {line : String} (status : String)
    (hline : "status: " ++ status = line) :
    (r.renderedLines.map String.toList)[1]? = some line.toList ↔ r.status = status := by
  have hsecond : (r.renderedLines.map String.toList)[1]? = some ("status: " ++ r.status).toList :=
    rfl
  rw [hsecond, ← hline, Option.some_inj, String.toList_append, String.toList_append,
    List.append_right_inj, String.toList_inj]

end Report

/-- The member of an object with a name. -/
def Json.member? (name : String) : Json → Option Json
  | .object members => members.lookup name
  | _ => none

/-! ### What the analysis carries -/

theorem Defect.staysOnLine_of_kind_ne {d : Defect} (h : d.kind ≠ .criticalLoopBound) :
    d.StaysOnLine := by
  cases d with
  | inclusiveBound => exact absurd rfl h
  | _ => trivial

namespace Analysis

variable {line : List Char}

/-- A bound is a piece of its line. -/
theorem mem_of_mem_trimmedBound {h : LoopHeader} (hh : LoopHeader.find? line = some h) {c : Char}
    (hc : c ∈ h.trimmedBound) : c ∈ line := by
  obtain ⟨lead, after, rfl, -⟩ := LoopHeader.exists_of_find? hh
  obtain ⟨blanks, hbound, -⟩ := Text.eq_append_trim h.bound
  have hmem : c ∈ h.bound := by
    rw [hbound]
    exact List.mem_append_left _ (List.mem_append_right _ hc)
  exact List.mem_append_left _ (List.mem_append_right _ hmem)

/-- A short name is a piece of its line. -/
theorem mem_of_mem_shortNames {accepted : List String} {name : List Char}
    (hname : name ∈ shortNames accepted line) {c : Char} (hc : c ∈ name) : c ∈ line := by
  obtain ⟨m, hm, rfl⟩ := List.mem_map.mp (List.mem_of_mem_filter hname)
  have hline : m.span.first.text = line := Pattern.text_of_mem_findAllFrom hm
  rw [← hline]
  exact List.mem_append_right _ (List.mem_of_mem_take hc)

theorem staysOnLine_of_mem_safetyOnLine {n : Nat} {ahead : List (List Char)} {f : Finding}
    (hline : '\n' ∉ line) (hf : f ∈ safetyOnLine n line ahead) : f.defect.StaysOnLine := by
  rcases mem_safetyOnLine.mp hf with hf | hf | hf
  · obtain ⟨h, hh, ⟨-, rfl⟩ | ⟨-, -, -, rfl⟩⟩ := loopFinding?_eq_some_iff.mp hf
    · exact fun hmem ↦ hline (mem_of_mem_trimmedBound hh hmem)
    · trivial
  · obtain ⟨m, -, rfl⟩ := zeroDivisor?_eq_some_iff.mp hf
    trivial
  · obtain ⟨m, -, rfl⟩ := zeroModulus?_eq_some_iff.mp hf
    trivial

section Lines

variable {options : AnalysisOptions} {lines : List (List Char)}
  (hlines : ∀ line ∈ lines, '\n' ∉ line)

include hlines

theorem staysOnLine_of_mem_findings {f : Finding} (hf : f ∈ findings options lines) :
    f.defect.StaysOnLine := by
  by_cases hkind : f.kind = .criticalLoopBound
  · have hcheck : f.kind.check = .safety := by
      rw [hkind]
      rfl
    obtain ⟨i, line, hi, hf⟩ := (mem_findings_of_safety hcheck).mp hf
    exact staysOnLine_of_mem_safetyOnLine (hlines line (List.mem_of_getElem? hi)) hf
  · exact Defect.staysOnLine_of_kind_ne hkind

theorem staysOnLine_of_mem_nameWarningsFrom {accepted : List String} {n : Nat} {w : Warning}
    (hw : w ∈ nameWarningsFrom accepted n lines) : w.StaysOnLine := by
  induction lines generalizing n with
  | nil => cases hw
  | cons line rest ih =>
    obtain ⟨hline, hrest⟩ := List.forall_mem_cons.mp hlines
    rcases List.mem_append.mp hw with hw | hw
    · obtain ⟨name, hname, rfl⟩ := Option.map_eq_some_iff.mp (Option.mem_toList.mp hw)
      exact fun hmem ↦ hline (mem_of_mem_shortNames (List.mem_of_mem_head? hname) hmem)
    · exact ih hrest hw

omit hlines in
theorem staysOnLine_of_mem_lengthWarningsFrom {longest n : Nat} {w : Warning}
    (hw : w ∈ lengthWarningsFrom longest n lines) : w.StaysOnLine := by
  induction lines generalizing n with
  | nil => cases hw
  | cons line rest ih =>
    rcases List.mem_append.mp hw with hw | hw
    · split_ifs at hw
      · rw [List.mem_singleton.mp hw]
        trivial
      · cases hw
    · exact ih hw

theorem staysOnLine_of_mem_warnings {dialect : Dialect} {w : Warning}
    (hw : w ∈ warnings options dialect lines) : w.StaysOnLine := by
  rw [warnings, List.mem_append, List.mem_append] at hw
  rcases hw with (hw | hw) | hw
  · split_ifs at hw
    · rw [List.mem_singleton.mp hw]
      trivial
    · cases hw
  · exact staysOnLine_of_mem_nameWarningsFrom hlines hw
  · exact staysOnLine_of_mem_lengthWarningsFrom hw

end Lines

theorem staysOnLine_analyze (options : AnalysisOptions) (text : List Char) :
    (analyze options text).StaysOnLine :=
  ⟨fun _ ↦ staysOnLine_of_mem_findings fun _ ↦ Text.not_mem_of_mem_lines,
    fun _ ↦ staysOnLine_of_mem_warnings fun _ ↦ Text.not_mem_of_mem_lines⟩

end Analysis

/-- The text report of any program falls into two lines, those of the findings, the warnings and the
suggestions, in this order and each ended by a line feed, and the program adds no other. The second
line is one of three, and which one it is tells the two flags of the machine-readable form. -/
theorem report_lines_exact (options : AnalysisOptions) (source : String) :
    let r := Report.ofSource options source
    let lines := r.renderedLines.map String.toList
    Text.splitLines r.render.toList = lines ++ [[]] ∧
      lines.length = r.lineCount ∧ r.render.toList.count '\n' = r.lineCount ∧
      List.Forall₂ Labelled r.roles r.renderedLines ∧
      (lines[1]? = some "status: acceptable".toList ↔ r.isAcceptable = true) ∧
      (lines[1]? = some "status: rejected (critical loop-bound defect)".toList ↔
        r.hasCriticalLoop = true) ∧
      (lines[1]? = some "status: rejected".toList ↔
        r.isAcceptable = false ∧ r.hasCriticalLoop = false) ∧
      r.json.member? "is_acceptable" = some (.bool r.isAcceptable) ∧
      r.json.member? "has_critical_loop_defect" = some (.bool r.hasCriticalLoop) := by
  intro r lines
  have hsplit : Text.splitLines r.render.toList = lines ++ [[]] :=
    Report.splitLines_render (Analysis.staysOnLine_analyze options source.toList)
  have hlength : lines.length = r.lineCount :=
    (List.length_map _).trans r.length_renderedLines
  have hcount : r.render.toList.count '\n' = r.lineCount := by
    have hlines := Text.length_splitLines r.render.toList
    rw [hsplit, List.length_append, hlength, List.length_singleton] at hlines
    exact (Nat.succ.inj hlines).symm
  obtain ⟨hacceptable, hcritical, hrejected⟩ := r.status_iff
  refine ⟨hsplit, hlength, hcount, r.labelled_renderedLines, ?_, ?_, ?_, rfl, rfl⟩
  · exact (r.second_line_iff "acceptable" (by simp)).trans hacceptable
  · exact (r.second_line_iff "rejected (critical loop-bound defect)" (by simp)).trans hcritical
  · exact (r.second_line_iff "rejected" (by simp)).trans hrejected

end FlexGate
