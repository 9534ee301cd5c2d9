import FlexGate.Proofs.Loop.Agreement

/-!
# Headers behind the first one of a line

A block that is written on one line can hold a loop of its own, and then the line has several
headers. Analysis and mending look at the first header of a line only. So a program is reported
exactly when the first header of some line is critical (`hasCriticalLoop_iff`), mending leaves the
critical bounds behind the first header where they are (`criticalBounds_line`), and every critical
header is reported and mended just when none stands behind another on its line
(`criticalCovered_iff`).
-/

set_option autoImplicit false
set_option relaxedAutoImplicit false

namespace FlexGate

open LoopHeader

/-- Every critical header of a program is covered, wherever it stands on its line: the report on
the program has a critical loop if there is one, and none is left after mending. -/
structure CriticalCovered (options : AnalysisOptions) (s : String) : Prop where
  reported : (∃ line ∈ Text.lines s.toList, ∃ h ∈ all line, h.isCritical = true) →
    (Report.ofSource options s).hasCriticalLoop = true
  mended : ∀ line ∈ Text.lines (Repair.mended s).toList, ∀ h ∈ all line, h.isCritical = false

/-- The critical bounds of some headers. -/
def criticalBounds (headers : List LoopHeader) : List (List Char) :=
  (headers.map trimmedBound).filter LoopBound.isCritical

theorem criticalBounds_eq_nil_iff {headers : List LoopHeader} :
    criticalBounds headers = [] ↔ ∀ h ∈ headers, h.isCritical = false := by
  rw [criticalBounds, List.filter_eq_nil_iff, List.forall_mem_map]
  exact forall₂_congr fun h _ ↦ iff_of_eq (Bool.not_eq_true h.isCritical)

/-- Of the critical bounds on a line, mending leaves those behind the first header. -/
theorem criticalBounds_line (line : List Char) :
    criticalBounds (all (Repair.line line)) = criticalBounds (all line).tail := by
  rw [criticalBounds, trimmedBounds_line]
  cases all line with
  | nil => rfl
  | cons h later =>
    have hsettled := LoopBound.isCritical_settled h.trimmedBound
    simp [criticalBounds, hsettled]

/-- Which headers stand on a line does not depend on what ends it. -/
theorem forall_mem_lines {text : List Char} (p : List LoopHeader → Prop) :
    (∀ line ∈ Text.lines text, p (all line)) ↔ ∀ line ∈ Text.splitLines text, p (all line) := by
  rw [Text.lines, List.forall_mem_map]
  exact forall₂_congr fun line _ ↦ by rw [all_withoutReturn]

theorem exists_mem_loopFindings {text : List Char} :
    (∃ f, f ∈ loopFindings text) ↔
      ∃ line ∈ Text.lines text, ∃ h ∈ (all line).head?, h.isCritical = true := by
  simp only [head?_all, Option.mem_def]
  constructor
  · rintro ⟨f, hf⟩
    obtain ⟨i, line, h, hi, hh, hc, -⟩ := mem_loopFindings.mp hf
    refine ⟨Text.withoutReturn line, List.mem_map_of_mem (List.mem_of_getElem? hi), h, ?_, hc⟩
    rw [find?_withoutReturn, hh]
  · rintro ⟨line, hline, h, hh, hc⟩
    obtain ⟨cut, hcut, rfl⟩ := List.mem_map.mp hline
    obtain ⟨i, hi⟩ := List.getElem?_of_mem hcut
    rw [find?_withoutReturn] at hh
    exact ⟨_, mem_loopFindings.mpr ⟨i, cut, h, hi, hh, hc, rfl⟩⟩

theorem hasCriticalLoop_iff {options : AnalysisOptions} {s : String} :
    (Report.ofSource options s).hasCriticalLoop = true ↔
      ∃ line ∈ Text.lines s.toList, ∃ h ∈ (all line).head?, h.isCritical = true := by
  rw [← exists_mem_loopFindings, ← List.isEmpty_eq_false_iff_exists_mem, ← Bool.not_eq_false,
    hasCriticalLoop_ofSource_eq_false_iff, isLoopSafe, Bool.not_eq_true]

/-- Mending makes every header safe just where no later header of a line is critical. -/
theorem forall_mem_lines_mended_iff {s : String} :
    (∀ line ∈ Text.lines (Repair.mended s).toList, ∀ h ∈ all line, h.isCritical = false) ↔
      ∀ line ∈ Text.lines s.toList, ∀ h ∈ (all line).tail, h.isCritical = false := by
  rw [forall_mem_lines fun headers ↦ ∀ h ∈ headers, h.isCritical = false,
    forall_mem_lines fun headers ↦ ∀ h ∈ headers.tail, h.isCritical = false,
    Repair.toList_mended, Repair.splitLines_source, List.forall_mem_map]
  refine forall₂_congr fun line _ ↦ ?_
  rw [← criticalBounds_eq_nil_iff, criticalBounds_line, criticalBounds_eq_nil_iff]

theorem criticalCovered_iff {options : AnalysisOptions} {s : String} :
    CriticalCovered options s ↔
      ∀ line ∈ Text.lines s.toList, ∀ h ∈ (all line).tail, h.isCritical = false := by
  constructor
  · intro hcovered
    exact forall_mem_lines_mended_iff.mp hcovered.mended
  · intro hlater
    refine ⟨?_, forall_mem_lines_mended_iff.mpr hlater⟩
    -- A critical header is then the first one of its line.
    rintro ⟨line, hline, h, hh, hc⟩
    refine hasCriticalLoop_iff.mpr ⟨line, hline, h, ?_, hc⟩
    cases hall : all line with
    | nil => simp [hall] at hh
    | cons first later =>
      rw [hall] at hh
      rcases List.mem_cons.mp hh with rfl | hmem
      · rfl
      · have hsafe := hlater line hline h (by rw [hall]; exact hmem)
        exact absurd hc (Bool.eq_false_iff.mp hsafe)

/-- Which critical headers of a program are reported, which are mended, and when that covers all of
them. -/
theorem critical_headers_covered_iff (options : AnalysisOptions) (s : String) :
    ((Report.ofSource options s).hasCriticalLoop = true ↔
      ∃ line ∈ Text.lines s.toList, ∃ h ∈ (all line).head?, h.isCritical = true) ∧
    (∀ line ∈ Text.splitLines s.toList,
      criticalBounds (all (Repair.line line)) = criticalBounds (all line).tail) ∧
    (CriticalCovered options s ↔
      ∀ line ∈ Text.lines s.toList, ∀ h ∈ (all line).tail, h.isCritical = false) :=
  ⟨hasCriticalLoop_iff, fun line _ ↦ criticalBounds_line line, criticalCovered_iff⟩

/-- A loop on one line, with a loop over an array in its block. -/
def nestedOnOneLine : String := "karr i=0 l7d 3 { karr j=0 l7d length(a) { } }"

/-- The inner loop reads one past the end, and it is neither reported nor mended. -/
theorem nestedOnOneLine_not_covered :
    (Report.ofSource {} nestedOnOneLine).hasCriticalLoop = false ∧
    Repair.mended nestedOnOneLine = nestedOnOneLine ∧
    ¬ CriticalCovered {} nestedOnOneLine := by
  have hlines : Text.lines nestedOnOneLine.toList = [nestedOnOneLine.toList] := by decide
  have hlater : (all nestedOnOneLine.toList).tail = [⟨30, "length(a) ".toList, 41⟩] := by decide
  have hsafe : isLoopSafe nestedOnOneLine.toList = true := by decide
  refine ⟨hasCriticalLoop_ofSource_eq_false_iff.mpr hsafe,
    mended_eq_self_iff_isLoopSafe.mpr hsafe, fun hcovered ↦ ?_⟩
  have hcritical := criticalCovered_iff.mp hcovered _ (by rw [hlines]; exact List.mem_cons_self) _
    (by rw [hlater]; exact List.mem_cons_self)
  revert hcritical
  decide

end FlexGate
