import FlexGate.Analysis
import FlexGate.Proofs.Loop.Mending

/-!
# Agreement on the critical loops of a program

Three walks over the lines of a program look for critical loops: the full analysis, which makes
other findings in between, the walk that looks for nothing else, and the mending, which keeps the
carriage returns. The findings of the first two are the same list (`findingsOf_criticalLoopBound`),
and it holds one finding for each line that mending changes (`exists_line_eq_iff`). What a finding
quotes is what is exchanged on its line (`exchanges_of_mem`), so a program is left as it is exactly
when its loops are safe (`mended_eq_self_iff_isLoopSafe`).
-/

set_option autoImplicit false
set_option relaxedAutoImplicit false

namespace FlexGate

theorem Report.hasCriticalLoop_eq_false_iff {r : Report} :
    r.hasCriticalLoop = false ↔ r.findingsOf .criticalLoopBound = [] := by
  rw [hasCriticalLoop, findingsOf, List.any_eq_false, List.filter_eq_nil_iff]
  rfl

namespace Analysis

open LoopHeader

/-! ### The findings of the analysis -/

theorem kind_of_mem_terminatorsFrom {n : Nat} {lines : List (List Char)} {f : Finding}
    (h : f ∈ terminatorsFrom n lines) : f.kind = .disallowedTerminator := by
  induction lines generalizing n with
  | nil => simp [terminatorsFrom] at h
  | cons line lines ih =>
    rcases List.mem_append.mp h with h | h
    · obtain ⟨m, -, rfl⟩ := List.mem_map.mp h
      rfl
    · exact ih h

theorem kind_of_mem_bracesFrom {before : List (List Char)} {depth : Int}
    {lines : List (List Char)} {f : Finding} (h : f ∈ bracesFrom before depth lines) :
    f.kind = .unbalancedBlock := by
  induction lines generalizing before depth with
  | nil =>
    rw [bracesFrom] at h
    split at h
    · rw [List.mem_singleton.mp h]
      rfl
    · simp at h
  | cons line lines ih =>
    rw [bracesFrom] at h
    split at h
    · rcases List.mem_cons.mp h with rfl | h
      · rfl
      · exact ih h
    · exact ih h

theorem criticalLoop?_eq_some_iff {n : Nat} {line : List Char} {f : Finding} :
    criticalLoop? n line = some f ↔
      ∃ h, find? line = some h ∧ h.isCritical = true ∧ f = inclusiveBoundFinding n h := by
  rw [criticalLoop?, Option.bind_eq_bind, Option.bind_eq_some_iff]
  constructor
  · rintro ⟨h, hh, hf⟩
    split at hf
    case isTrue hc => exact ⟨h, hh, hc, (Option.some.inj hf).symm⟩
    case isFalse => cases hf
  · rintro ⟨h, hh, hc, rfl⟩
    exact ⟨h, hh, if_pos hc⟩

/-- The findings of a kind among some findings. -/
def ofKind (kind : FindingKind) (fs : List Finding) : List Finding :=
  fs.filter fun f ↦ f.kind == kind

@[simp] theorem ofKind_append (kind : FindingKind) (fs gs : List Finding) :
    ofKind kind (fs ++ gs) = ofKind kind fs ++ ofKind kind gs :=
  List.filter_append fs gs

theorem ofKind_eq_nil {kind other : FindingKind} {fs : List Finding}
    (h : ∀ f ∈ fs, f.kind = other) (hne : other ≠ kind) : ofKind kind fs = [] := by
  rw [ofKind, List.filter_eq_nil_iff]
  intro f hf
  rw [h f hf, beq_iff_eq]
  exact hne

/-- On a line, the full walk and the walk for critical loops judge the same header. -/
theorem ofKind_safetyOnLine (n : Nat) (line : List Char) (ahead : List (List Char)) :
    ofKind .criticalLoopBound (safetyOnLine n line ahead) = (criticalLoop? n line).toList := by
  have hdivisor : ∀ f ∈ (zeroDivisor? n line).toList, f.kind = .divisionByZero := by
    intro f hf
    obtain ⟨m, -, rfl⟩ := Option.map_eq_some_iff.mp (Option.mem_toList.mp hf)
    rfl
  have hmodulus : ∀ f ∈ (zeroModulus? n line).toList, f.kind = .moduloByZero := by
    intro f hf
    obtain ⟨m, -, rfl⟩ := Option.map_eq_some_iff.mp (Option.mem_toList.mp hf)
    rfl
  have hloop : ofKind .criticalLoopBound (loopFinding? n line ahead).toList =
      (criticalLoop? n line).toList := by
    rw [loopFinding?, criticalLoop?]
    cases hh : find? line with
    | none => rfl
    | some h =>
      cases hc : h.isCritical with
      | true => simp [hc, ofKind, inclusiveBoundFinding, Finding.kind, Defect.kind]
      | false =>
        cases hasLiteralBound h && indexedAhead h line ahead <;>
          simp [hc, ofKind, Finding.kind, Defect.kind]
  rw [safetyOnLine, ofKind_append, ofKind_append, hloop, ofKind_eq_nil hdivisor (by decide),
    ofKind_eq_nil hmodulus (by decide), List.append_nil, List.append_nil]

theorem ofKind_safetyFrom (lookahead n : Nat) (lines : List (List Char)) :
    ofKind .criticalLoopBound (safetyFrom lookahead n lines) = criticalLoopsFrom n lines := by
  induction lines generalizing n with
  | nil => rfl
  | cons line lines ih =>
    rw [safetyFrom, criticalLoopsFrom, ofKind_append, ofKind_safetyOnLine, ih]

/-- The critical findings of the full analysis are those of the walk for critical loops. -/
theorem findingsOf_criticalLoopBound (options : AnalysisOptions) (text : List Char) :
    (analyze options text).findingsOf .criticalLoopBound = loopFindings text := by
  show ofKind .criticalLoopBound (findings options (Text.lines text)) = loopFindings text
  rw [findings, ofKind_append, ofKind_append, terminators, braces, safety, ofKind_safetyFrom,
    ofKind_eq_nil (fun f ↦ kind_of_mem_terminatorsFrom) (by decide),
    ofKind_eq_nil (fun f ↦ kind_of_mem_bracesFrom) (by decide), List.nil_append, List.nil_append,
    loopFindings, criticalLoops]

/-! ### The lines of the findings -/

theorem mem_criticalLoopsFrom {n : Nat} {lines : List (List Char)} {f : Finding} :
    f ∈ criticalLoopsFrom n lines ↔ ∃ i line h, lines[i]? = some line ∧ find? line = some h ∧
      h.isCritical = true ∧ f = inclusiveBoundFinding (n + i) h := by
  induction lines generalizing n with
  | nil => simp [criticalLoopsFrom]
  | cons first lines ih =>
    rw [criticalLoopsFrom, List.mem_append, Option.mem_toList, ih, criticalLoop?_eq_some_iff]
    constructor
    · rintro (⟨h, hh, hc, rfl⟩ | ⟨i, line, h, hi, hh, hc, rfl⟩)
      · exact ⟨0, first, h, rfl, hh, hc, rfl⟩
      · refine ⟨i + 1, line, h, hi, hh, hc, ?_⟩
        rw [Nat.add_right_comm, Nat.add_assoc]
    · rintro ⟨i, line, h, hi, hh, hc, rfl⟩
      cases i with
      | zero =>
        obtain rfl : first = line := Option.some.inj hi
        exact .inl ⟨h, hh, hc, rfl⟩
      | succ i =>
        refine .inr ⟨i, line, h, hi, hh, hc, ?_⟩
        rw [Nat.add_right_comm, Nat.add_assoc]

/-- The findings stand in the order of their lines, at most one on a line. -/
theorem pairwise_criticalLoopsFrom (n : Nat) (lines : List (List Char)) :
    (criticalLoopsFrom n lines).Pairwise fun f g ↦ f.line < g.line := by
  induction lines generalizing n with
  | nil => exact .nil
  | cons line lines ih =>
    rw [criticalLoopsFrom, List.pairwise_append]
    refine ⟨?_, ih (n + 1), ?_⟩
    · cases criticalLoop? n line <;> simp
    · intro f hf g hg
      obtain ⟨h, -, -, rfl⟩ := criticalLoop?_eq_some_iff.mp (Option.mem_toList.mp hf)
      obtain ⟨i, -, h', -, -, -, rfl⟩ := mem_criticalLoopsFrom.mp hg
      simp only [inclusiveBoundFinding]
      omega

end Analysis

open Analysis LoopHeader

/-- A finding is made on each line with a critical first header, whatever ends the line. -/
theorem mem_loopFindings {text : List Char} {f : Finding} :
    f ∈ loopFindings text ↔ ∃ i line h, (Text.splitLines text)[i]? = some line ∧
      find? line = some h ∧ h.isCritical = true ∧ f = inclusiveBoundFinding (i + 1) h := by
  rw [loopFindings, criticalLoops, mem_criticalLoopsFrom]
  constructor
  · rintro ⟨i, line, h, hi, hh, hc, rfl⟩
    rw [Text.lines, List.getElem?_map, Option.map_eq_some_iff] at hi
    obtain ⟨line, hi, rfl⟩ := hi
    exact ⟨i, line, h, hi, find?_withoutReturn line ▸ hh, hc, by rw [Nat.add_comm]⟩
  · rintro ⟨i, line, h, hi, hh, hc, rfl⟩
    refine ⟨i, Text.withoutReturn line, h, ?_, (find?_withoutReturn line).trans hh, hc, ?_⟩
    · rw [Text.lines, List.getElem?_map, hi, Option.map_some]
    · rw [Nat.add_comm]

theorem isLoopSafe_iff {text : List Char} : isLoopSafe text = true ↔ loopFindings text = [] :=
  List.isEmpty_iff

theorem hasCriticalLoop_ofSource_eq_false_iff {options : AnalysisOptions} {source : String} :
    (Report.ofSource options source).hasCriticalLoop = false ↔
      isLoopSafe source.toList = true := by
  rw [Report.hasCriticalLoop_eq_false_iff, isLoopSafe_iff, Report.ofSource,
    findingsOf_criticalLoopBound]

/-! ### The lines that mending changes -/

theorem getElem?_splitLines_source (text : List Char) (i : Nat) :
    (Text.splitLines (Repair.source text))[i]? =
      (Text.splitLines text)[i]?.map Repair.line := by
  rw [Repair.splitLines_source, List.getElem?_map]

theorem exists_line_eq_iff {text : List Char} {i : Nat} :
    (∃ f ∈ loopFindings text, f.line = i + 1) ↔
      (Text.splitLines (Repair.source text))[i]? ≠ (Text.splitLines text)[i]? := by
  rw [getElem?_splitLines_source]
  constructor
  · rintro ⟨f, hf, hline⟩
    obtain ⟨j, line, h, hj, hh, hc, rfl⟩ := mem_loopFindings.mp hf
    obtain rfl : j = i := Nat.succ.inj hline
    rw [hj, Option.map_some]
    exact fun heq ↦ Repair.line_ne_self_iff.mpr ⟨h, hh, hc⟩ (Option.some.inj heq)
  · intro hne
    cases hi : (Text.splitLines text)[i]? with
    | none =>
      rw [hi] at hne
      exact absurd rfl hne
    | some line =>
      rw [hi, Option.map_some] at hne
      have hline : Repair.line line ≠ line := fun heq ↦ hne (congrArg some heq)
      obtain ⟨h, hh, hc⟩ := Repair.line_ne_self_iff.mp hline
      exact ⟨_, mem_loopFindings.mpr ⟨i, line, h, hi, hh, hc, rfl⟩, rfl⟩

/-- How a finding tells what mending does: on the line of the finding, where the bound of the first
header stands, the text that the suggestion quotes first gives way to the text that it quotes
second. -/
def Exchanges (text : List Char) (f : Finding) : Prop :=
  ∃ i h old lead rest, f.line = i + 1 ∧ f.defect = .inclusiveBound old ∧
    f.defect.suggestion = "Change '" ++ String.ofList old ++ "' to '" ++
      String.ofList (LoopBound.adjust old) ++ "' for safe array access" ∧
    find? (lead ++ old ++ rest) = some h ∧ h.trimmedBound = old ∧ h.trimmedStart = lead.length ∧
    (Text.splitLines text)[i]? = some (lead ++ old ++ rest) ∧
    (Text.splitLines (Repair.source text))[i]? = some (lead ++ LoopBound.adjust old ++ rest)

theorem exchanges_of_mem {text : List Char} {f : Finding} (hf : f ∈ loopFindings text) :
    Exchanges text f := by
  obtain ⟨i, line, h, hi, hh, hc, rfl⟩ := mem_loopFindings.mp hf
  obtain ⟨lead, before, after, rest, hd⟩ := exists_divides hh
  have hline : line = (lead ++ before) ++ h.trimmedBound ++ (after ++ '{' :: rest) := by
    rw [hd.line_eq]
    simp only [List.append_assoc]
  have hmended : Repair.line line =
      (lead ++ before) ++ LoopBound.adjust h.trimmedBound ++ (after ++ '{' :: rest) := by
    rw [line_of_critical hh hd hc]
    simp only [List.append_assoc]
  refine ⟨i, h, h.trimmedBound, lead ++ before, after ++ '{' :: rest, rfl, rfl, rfl, ?_, rfl,
    hd.trimmedStart_eq, ?_, ?_⟩
  · rw [← hline, hh]
  · rw [hi, hline]
  · rw [getElem?_splitLines_source, hi, Option.map_some, hmended]

theorem isLoopSafe_iff_source_eq_self {text : List Char} :
    isLoopSafe text = true ↔ Repair.source text = text := by
  rw [isLoopSafe_iff, Repair.source_eq_self_iff, List.eq_nil_iff_forall_not_mem]
  constructor
  · intro hnone line hline
    obtain ⟨i, hi⟩ := List.getElem?_of_mem hline
    by_contra hne
    obtain ⟨h, hh, hc⟩ := Repair.line_ne_self_iff.mp hne
    exact hnone _ (mem_loopFindings.mpr ⟨i, line, h, hi, hh, hc, rfl⟩)
  · intro hall f hf
    obtain ⟨i, line, h, hi, hh, hc, rfl⟩ := mem_loopFindings.mp hf
    exact Repair.line_ne_self_iff.mpr ⟨h, hh, hc⟩ (hall line (List.mem_of_getElem? hi))

theorem mended_eq_self_iff_isLoopSafe {s : String} :
    Repair.mended s = s ↔ isLoopSafe s.toList = true := by
  rw [Repair.mended_eq_self_iff, isLoopSafe_iff_source_eq_self]

theorem isLoopSafe_mended (s : String) : isLoopSafe (Repair.mended s).toList = true :=
  mended_eq_self_iff_isLoopSafe.mp (Repair.mended_mended s)

/-- The full analysis, the walk for critical loops and the mending agree, whatever the options of
the analysis are. -/
theorem criticalLoops_agree (options : AnalysisOptions) (s : String) :
    (Report.ofSource options s).findingsOf .criticalLoopBound = loopFindings s.toList ∧
    (isLoopSafe s.toList = true ↔ loopFindings s.toList = []) ∧
    (isLoopSafe s.toList = true ↔ (Report.ofSource options s).hasCriticalLoop = false) ∧
    (Text.splitLines (Repair.mended s).toList).length = (Text.splitLines s.toList).length ∧
    (∀ n, (∃ f ∈ loopFindings s.toList, f.line = n) ↔
      ∃ i, n = i + 1 ∧
        (Text.splitLines (Repair.mended s).toList)[i]? ≠ (Text.splitLines s.toList)[i]?) ∧
    (loopFindings s.toList).Pairwise (fun f g ↦ f.line < g.line) ∧
    (∀ f ∈ loopFindings s.toList, Exchanges s.toList f) ∧
    (Repair.mended s = s ↔ isLoopSafe s.toList = true) := by
  refine ⟨findingsOf_criticalLoopBound options s.toList, isLoopSafe_iff,
    hasCriticalLoop_ofSource_eq_false_iff.symm, ?_, fun n ↦ ?_,
    pairwise_criticalLoopsFrom 1 (Text.lines s.toList), fun f ↦ exchanges_of_mem,
    mended_eq_self_iff_isLoopSafe⟩
  · rw [Repair.toList_mended, Repair.splitLines_source, List.length_map]
  · rw [Repair.toList_mended]
    constructor
    · rintro ⟨f, hf, rfl⟩
      obtain ⟨i, -, -, -, -, hline, -⟩ := exchanges_of_mem hf
      exact ⟨i, hline, exists_line_eq_iff.mp ⟨f, hf, hline⟩⟩
    · rintro ⟨i, rfl, hne⟩
      exact exists_line_eq_iff.mpr hne

end FlexGate
