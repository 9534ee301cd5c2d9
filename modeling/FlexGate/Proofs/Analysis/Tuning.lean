import FlexGate.Proofs.Analysis.Walks

/-!
# What the options of the analysis change

Three options tune the analysis: how far it looks ahead of a loop for an indexed access, how long a
line may be, and which single letters are accepted as names. The dialect and the suggestions read
none of them, and of the findings only those on loops up to a literal bound do
(`butPotentialIndex_findings`).

What the check of safety finds on a line it makes from that line and from as many lines behind it as
it looks ahead, so two programs that agree on those lines have the same findings there
(`filter_line_safety_congr`). To look further ahead never takes a finding away
(`sublist_findings`), and to allow longer lines or more names never puts a warning on a line that
had none of its kind (`sublist_longLines`, `sublist_shortNameLines`).
-/

set_option autoImplicit false
set_option relaxedAutoImplicit false

namespace FlexGate

/-- The findings of every kind but one. -/
def Report.findingsBut (r : Report) (kind : FindingKind) : List Finding :=
  r.findings.filter fun f ↦ f.kind ≠ kind

/-- The findings on safety that stand on a line. -/
def Report.safetyFindingsOn (r : Report) (line : Nat) : List Finding :=
  r.findings.filter fun f ↦ f.kind.check = .safety ∧ f.line = line

/-- The line of a warning about a long line. -/
def Warning.longLine? : Warning → Option Nat
  | .longLine line _ => some line
  | _ => none

/-- The line of a warning about a short name. -/
def Warning.shortNameLine? : Warning → Option Nat
  | .shortName line _ => some line
  | _ => none

/-- The lines that are reported as long. -/
def Report.longLines (r : Report) : List Nat := r.warnings.filterMap Warning.longLine?

/-- The lines on which a short name is reported. -/
def Report.shortNameLines (r : Report) : List Nat := r.warnings.filterMap Warning.shortNameLine?

namespace Analysis

/-! ### What a walk finds on one line -/

namespace IsWalk

variable {walk : Nat → List (List Char) → List Finding}
  {onLine : Nat → List Char → List (List Char) → List Finding}

/-- The findings of a walk that stand on a line are those made on it. -/
theorem filter_line_of_getElem?_eq_some (h : IsWalk walk onLine)
    (hline : ∀ n line ahead, ∀ f ∈ onLine n line ahead, f.line = n) {lines : List (List Char)}
    {i : Nat} {line : List Char} (hi : lines[i]? = some line) (n : Nat) :
    (walk n lines).filter (fun f ↦ f.line = n + i) = onLine (n + i) line (lines.drop (i + 1)) := by
  induction lines generalizing n i with
  | nil => cases hi
  | cons first lines ih =>
    rw [h.cons, List.filter_append]
    cases i with
    | zero =>
      obtain rfl : first = line := Option.some.inj hi
      have hlater : (walk (n + 1) lines).filter (fun f ↦ f.line = n + 0) = [] := by
        refine List.filter_eq_nil_iff.mpr fun f hf ↦ ?_
        obtain ⟨j, later, -, hf⟩ := h.mem_iff.mp hf
        rw [decide_eq_true_iff, hline _ _ _ f hf]
        omega
      rw [hlater, List.append_nil, List.drop_one, List.tail_cons]
      refine List.filter_eq_self.mpr fun f hf ↦ ?_
      rw [decide_eq_true_iff]
      exact hline n first lines f hf
    | succ i =>
      have hfirst : (onLine n first lines).filter (fun f ↦ f.line = n + (i + 1)) = [] := by
        refine List.filter_eq_nil_iff.mpr fun f hf ↦ ?_
        rw [decide_eq_true_iff, hline n first lines f hf]
        omega
      have hsum : n + (i + 1) = n + 1 + i := by omega
      rw [hfirst, List.nil_append, List.drop_succ_cons, hsum]
      exact ih hi (n + 1)

/-- A walk finds nothing behind the last line. -/
theorem filter_line_of_getElem?_eq_none (h : IsWalk walk onLine)
    (hline : ∀ n line ahead, ∀ f ∈ onLine n line ahead, f.line = n) {lines : List (List Char)}
    {i : Nat} (hi : lines[i]? = none) (n : Nat) :
    (walk n lines).filter (fun f ↦ f.line = n + i) = [] := by
  refine List.filter_eq_nil_iff.mpr fun f hf ↦ ?_
  obtain ⟨j, line, hj, hf⟩ := h.mem_iff.mp hf
  have hlt : j < lines.length := (List.getElem?_eq_some_iff.mp hj).1
  have hle : lines.length ≤ i := List.getElem?_eq_none_iff.mp hi
  rw [decide_eq_true_iff, hline _ _ _ f hf]
  omega

end IsWalk

/-! ### Looking ahead -/

section Lookahead

variable {n i lookahead : Nat} {line : List Char} {lines others : List (List Char)}

theorem take_drop_eq_of_getElem?_eq (h : ∀ j ≤ lookahead, lines[i + j]? = others[i + j]?) :
    (lines.drop (i + 1)).take lookahead = (others.drop (i + 1)).take lookahead := by
  refine List.ext_getElem? fun j ↦ ?_
  rw [List.getElem?_take, List.getElem?_take]
  split_ifs with hj
  · rw [List.getElem?_drop, List.getElem?_drop, Nat.add_assoc, Nat.add_comm 1 j]
    exact h (j + 1) hj
  · rfl

/-- What is found on a line is told by the line and by the lines that are looked at ahead of it. -/
theorem filter_line_safety_congr (h : ∀ j ≤ lookahead, lines[i + j]? = others[i + j]?) :
    (safety lookahead lines).filter (fun f ↦ f.line = 1 + i) =
      (safety lookahead others).filter (fun f ↦ f.line = 1 + i) := by
  have hhere : lines[i]? = others[i]? := h 0 (Nat.zero_le lookahead)
  have hmade : ∀ n line (ahead : List (List Char)),
      ∀ f ∈ safetyOnLine n line (ahead.take lookahead), f.line = n :=
    fun _ _ _ _ ↦ line_of_mem_safetyOnLine
  cases hline : others[i]? with
  | none =>
    rw [safety, safety,
      (isWalk_safetyFrom lookahead).filter_line_of_getElem?_eq_none hmade hline,
      (isWalk_safetyFrom lookahead).filter_line_of_getElem?_eq_none hmade (hhere.trans hline)]
  | some line =>
    rw [safety, safety,
      (isWalk_safetyFrom lookahead).filter_line_of_getElem?_eq_some hmade hline,
      (isWalk_safetyFrom lookahead).filter_line_of_getElem?_eq_some hmade (hhere.trans hline),
      take_drop_eq_of_getElem?_eq h]

theorem indexedAhead_mono {small large : List (List Char)} (h : small ⊆ large)
    {header : LoopHeader} (hsmall : indexedAhead header line small = true) :
    indexedAhead header line large = true := by
  rw [indexedAhead, Bool.or_eq_true, List.any_eq_true] at hsmall ⊢
  exact hsmall.imp_right fun ⟨later, hmem, hindexed⟩ ↦ ⟨later, h hmem, hindexed⟩

/-- With more lines ahead the loop of a line has the finding that it had, or a finding where it had
none. -/
theorem sublist_loopFinding? {small large : List (List Char)} (h : small ⊆ large) :
    (loopFinding? n line small).toList.Sublist (loopFinding? n line large).toList := by
  cases hf : loopFinding? n line small with
  | none => exact List.nil_sublist _
  | some f =>
    obtain ⟨header, hheader, hfound⟩ := loopFinding?_eq_some_iff.mp hf
    have hlarge : loopFinding? n line large = some f := by
      refine loopFinding?_eq_some_iff.mpr ⟨header, hheader, hfound.imp_right ?_⟩
      rintro ⟨hcritical, hliteral, hindexed, rfl⟩
      exact ⟨hcritical, hliteral, indexedAhead_mono h hindexed, rfl⟩
    rw [hlarge]

theorem sublist_safetyOnLine {small large : List (List Char)} (h : small ⊆ large) :
    (safetyOnLine n line small).Sublist (safetyOnLine n line large) :=
  ((sublist_loopFinding? h).append (List.Sublist.refl _)).append (List.Sublist.refl _)

theorem sublist_safetyFrom {small large : Nat} (h : small ≤ large) (n : Nat)
    (lines : List (List Char)) :
    (safetyFrom small n lines).Sublist (safetyFrom large n lines) := by
  induction lines generalizing n with
  | nil => exact List.Sublist.slnil
  | cons line rest ih =>
    have hseen : rest.take small ⊆ rest.take large := (List.take_prefix_take_left h).subset
    exact (sublist_safetyOnLine hseen).append (ih (n + 1))

/-- Looking further ahead keeps every finding, in its order. -/
theorem sublist_findings {options further : AnalysisOptions}
    (h : options.lookahead ≤ further.lookahead) (lines : List (List Char)) :
    (findings options lines).Sublist (findings further lines) :=
  (List.Sublist.refl _).append (sublist_safetyFrom h 1 lines)

end Lookahead

/-! ### Findings that no option changes -/

section OtherKinds

/-- The findings that are not about a loop up to a literal bound. -/
def butPotentialIndex (fs : List Finding) : List Finding :=
  fs.filter fun f ↦ f.kind ≠ .potentialIndex

theorem butPotentialIndex_append (fs gs : List Finding) :
    butPotentialIndex (fs ++ gs) = butPotentialIndex fs ++ butPotentialIndex gs :=
  List.filter_append ..

/-- Apart from an index ahead, the loop of a line is judged by its header alone. -/
theorem butPotentialIndex_loopFinding? (n : Nat) (line : List Char) (ahead : List (List Char)) :
    butPotentialIndex (loopFinding? n line ahead).toList = (criticalLoop? n line).toList := by
  unfold butPotentialIndex loopFinding? criticalLoop?
  cases hheader : LoopHeader.find? line with
  | none => rfl
  | some header =>
    cases hcritical : header.isCritical with
    | true => simp [hcritical, inclusiveBoundFinding, Finding.kind, Defect.kind]
    | false =>
      cases hasLiteralBound header && indexedAhead header line ahead <;>
        simp [hcritical, Finding.kind, Defect.kind]

theorem butPotentialIndex_safetyFrom (small large n : Nat) (lines : List (List Char)) :
    butPotentialIndex (safetyFrom small n lines) =
      butPotentialIndex (safetyFrom large n lines) := by
  induction lines generalizing n with
  | nil => rfl
  | cons line rest ih =>
    simp only [safetyFrom, safetyOnLine, butPotentialIndex_append,
      butPotentialIndex_loopFinding?, ih (n + 1)]

/-- Two ways to tune the analysis differ at most in what they find on loops up to a literal
bound. -/
theorem butPotentialIndex_findings (options others : AnalysisOptions) (lines : List (List Char)) :
    butPotentialIndex (findings options lines) = butPotentialIndex (findings others lines) := by
  rw [findings, findings, butPotentialIndex_append, butPotentialIndex_append _ (safety _ lines),
    safety, safety, butPotentialIndex_safetyFrom options.lookahead others.lookahead]

end OtherKinds

/-! ### Warnings -/

section Warnings

variable {accepted : List String} {longest : Nat} {lines : List (List Char)} {w : Warning}

theorem longLine?_of_mem_nameWarningsFrom {n : Nat} (hw : w ∈ nameWarningsFrom accepted n lines) :
    w.longLine? = none := by
  induction lines generalizing n with
  | nil => cases hw
  | cons line rest ih =>
    rcases List.mem_append.mp hw with hw | hw
    · obtain ⟨name, -, rfl⟩ := Option.map_eq_some_iff.mp (Option.mem_toList.mp hw)
      rfl
    · exact ih hw

theorem shortNameLine?_of_mem_lengthWarningsFrom {n : Nat}
    (hw : w ∈ lengthWarningsFrom longest n lines) : w.shortNameLine? = none := by
  induction lines generalizing n with
  | nil => cases hw
  | cons line rest ih =>
    rcases List.mem_append.mp hw with hw | hw
    · split_ifs at hw with hlong
      · rw [List.mem_singleton.mp hw]
        rfl
      · cases hw
    · exact ih hw

theorem filterMap_longLine?_warnings (options : AnalysisOptions) (dialect : Dialect)
    (lines : List (List Char)) :
    (warnings options dialect lines).filterMap Warning.longLine? =
      (lengthWarningsFrom options.longLine 1 lines).filterMap Warning.longLine? := by
  have hnames : (nameWarningsFrom options.shortNames 1 lines).filterMap Warning.longLine? = [] :=
    List.filterMap_eq_nil_iff.mpr fun _ ↦ longLine?_of_mem_nameWarningsFrom
  have hmixed : (if dialect = .mixed then [Warning.mixedDialects] else []).filterMap
      Warning.longLine? = [] := by
    split_ifs
    · rfl
    · rfl
  rw [warnings, List.filterMap_append, List.filterMap_append, hmixed, hnames, List.nil_append,
    List.nil_append]

theorem filterMap_shortNameLine?_warnings (options : AnalysisOptions) (dialect : Dialect)
    (lines : List (List Char)) :
    (warnings options dialect lines).filterMap Warning.shortNameLine? =
      (nameWarningsFrom options.shortNames 1 lines).filterMap Warning.shortNameLine? := by
  have hlengths :
      (lengthWarningsFrom options.longLine 1 lines).filterMap Warning.shortNameLine? = [] :=
    List.filterMap_eq_nil_iff.mpr fun _ ↦ shortNameLine?_of_mem_lengthWarningsFrom
  have hmixed : (if dialect = .mixed then [Warning.mixedDialects] else []).filterMap
      Warning.shortNameLine? = [] := by
    split_ifs
    · rfl
    · rfl
  rw [warnings, List.filterMap_append, List.filterMap_append, hmixed, hlengths, List.nil_append,
    List.append_nil]

/-- With longer lines allowed, only lines that were long are. -/
theorem sublist_longLines {small large : Nat} (h : small ≤ large) (n : Nat)
    (lines : List (List Char)) :
    ((lengthWarningsFrom large n lines).filterMap Warning.longLine?).Sublist
      ((lengthWarningsFrom small n lines).filterMap Warning.longLine?) := by
  induction lines generalizing n with
  | nil => exact List.Sublist.slnil
  | cons line rest ih =>
    rw [lengthWarningsFrom, lengthWarningsFrom, List.filterMap_append, List.filterMap_append]
    refine List.Sublist.append ?_ (ih (n + 1))
    by_cases hlong : large < line.length
    · rw [if_pos hlong, if_pos (h.trans_lt hlong)]
    · rw [if_neg hlong]
      exact List.nil_sublist _

theorem sublist_shortNames {few many : List String} (h : few ⊆ many) (line : List Char) :
    (shortNames many line).Sublist (shortNames few line) := by
  refine List.monotone_filter_right _ fun name hname ↦ ?_
  rw [Bool.not_eq_true', List.contains_eq_mem, decide_eq_false_iff_not] at hname ⊢
  exact fun hmem ↦ hname (h hmem)

/-- With more names accepted, only lines that had a short name have one. The name that is shown may
be another one of the line. -/
theorem sublist_shortNameLines {few many : List String} (h : few ⊆ many) (n : Nat)
    (lines : List (List Char)) :
    ((nameWarningsFrom many n lines).filterMap Warning.shortNameLine?).Sublist
      ((nameWarningsFrom few n lines).filterMap Warning.shortNameLine?) := by
  induction lines generalizing n with
  | nil => exact List.Sublist.slnil
  | cons line rest ih =>
    rw [nameWarningsFrom, nameWarningsFrom, List.filterMap_append, List.filterMap_append]
    refine List.Sublist.append ?_ (ih (n + 1))
    cases hmany : shortNames many line with
    | nil => exact List.nil_sublist _
    | cons name names =>
      cases hfew : shortNames few line with
      | nil =>
        have hsub := sublist_shortNames h line
        rw [hmany, hfew] at hsub
        cases hsub
      | cons other others => exact List.Sublist.refl _

end Warnings

end Analysis

open Analysis

section Reports

variable (options others : AnalysisOptions) (s : String)

theorem findingsBut_potentialIndex :
    (Report.ofSource others s).findingsBut .potentialIndex =
      (Report.ofSource options s).findingsBut .potentialIndex :=
  butPotentialIndex_findings others options (Text.lines s.toList)

theorem safetyFindingsOn_eq (n : Nat) : (Report.ofSource options s).safetyFindingsOn n =
    (safety options.lookahead (Text.lines s.toList)).filter fun f ↦ f.line = n := by
  have hother {check : Check} (hne : check ≠ .safety) :
      (ofCheck options (Text.lines s.toList) check).filter
        (fun f ↦ f.kind.check = .safety ∧ f.line = n) = [] := by
    refine List.filter_eq_nil_iff.mpr fun f hf ↦ ?_
    rw [decide_eq_true_iff, check_of_mem_ofCheck hf]
    exact fun h ↦ hne h.1
  change (findings options (Text.lines s.toList)).filter _ = _
  rw [findings_eq, List.filter_append, List.filter_append, hother (by decide),
    hother (by decide), List.nil_append, List.nil_append]
  refine List.filter_congr fun f hf ↦ ?_
  rw [check_of_mem_ofCheck hf]
  simp only [true_and]

theorem longLines_eq : (Report.ofSource options s).longLines =
    (lengthWarningsFrom options.longLine 1 (Text.lines s.toList)).filterMap Warning.longLine? :=
  filterMap_longLine?_warnings options _ _

theorem shortNameLines_eq : (Report.ofSource options s).shortNameLines =
    (nameWarningsFrom options.shortNames 1 (Text.lines s.toList)).filterMap
      Warning.shortNameLine? :=
  filterMap_shortNameLine?_warnings options _ _

/-- What two ways to tune the analysis have in common on a program, what the findings on a line are
told by, and what becomes of the report when one option is made wider. -/
theorem options_tune_reports :
    (Report.ofSource others s).dialect = (Report.ofSource options s).dialect ∧
    (Report.ofSource others s).suggestions = (Report.ofSource options s).suggestions ∧
    (Report.ofSource others s).findingsBut .potentialIndex =
      (Report.ofSource options s).findingsBut .potentialIndex ∧
    (∀ (t : String) (i : Nat),
      (∀ j ≤ options.lookahead, (Text.lines s.toList)[i + j]? = (Text.lines t.toList)[i + j]?) →
        (Report.ofSource options s).safetyFindingsOn (i + 1) =
          (Report.ofSource options t).safetyFindingsOn (i + 1)) ∧
    (options.lookahead ≤ others.lookahead →
      (Report.ofSource options s).findings.Sublist (Report.ofSource others s).findings ∧
      ((Report.ofSource others s).isAcceptable = true →
        (Report.ofSource options s).isAcceptable = true)) ∧
    (options.lookahead = others.lookahead →
      (Report.ofSource options s).findings = (Report.ofSource others s).findings) ∧
    (options.longLine ≤ others.longLine →
      (Report.ofSource others s).longLines.Sublist (Report.ofSource options s).longLines) ∧
    (options.shortNames ⊆ others.shortNames →
      (Report.ofSource others s).shortNameLines.Sublist
        (Report.ofSource options s).shortNameLines) := by
  refine ⟨rfl, rfl, findingsBut_potentialIndex options others s, ?_, ?_, ?_, ?_, ?_⟩
  · intro t i hagree
    rw [safetyFindingsOn_eq, safetyFindingsOn_eq, Nat.add_comm i 1]
    exact filter_line_safety_congr hagree
  · intro hle
    have hsub : (Report.ofSource options s).findings.Sublist (Report.ofSource others s).findings :=
      sublist_findings hle (Text.lines s.toList)
    refine ⟨hsub, fun hnone ↦ ?_⟩
    rw [Report.isAcceptable, List.isEmpty_iff] at hnone ⊢
    rw [hnone] at hsub
    exact List.sublist_nil.mp hsub
  · intro heq
    change findings options _ = findings others _
    rw [findings, findings, heq]
  · intro hle
    rw [longLines_eq, longLines_eq]
    exact sublist_longLines hle 1 (Text.lines s.toList)
  · intro hsub
    rw [shortNameLines_eq, shortNameLines_eq]
    exact sublist_shortNameLines hsub 1 (Text.lines s.toList)

end Reports

/-- A loop with an index on the line below it. -/
def indexBelow : String := "karr i=0 l7d 3 {
x[i]
}"

/-- A program that goes another way below the same header. -/
def nothingBelow : String := "karr i=0 l7d 3 {
}"

/-- The loop with an index on the line below it, tuned to look at no line ahead and at one. -/
theorem options_tune_reports_index_below :
    let near : AnalysisOptions := ⟨10, 0, ["i"]⟩
    let far : AnalysisOptions := ⟨12, 1, ["x", "i"]⟩
    (Report.ofSource near indexBelow).safetyFindingsOn 1 =
        (Report.ofSource near nothingBelow).safetyFindingsOn 1 ∧
      (Report.ofSource near indexBelow).findings.Sublist (Report.ofSource far indexBelow).findings ∧
      (Report.ofSource far indexBelow).longLines.Sublist
        (Report.ofSource near indexBelow).longLines ∧
      (Report.ofSource far indexBelow).shortNameLines.Sublist
        (Report.ofSource near indexBelow).shortNameLines := by
  intro near far
  obtain ⟨-, -, -, hlocal, hfurther, -, hlonger, hmore⟩ := options_tune_reports near far indexBelow
  refine ⟨hlocal _ 0 ?_, (hfurther (by decide)).1, hlonger (by decide), hmore (by decide)⟩
  decide

end FlexGate
