import FlexGate.Proofs.Loop.Agreement

/-!
# Checks as walks over lines

The analysis puts the findings of three checks one after the other: those on terminators, those on
braces and those on safety. The first and the last go from line to line and make the findings of a
line from the line and those ahead of it (`IsWalk`). What such a walk finds is what it finds on the
lines, each with its own number (`IsWalk.mem_iff`), in the order of the lines (`IsWalk.pairwise`).

A kind of finding belongs to one check (`FindingKind.check`), so the findings of a check are told
from the others by their kinds: those of a kind in the whole analysis are those in its check
(`mem_findings_iff`, `findingsOf_eq`).
-/

set_option autoImplicit false
set_option relaxedAutoImplicit false

namespace FlexGate

/-- The checks of the analysis, in the order in which their findings are reported. -/
inductive Check
  | terminators
  | braces
  | safety
  deriving DecidableEq

/-- The check that makes the findings of a kind. -/
def FindingKind.check : FindingKind → Check
  | .disallowedTerminator => .terminators
  | .unbalancedBlock => .braces
  | .criticalLoopBound => .safety
  | .potentialIndex => .safety
  | .divisionByZero => .safety
  | .moduloByZero => .safety

namespace Analysis

open LoopHeader

/-- A walk makes the findings of one line after the other, from the line with its number and the
lines ahead of it. -/
structure IsWalk (walk : Nat → List (List Char) → List Finding)
    (onLine : Nat → List Char → List (List Char) → List Finding) : Prop where
  nil : ∀ n, walk n [] = []
  cons : ∀ n line ahead, walk n (line :: ahead) = onLine n line ahead ++ walk (n + 1) ahead

namespace IsWalk

variable {walk : Nat → List (List Char) → List Finding}
  {onLine : Nat → List Char → List (List Char) → List Finding}

theorem mem_iff (h : IsWalk walk onLine) {n : Nat} {lines : List (List Char)} {f : Finding} :
    f ∈ walk n lines ↔
      ∃ i line, lines[i]? = some line ∧ f ∈ onLine (n + i) line (lines.drop (i + 1)) := by
  induction lines generalizing n with
  | nil => simp [h.nil]
  | cons first lines ih =>
    rw [h.cons, List.mem_append, ih]
    constructor
    · rintro (hf | ⟨i, line, hi, hf⟩)
      · exact ⟨0, first, rfl, hf⟩
      · refine ⟨i + 1, line, hi, ?_⟩
        rwa [Nat.add_right_comm, Nat.add_assoc] at hf
    · rintro ⟨i, line, hi, hf⟩
      cases i with
      | zero =>
        obtain rfl : first = line := Option.some.inj hi
        exact .inl hf
      | succ i =>
        refine .inr ⟨i, line, hi, ?_⟩
        rwa [Nat.add_right_comm, Nat.add_assoc]

/-- The findings of a walk stand in the order of their lines. -/
theorem pairwise (h : IsWalk walk onLine)
    (hline : ∀ n line ahead, ∀ f ∈ onLine n line ahead, f.line = n) (n : Nat)
    (lines : List (List Char)) : (walk n lines).Pairwise fun f g ↦ f.line ≤ g.line := by
  induction lines generalizing n with
  | nil =>
    rw [h.nil]
    exact .nil
  | cons line lines ih =>
    rw [h.cons, List.pairwise_append]
    refine ⟨?_, ih (n + 1), ?_⟩
    · refine List.pairwise_of_forall_mem_list fun f hf g hg ↦ ?_
      rw [hline n line lines f hf, hline n line lines g hg]
    · intro f hf g hg
      obtain ⟨i, later, -, hg⟩ := h.mem_iff.mp hg
      rw [hline n line lines f hf, hline _ _ _ g hg]
      omega

end IsWalk

theorem isWalk_terminatorsFrom :
    IsWalk terminatorsFrom fun n line _ ↦ terminatorsOnLine n line :=
  ⟨fun _ ↦ rfl, fun _ _ _ ↦ rfl⟩

theorem isWalk_safetyFrom (lookahead : Nat) :
    IsWalk (safetyFrom lookahead) fun n line ahead ↦
      safetyOnLine n line (ahead.take lookahead) :=
  ⟨fun _ ↦ rfl, fun _ _ _ ↦ rfl⟩

/-! ### The findings of a line -/

theorem mem_terminatorsOnLine {n : Nat} {line : List Char} {f : Finding} :
    f ∈ terminatorsOnLine n line ↔
      ∃ m ∈ Shape.terminator.findAll line, f = ⟨.terminator, n, some (m.start + 1)⟩ := by
  rw [terminatorsOnLine, List.mem_map]
  exact exists_congr fun m ↦ and_congr_right fun _ ↦ eq_comm

theorem zeroDivisor?_eq_some_iff {n : Nat} {line : List Char} {f : Finding} :
    zeroDivisor? n line = some f ↔ ∃ m, Shape.divisionByZero.find? line = some m ∧
      f = ⟨.zeroDivisor, n, some (m.start + 1)⟩ := by
  rw [zeroDivisor?, Option.map_eq_some_iff]
  exact exists_congr fun m ↦ and_congr_right fun _ ↦ eq_comm

theorem zeroModulus?_eq_some_iff {n : Nat} {line : List Char} {f : Finding} :
    zeroModulus? n line = some f ↔ ∃ m, Shape.moduloByZero.find? line = some m ∧
      f = ⟨.zeroModulus, n, some (m.start + 1)⟩ := by
  rw [zeroModulus?, Option.map_eq_some_iff]
  exact exists_congr fun m ↦ and_congr_right fun _ ↦ eq_comm

/-- The finding on the loop of a line is about the first header there: that its bound is critical,
or that it is a number and an index is ahead. -/
theorem loopFinding?_eq_some_iff {n : Nat} {line : List Char} {ahead : List (List Char)}
    {f : Finding} :
    loopFinding? n line ahead = some f ↔ ∃ h, find? line = some h ∧
      (h.isCritical = true ∧ f = inclusiveBoundFinding n h ∨
        h.isCritical = false ∧ hasLiteralBound h = true ∧ indexedAhead h line ahead = true ∧
          f = ⟨.literalBound, n, some (h.start + 1)⟩) := by
  rw [loopFinding?, Option.bind_eq_bind, Option.bind_eq_some_iff]
  refine exists_congr fun h ↦ and_congr_right fun _ ↦ ?_
  cases h.isCritical <;> cases hasLiteralBound h <;> cases indexedAhead h line ahead <;>
    simp [eq_comm]

theorem mem_safetyOnLine {n : Nat} {line : List Char} {ahead : List (List Char)} {f : Finding} :
    f ∈ safetyOnLine n line ahead ↔ loopFinding? n line ahead = some f ∨
      zeroDivisor? n line = some f ∨ zeroModulus? n line = some f := by
  rw [safetyOnLine, List.mem_append, List.mem_append, Option.mem_toList, Option.mem_toList,
    Option.mem_toList, or_assoc]

theorem line_of_mem_terminatorsOnLine {n : Nat} {line : List Char} {f : Finding}
    (hf : f ∈ terminatorsOnLine n line) : f.line = n := by
  obtain ⟨m, -, rfl⟩ := mem_terminatorsOnLine.mp hf
  rfl

theorem line_and_check_of_mem_safetyOnLine {n : Nat} {line : List Char} {ahead : List (List Char)}
    {f : Finding} (hf : f ∈ safetyOnLine n line ahead) : f.line = n ∧ f.kind.check = .safety := by
  rcases mem_safetyOnLine.mp hf with hf | hf | hf
  · obtain ⟨h, -, ⟨-, rfl⟩ | ⟨-, -, -, rfl⟩⟩ := loopFinding?_eq_some_iff.mp hf
    · exact ⟨rfl, rfl⟩
    · exact ⟨rfl, rfl⟩
  · obtain ⟨m, -, rfl⟩ := zeroDivisor?_eq_some_iff.mp hf
    exact ⟨rfl, rfl⟩
  · obtain ⟨m, -, rfl⟩ := zeroModulus?_eq_some_iff.mp hf
    exact ⟨rfl, rfl⟩

theorem line_of_mem_safetyOnLine {n : Nat} {line : List Char} {ahead : List (List Char)}
    {f : Finding} (hf : f ∈ safetyOnLine n line ahead) : f.line = n :=
  (line_and_check_of_mem_safetyOnLine hf).1

/-! ### The findings of a check -/

/-- The findings of a check. -/
def ofCheck (options : AnalysisOptions) (lines : List (List Char)) : Check → List Finding
  | .terminators => terminators lines
  | .braces => braces lines
  | .safety => safety options.lookahead lines

section Checks

variable {options : AnalysisOptions} {lines : List (List Char)} {f : Finding}

theorem check_of_mem_ofCheck {check : Check} (hf : f ∈ ofCheck options lines check) :
    f.kind.check = check := by
  cases check with
  | terminators =>
    rw [kind_of_mem_terminatorsFrom hf]
    rfl
  | braces =>
    rw [kind_of_mem_bracesFrom hf]
    rfl
  | safety =>
    obtain ⟨i, line, -, hf⟩ := (isWalk_safetyFrom options.lookahead).mem_iff.mp hf
    exact (line_and_check_of_mem_safetyOnLine hf).2

theorem findings_eq (options : AnalysisOptions) (lines : List (List Char)) :
    findings options lines = ofCheck options lines .terminators ++ ofCheck options lines .braces ++
      ofCheck options lines .safety := rfl

/-- What is found is found by the check that makes findings of the kind. -/
theorem mem_findings_iff :
    f ∈ findings options lines ↔ f ∈ ofCheck options lines f.kind.check := by
  rw [findings_eq, List.mem_append, List.mem_append]
  constructor
  · rintro ((hf | hf) | hf)
    · rwa [check_of_mem_ofCheck hf]
    · rwa [check_of_mem_ofCheck hf]
    · rwa [check_of_mem_ofCheck hf]
  · intro hf
    cases hcheck : f.kind.check with
    | terminators => exact .inl (.inl (hcheck ▸ hf))
    | braces => exact .inl (.inr (hcheck ▸ hf))
    | safety => exact .inr (hcheck ▸ hf)

/-- A finding on terminators was made on one of the lines. -/
theorem mem_findings_of_terminators (hcheck : f.kind.check = .terminators) :
    f ∈ findings options lines ↔
      ∃ i line, lines[i]? = some line ∧ f ∈ terminatorsOnLine (i + 1) line := by
  have hwalk : f ∈ terminators lines ↔
      ∃ i line, lines[i]? = some line ∧ f ∈ terminatorsOnLine (1 + i) line :=
    isWalk_terminatorsFrom.mem_iff
  simp only [Nat.add_comm 1] at hwalk
  rw [mem_findings_iff, hcheck]
  exact hwalk

/-- A finding on braces was made by the check of the braces. -/
theorem mem_findings_of_braces (hcheck : f.kind.check = .braces) :
    f ∈ findings options lines ↔ f ∈ braces lines := by
  rw [mem_findings_iff, hcheck]
  exact Iff.rfl

/-- A finding on safety was made on one of the lines, from that line and those ahead of it. -/
theorem mem_findings_of_safety (hcheck : f.kind.check = .safety) :
    f ∈ findings options lines ↔ ∃ i line, lines[i]? = some line ∧
      f ∈ safetyOnLine (i + 1) line ((lines.drop (i + 1)).take options.lookahead) := by
  have hwalk : f ∈ safety options.lookahead lines ↔ ∃ i line, lines[i]? = some line ∧
      f ∈ safetyOnLine (1 + i) line ((lines.drop (i + 1)).take options.lookahead) :=
    (isWalk_safetyFrom options.lookahead).mem_iff
  simp only [Nat.add_comm 1] at hwalk
  rw [mem_findings_iff, hcheck]
  exact hwalk

theorem ofKind_eq_self {kind : FindingKind} {fs : List Finding} (h : ∀ f ∈ fs, f.kind = kind) :
    ofKind kind fs = fs :=
  List.filter_eq_self.mpr fun f hf ↦ beq_iff_eq.mpr (h f hf)

/-- The findings of a kind are those in the check that makes them. -/
theorem findingsOf_eq (options : AnalysisOptions) (text : List Char) (kind : FindingKind) :
    (analyze options text).findingsOf kind =
      ofKind kind (ofCheck options (Text.lines text) kind.check) := by
  have hother (check : Check) (hne : check ≠ kind.check) :
      ofKind kind (ofCheck options (Text.lines text) check) = [] := by
    unfold ofKind
    rw [List.filter_eq_nil_iff]
    intro f hf hkind
    have hcheck := check_of_mem_ofCheck hf
    rw [eq_of_beq hkind] at hcheck
    exact hne hcheck.symm
  change ofKind kind (findings options (Text.lines text)) = _
  rw [findings_eq, ofKind_append, ofKind_append]
  cases hcheck : kind.check with
  | terminators =>
    rw [hother .braces (by simp [hcheck]), hother .safety (by simp [hcheck]), List.append_nil,
      List.append_nil]
  | braces =>
    rw [hother .terminators (by simp [hcheck]), hother .safety (by simp [hcheck]),
      List.nil_append, List.append_nil]
  | safety =>
    rw [hother .terminators (by simp [hcheck]), hother .braces (by simp [hcheck]),
      List.nil_append, List.nil_append]

/-- The findings on unbalanced blocks are those on braces. -/
theorem findingsOf_unbalancedBlock (options : AnalysisOptions) (text : List Char) :
    (analyze options text).findingsOf .unbalancedBlock = braces (Text.lines text) := by
  rw [findingsOf_eq]
  exact ofKind_eq_self fun _ ↦ kind_of_mem_bracesFrom

/-- Of two findings of one check, the one that is reported first does not stand on a later line. -/
theorem pairwise_findings (hbraces : (braces lines).Pairwise fun f g ↦ f.line ≤ g.line) :
    (findings options lines).Pairwise fun f g ↦ f.kind.check = g.kind.check → f.line ≤ g.line := by
  have hordered (check : Check) :
      (ofCheck options lines check).Pairwise fun f g ↦ f.line ≤ g.line := by
    cases check with
    | terminators =>
      exact isWalk_terminatorsFrom.pairwise (fun _ _ _ _ ↦ line_of_mem_terminatorsOnLine) 1 lines
    | braces => exact hbraces
    | safety =>
      exact (isWalk_safetyFrom options.lookahead).pairwise
        (fun _ _ _ _ ↦ line_of_mem_safetyOnLine) 1 lines
  have hsame (check : Check) : (ofCheck options lines check).Pairwise fun f g ↦
      f.kind.check = g.kind.check → f.line ≤ g.line := by
    refine (hordered check).imp ?_
    intro f g hle _
    exact hle
  have hapart {c d : Check} (hne : c ≠ d) {f g : Finding} (hf : f ∈ ofCheck options lines c)
      (hg : g ∈ ofCheck options lines d) : f.kind.check = g.kind.check → f.line ≤ g.line := by
    intro hcheck
    rw [check_of_mem_ofCheck hf, check_of_mem_ofCheck hg] at hcheck
    exact absurd hcheck hne
  rw [findings_eq, List.pairwise_append, List.pairwise_append]
  refine ⟨⟨hsame .terminators, hsame .braces, ?_⟩, hsame .safety, ?_⟩
  · intro f hf g hg
    exact hapart (by decide) hf hg
  · intro f hf g hg
    rcases List.mem_append.mp hf with hf | hf
    · exact hapart (by decide) hf hg
    · exact hapart (by decide) hf hg

end Checks

end Analysis

end FlexGate
