import FlexGate.Proofs.Loop.Agreement
import FlexGate.Proofs.Loop.Corrections

/-!
# What is found in a mended program

A program that was mended is analysed again, and the findings on it are compared with those on the
program as it was, less the critical loops, by their kinds and lines. Mending changes neither how
many semicolons a line holds nor how its braces balance, so those findings are the same
(`sites_terminatorsFrom_map`, `sites_bracesFrom_map`). On a line that is mended the loop has a bound
that is neither critical nor a number, and a line that is not mended is the same as before
(`indexedLiteral_line`). All that can be new is that a loop up to a number, on a line before, has an
index ahead of it: one that stood behind a call and stands behind a number now. So nothing is lost,
nothing but a possible index is new, and it is said which (`findings_after_mending`).
-/

set_option autoImplicit false
set_option relaxedAutoImplicit false

namespace FlexGate

open LoopHeader LoopBound

/-- The kind of a finding and the line it is on. -/
abbrev Site := FindingKind × Nat

def Finding.site (f : Finding) : Site := (f.kind, f.line)

namespace Report

/-- The kinds and lines of the findings of a report. -/
def sites (r : Report) : List Site := r.findings.map Finding.site

/-- The kinds and lines of the findings that are not critical loops. -/
def otherSites (r : Report) : List Site := r.sites.filter fun s ↦ s.1 ≠ .criticalLoopBound

end Report

namespace Analysis

/-! ### Semicolons and braces -/

theorem sites_terminatorsOnLine (n : Nat) (line : List Char) :
    (terminatorsOnLine n line).map Finding.site =
      List.replicate (line.count ';') (.disallowedTerminator, n) := by
  rw [terminatorsOnLine, List.map_map, ← Pattern.count_token]
  exact List.map_eq_replicate_iff.mpr fun _ _ ↦ rfl

/-- The semicolons are found on the same lines if each line keeps its number of them. -/
theorem sites_terminatorsFrom_map {change : List Char → List Char}
    (h : ∀ line, (change line).count ';' = line.count ';') (n : Nat) (lines : List (List Char)) :
    (terminatorsFrom n (lines.map change)).map Finding.site =
      (terminatorsFrom n lines).map Finding.site := by
  induction lines generalizing n with
  | nil => rfl
  | cons line lines ih =>
    rw [List.map_cons, terminatorsFrom, terminatorsFrom, List.map_append, List.map_append, ih,
      sites_terminatorsOnLine, sites_terminatorsOnLine, h]

/-- The braces are found on the same lines if each line keeps its balance. -/
theorem sites_bracesFrom_map {change : List Char → List Char}
    (h : ∀ line, braceBalance (change line) = braceBalance line) {before before' : List (List Char)}
    (hbefore : before'.length = before.length) (depth : Int) (lines : List (List Char)) :
    (bracesFrom before' depth (lines.map change)).map Finding.site =
      (bracesFrom before depth lines).map Finding.site := by
  induction lines generalizing before before' depth with
  | nil =>
    rw [List.map_nil, bracesFrom, bracesFrom, hbefore]
    split <;> rfl
  | cons line lines ih =>
    have hnext : (before' ++ [change line]).length = (before ++ [line]).length := by
      simp [hbefore]
    rw [List.map_cons, bracesFrom, bracesFrom, h]
    split
    · rw [List.map_cons, List.map_cons, ih hnext, hbefore]
      rfl
    · exact ih hnext _

/-! ### Loops and divisions -/

/-- The first header of a line is that of a loop up to a number, and an element is accessed by index
after it or on one of the lines ahead. -/
def indexedLiteral (line : List Char) (ahead : List (List Char)) : Bool :=
  (find? line).any fun h ↦ hasLiteralBound h && indexedAhead h line ahead

theorem isCritical_of_hasLiteralBound {h : LoopHeader} (hl : hasLiteralBound h = true) :
    h.isCritical = false := by
  rw [hasLiteralBound, Bool.and_eq_true, Bool.not_eq_true'] at hl
  rw [LoopHeader.isCritical, LoopBound.isCritical, hl.2, Bool.false_and]

/-- The kinds and lines of some findings that are not critical loops. -/
def otherSites (fs : List Finding) : List Site :=
  (fs.map Finding.site).filter fun s ↦ s.1 ≠ .criticalLoopBound

@[simp] theorem otherSites_append (fs gs : List Finding) :
    otherSites (fs ++ gs) = otherSites fs ++ otherSites gs := by
  simp [otherSites]

theorem otherSites_loopFinding? (n : Nat) (line : List Char) (ahead : List (List Char)) :
    otherSites (loopFinding? n line ahead).toList =
      if indexedLiteral line ahead then [(.potentialIndex, n)] else [] := by
  rw [loopFinding?, indexedLiteral]
  cases find? line with
  | none => rfl
  | some h =>
    cases hc : h.isCritical with
    | true =>
      have hl : hasLiteralBound h = false := by
        by_contra hl
        rw [isCritical_of_hasLiteralBound (Bool.eq_true_of_not_eq_false hl)] at hc
        cases hc
      simp [hc, hl, otherSites, inclusiveBoundFinding, Finding.site, Finding.kind, Defect.kind]
    | false =>
      cases hl : hasLiteralBound h <;> cases hi : indexedAhead h line ahead <;>
        simp [hc, hl, hi, otherSites, Finding.site, Finding.kind, Defect.kind]

/-- The divisions and remainders by zero on a line. -/
def zeroSites (n : Nat) (line : List Char) : List Site :=
  (if Shape.divisionByZero.occursIn line then [(.divisionByZero, n)] else []) ++
    if Shape.moduloByZero.occursIn line then [(.moduloByZero, n)] else []

theorem otherSites_safetyOnLine (n : Nat) (line : List Char) (ahead : List (List Char)) :
    otherSites (safetyOnLine n line ahead) =
      (if indexedLiteral line ahead then [(.potentialIndex, n)] else []) ++ zeroSites n line := by
  have hdivisor : otherSites (zeroDivisor? n line).toList =
      if Shape.divisionByZero.occursIn line then [(.divisionByZero, n)] else [] := by
    rw [zeroDivisor?, Pattern.occursIn]
    cases Shape.divisionByZero.find? line <;> rfl
  have hmodulus : otherSites (zeroModulus? n line).toList =
      if Shape.moduloByZero.occursIn line then [(.moduloByZero, n)] else [] := by
    rw [zeroModulus?, Pattern.occursIn]
    cases Shape.moduloByZero.find? line <;> rfl
  rw [safetyOnLine, otherSites_append, otherSites_append, otherSites_loopFinding?, hdivisor,
    hmodulus, zeroSites, List.append_assoc]

/-! ### A walk over mended lines -/

theorem zeroSites_line (n : Nat) (line : List Char) :
    zeroSites n (Repair.line line) = zeroSites n line := by
  rw [zeroSites, zeroSites, Shape.divisionByZero, Shape.moduloByZero,
    Repair.occursIn_byZero_line (by decide), Repair.occursIn_byZero_line (by decide)]

/-- The first header of a line is that of a loop up to a number, and on one of the lines ahead an
index comes to stand behind a correction. -/
def Exposed (line : List Char) (ahead : List (List Char)) : Prop :=
  ∃ h, find? line = some h ∧ hasLiteralBound h = true ∧ ∃ later ∈ ahead, Repair.ExposesIndex later

theorem indexedAhead_map_line (h : LoopHeader) (line : List Char) (ahead : List (List Char)) :
    indexedAhead h line (ahead.map Repair.line) = true ↔
      indexedAhead h line ahead = true ∨ ∃ later ∈ ahead, Repair.ExposesIndex later := by
  simp only [indexedAhead, List.any_map, Bool.or_eq_true, List.any_eq_true, Function.comp_apply,
    Repair.occursIn_indexedAccess_line, and_or_left, exists_or, or_assoc]

/-- Mending puts an index ahead of a loop where it exposes one. -/
theorem indexedLiteral_line (line : List Char) (ahead : List (List Char)) :
    indexedLiteral (Repair.line line) (ahead.map Repair.line) = true ↔
      indexedLiteral line ahead = true ∨ Exposed line ahead := by
  cases hh : find? line with
  | none =>
    rw [Repair.line_of_no_header hh]
    simp [indexedLiteral, Exposed, hh]
  | some h =>
    cases hc : h.isCritical with
    | false =>
      rw [Repair.line_of_not_critical hh hc]
      simp only [indexedLiteral, Exposed, hh, Option.any_some, Bool.and_eq_true,
        indexedAhead_map_line, Option.some.injEq, exists_eq_left', and_or_left]
    | true =>
      -- A bound with a call is not a number, before mending and after it.
      have hcalls : callsLength h.trimmedBound = true := (isCritical_iff.mp hc).1
      obtain ⟨lead, before, after, rest, hd⟩ := exists_divides hh
      have hmended := find?_line_of_critical hh hd hc
      have hbound := trimmedBound_mendedBetween hd hc
      have hnot : hasLiteralBound h = false := by
        rw [hasLiteralBound, hcalls, Bool.not_true, Bool.and_false]
      have hnot' : hasLiteralBound (h.mendedBetween before after) = false := by
        rw [hasLiteralBound, hbound, callsLength_adjust hcalls, Bool.not_true, Bool.and_false]
      simp [indexedLiteral, Exposed, hh, hmended, hnot, hnot']

theorem sublist_of_imp {s : Site} {a b : Bool} (h : a = true → b = true) :
    (if a then [s] else []).Sublist (if b then [s] else []) := by
  cases a with
  | false => exact List.nil_sublist _
  | true => rw [h rfl]

theorem sublist_otherSites_safetyFrom (lookahead n : Nat) (lines : List (List Char)) :
    (otherSites (safetyFrom lookahead n lines)).Sublist
      (otherSites (safetyFrom lookahead n (lines.map Repair.line))) := by
  induction lines generalizing n with
  | nil => exact List.Sublist.refl _
  | cons line lines ih =>
    have hloop := sublist_of_imp (s := (.potentialIndex, n)) fun h ↦
      (indexedLiteral_line line (lines.take lookahead)).mpr (.inl h)
    rw [List.map_cons, safetyFrom, safetyFrom, otherSites_append, otherSites_append,
      otherSites_safetyOnLine, otherSites_safetyOnLine, zeroSites_line, ← List.map_take]
    exact (hloop.append (List.Sublist.refl _)).append (ih (n + 1))

/-- The sites of the kinds other than a possible index. -/
def certain (sites : List Site) : List Site := sites.filter fun s ↦ s.1 ≠ .potentialIndex

@[simp] theorem certain_append (first second : List Site) :
    certain (first ++ second) = certain first ++ certain second := by
  simp [certain]

theorem certain_ite (b : Bool) (n : Nat) :
    certain (if b then [(.potentialIndex, n)] else []) = [] := by
  cases b <;> rfl

theorem certain_otherSites_safetyFrom (lookahead n : Nat) (lines : List (List Char)) :
    certain (otherSites (safetyFrom lookahead n (lines.map Repair.line))) =
      certain (otherSites (safetyFrom lookahead n lines)) := by
  induction lines generalizing n with
  | nil => rfl
  | cons line lines ih =>
    rw [List.map_cons, safetyFrom, safetyFrom]
    simp only [otherSites_append, otherSites_safetyOnLine, zeroSites_line, certain_append,
      certain_ite, ih]

/-! ### Possible indices -/

theorem potentialIndex_not_mem_zeroSites (k n : Nat) (line : List Char) :
    (.potentialIndex, k) ∉ zeroSites n line := by
  rw [zeroSites, List.mem_append]
  rintro (h | h) <;> split at h <;> simp at h

theorem mem_ite_singleton {s t : Site} {b : Bool} :
    s ∈ (if b then [t] else []) ↔ b = true ∧ s = t := by
  cases b <;> simp

theorem mem_otherSites_safetyFrom {lookahead n k : Nat} {lines : List (List Char)} :
    (.potentialIndex, k) ∈ otherSites (safetyFrom lookahead n lines) ↔
      ∃ i line, k = n + i ∧ lines[i]? = some line ∧
        indexedLiteral line ((lines.drop (i + 1)).take lookahead) = true := by
  induction lines generalizing n with
  | nil => simp [safetyFrom, otherSites]
  | cons first lines ih =>
    rw [safetyFrom, otherSites_append, List.mem_append, otherSites_safetyOnLine, List.mem_append,
      ih, or_iff_left (potentialIndex_not_mem_zeroSites k n first), mem_ite_singleton]
    constructor
    · rintro (⟨hindexed, heq⟩ | ⟨i, line, rfl, hi, hindexed⟩)
      · exact ⟨0, first, (Prod.mk.inj heq).2, rfl, hindexed⟩
      · exact ⟨i + 1, line, by omega, hi, hindexed⟩
    · rintro ⟨i, line, rfl, hi, hindexed⟩
      cases i with
      | zero =>
        obtain rfl := Option.some.inj hi
        exact .inl ⟨hindexed, rfl⟩
      | succ i => exact .inr ⟨i, line, by omega, hi, hindexed⟩

/-- There is at most one possible index on a line. -/
theorem count_otherSites_safetyFrom_le (lookahead n k : Nat) (lines : List (List Char)) :
    (otherSites (safetyFrom lookahead n lines)).count (.potentialIndex, k) ≤ 1 := by
  induction lines generalizing n with
  | nil => exact Nat.zero_le 1
  | cons line lines ih =>
    have hzero : (zeroSites n line).count (.potentialIndex, k) = 0 :=
      List.count_eq_zero.mpr (potentialIndex_not_mem_zeroSites k n line)
    rw [safetyFrom, otherSites_append, List.count_append, otherSites_safetyOnLine,
      List.count_append, hzero, Nat.add_zero]
    by_cases hk : n = k
    · -- The later lines have later numbers.
      have hlater : (.potentialIndex, k) ∉ otherSites (safetyFrom lookahead (n + 1) lines) := by
        intro hmem
        obtain ⟨i, -, heq, -⟩ := mem_otherSites_safetyFrom.mp hmem
        omega
      rw [List.count_eq_zero.mpr hlater, Nat.add_zero]
      split
      · exact List.count_le_length
      · exact Nat.zero_le 1
    · have hfirst : (if indexedLiteral line (lines.take lookahead) then
          [(FindingKind.potentialIndex, n)] else []).count (.potentialIndex, k) = 0 := by
        rw [List.count_eq_zero, mem_ite_singleton]
        exact fun h ↦ hk (Prod.mk.inj h.2).2.symm
      rw [hfirst, Nat.zero_add]
      exact ih (n + 1)

/-! ### The whole analysis -/

theorem otherSites_findings (options : AnalysisOptions) (lines : List (List Char)) :
    otherSites (findings options lines) = otherSites (terminators lines) ++
      otherSites (braces lines) ++ otherSites (safety options.lookahead lines) := by
  rw [findings, otherSites_append, otherSites_append]

theorem otherSites_terminators_map_line (lines : List (List Char)) :
    otherSites (terminators (lines.map Repair.line)) = otherSites (terminators lines) := by
  rw [otherSites, terminators, sites_terminatorsFrom_map (Repair.count_line (by decide))]
  rfl

theorem otherSites_braces_map_line (lines : List (List Char)) :
    otherSites (braces (lines.map Repair.line)) = otherSites (braces lines) := by
  have hbalance (line : List Char) : braceBalance (Repair.line line) = braceBalance line := by
    rw [braceBalance, Repair.count_line (by decide), Repair.count_line (by decide), braceBalance]
  rw [otherSites, braces, sites_bracesFrom_map hbalance rfl]
  rfl

theorem not_mem_otherSites_of_kind {kind : FindingKind} {fs : List Finding}
    (h : ∀ f ∈ fs, f.kind = kind) (hne : kind ≠ .potentialIndex) (k : Nat) :
    (.potentialIndex, k) ∉ otherSites fs := by
  intro hmem
  obtain ⟨f, hf, hsite⟩ := List.mem_map.mp (List.mem_of_mem_filter hmem)
  exact hne ((h f hf).symm.trans (Prod.mk.inj hsite).1)

theorem mem_otherSites_findings {options : AnalysisOptions} {lines : List (List Char)} {k : Nat} :
    (.potentialIndex, k) ∈ otherSites (findings options lines) ↔
      ∃ i line, k = i + 1 ∧ lines[i]? = some line ∧
        indexedLiteral line ((lines.drop (i + 1)).take options.lookahead) = true := by
  have hterminators : (.potentialIndex, k) ∉ otherSites (terminators lines) :=
    not_mem_otherSites_of_kind (fun _ ↦ kind_of_mem_terminatorsFrom) (by decide) k
  have hbraces : (.potentialIndex, k) ∉ otherSites (braces lines) :=
    not_mem_otherSites_of_kind (fun _ ↦ kind_of_mem_bracesFrom) (by decide) k
  rw [otherSites_findings, List.mem_append, List.mem_append, or_iff_right hterminators,
    or_iff_right hbraces, safety, mem_otherSites_safetyFrom]
  simp only [Nat.add_comm 1]

/-- Mending loses nothing that is not a critical loop. -/
theorem sublist_otherSites_findings (options : AnalysisOptions) (lines : List (List Char)) :
    (otherSites (findings options lines)).Sublist
      (otherSites (findings options (lines.map Repair.line))) := by
  rw [otherSites_findings, otherSites_findings, otherSites_terminators_map_line,
    otherSites_braces_map_line]
  exact (List.Sublist.refl _).append (sublist_otherSites_safetyFrom options.lookahead 1 lines)

theorem certain_otherSites_findings (options : AnalysisOptions) (lines : List (List Char)) :
    certain (otherSites (findings options (lines.map Repair.line))) =
      certain (otherSites (findings options lines)) := by
  simp only [otherSites_findings, otherSites_terminators_map_line, otherSites_braces_map_line,
    certain_append, safety, certain_otherSites_safetyFrom]

theorem count_otherSites_findings_le (options : AnalysisOptions) (lines : List (List Char))
    (k : Nat) : (otherSites (findings options lines)).count (.potentialIndex, k) ≤ 1 := by
  have hterminators : (otherSites (terminators lines)).count (.potentialIndex, k) = 0 :=
    List.count_eq_zero.mpr
      (not_mem_otherSites_of_kind (fun _ ↦ kind_of_mem_terminatorsFrom) (by decide) k)
  have hbraces : (otherSites (braces lines)).count (.potentialIndex, k) = 0 :=
    List.count_eq_zero.mpr
      (not_mem_otherSites_of_kind (fun _ ↦ kind_of_mem_bracesFrom) (by decide) k)
  rw [otherSites_findings, List.count_append, List.count_append, hterminators, hbraces,
    Nat.zero_add]
  exact count_otherSites_safetyFrom_le options.lookahead 1 k lines

/-- Sites that some sites stand among, with the same certain ones, are no more than those if the
possible indices are not. -/
theorem eq_of_sublist {first second : List Site} (h : first.Sublist second)
    (hcertain : certain second = certain first)
    (hcount : ∀ k, second.count (.potentialIndex, k) ≤ 1)
    (hmem : ∀ k, (.potentialIndex, k) ∈ second → (.potentialIndex, k) ∈ first) :
    second = first := by
  have hperm : second.Perm first := by
    refine List.perm_iff_count.mpr fun ⟨kind, k⟩ ↦ Nat.le_antisymm ?_ (h.count_le _)
    by_cases hkind : kind = .potentialIndex
    · subst hkind
      by_cases hin : (.potentialIndex, k) ∈ second
      · exact (hcount k).trans (List.count_pos_iff.mpr (hmem k hin))
      · rw [List.count_eq_zero.mpr hin]
        exact Nat.zero_le _
    · have hcounts (sites : List Site) : (certain sites).count (kind, k) = sites.count (kind, k) :=
        List.count_filter (by simpa using hkind)
      rw [← hcounts second, hcertain, hcounts first]
  exact (h.eq_of_length hperm.length_eq.symm).symm

end Analysis

open Analysis

/-- Mending a program puts an index ahead of the loop on a line. -/
def ExposedAt (options : AnalysisOptions) (text : List Char) (k : Nat) : Prop :=
  ∃ i line, k = i + 1 ∧ (Text.lines text)[i]? = some line ∧
    Exposed line (((Text.lines text).drop (i + 1)).take options.lookahead)

theorem mem_otherSites_map_line {options : AnalysisOptions} {text : List Char} {k : Nat} :
    (.potentialIndex, k) ∈ otherSites (findings options ((Text.lines text).map Repair.line)) ↔
      (.potentialIndex, k) ∈ otherSites (findings options (Text.lines text)) ∨
        ExposedAt options text k := by
  simp only [mem_otherSites_findings, ExposedAt, List.getElem?_map, Option.map_eq_some_iff,
    ← List.map_drop, ← List.map_take]
  constructor
  · rintro ⟨i, -, rfl, ⟨line, hi, rfl⟩, hindexed⟩
    rcases (indexedLiteral_line _ _).mp hindexed with hindexed | hexposed
    · exact .inl ⟨i, line, rfl, hi, hindexed⟩
    · exact .inr ⟨i, line, rfl, hi, hexposed⟩
  · rintro (⟨i, line, rfl, hi, hindexed⟩ | ⟨i, line, rfl, hi, hexposed⟩)
    · exact ⟨i, _, rfl, ⟨line, hi, rfl⟩, (indexedLiteral_line _ _).mpr (.inl hindexed)⟩
    · exact ⟨i, _, rfl, ⟨line, hi, rfl⟩, (indexedLiteral_line _ _).mpr (.inr hexposed)⟩

/-- The findings on a mended program are those on its mended lines, and no critical loop is among
them. -/
theorem sites_mended (options : AnalysisOptions) (s : String) :
    (Report.ofSource options (Repair.mended s)).sites =
      otherSites (findings options ((Text.lines s.toList).map Repair.line)) := by
  have hsafe : (Report.ofSource options (Repair.mended s)).hasCriticalLoop = false :=
    hasCriticalLoop_ofSource_eq_false_iff.mpr (isLoopSafe_mended s)
  have hnone : ∀ site ∈ (Report.ofSource options (Repair.mended s)).sites,
      decide (site.1 ≠ .criticalLoopBound) = true := by
    intro site hsite
    obtain ⟨f, hf, rfl⟩ := List.mem_map.mp hsite
    have hf' : f.isCritical = false := by
      simpa using List.any_eq_false.mp hsafe f hf
    rw [Finding.isCritical, Defect.isCritical, beq_eq_false_iff_ne] at hf'
    exact decide_eq_true hf'
  have hlines : Text.lines (Repair.mended s).toList = (Text.lines s.toList).map Repair.line := by
    rw [Repair.toList_mended, Repair.lines_source]
  rw [← hlines]
  exact (List.filter_eq_self.mpr hnone).symm

/-- The findings on a mended program, by kind and line, are those on the program as it was that are
not critical loops, in their order, and possible indices where mending puts an index ahead of a loop
up to a number, at most one on a line. So nothing is new exactly when the loops that this happens to
had such a finding already, and nothing is new if mending puts no index behind a correction. -/
theorem findings_after_mending (options : AnalysisOptions) (s : String) :
    let before := (Report.ofSource options s).otherSites
    let after := (Report.ofSource options (Repair.mended s)).sites
    before.Sublist after ∧
    certain after = certain before ∧
    (∀ k, (.potentialIndex, k) ∈ after ↔
      (.potentialIndex, k) ∈ before ∨ ExposedAt options s.toList k) ∧
    (∀ k, after.count (.potentialIndex, k) ≤ 1) ∧
    (after = before ↔ ∀ k, ExposedAt options s.toList k → (.potentialIndex, k) ∈ before) ∧
    ((∀ line ∈ Text.lines s.toList, ¬ Repair.ExposesIndex line) → after = before) := by
  intro before after
  have hafter : after = otherSites (findings options ((Text.lines s.toList).map Repair.line)) :=
    sites_mended options s
  have hsublist : before.Sublist after :=
    hafter ▸ sublist_otherSites_findings options (Text.lines s.toList)
  have hcertain : certain after = certain before :=
    hafter ▸ certain_otherSites_findings options (Text.lines s.toList)
  have hmem (k : Nat) : (.potentialIndex, k) ∈ after ↔
      (.potentialIndex, k) ∈ before ∨ ExposedAt options s.toList k :=
    hafter ▸ mem_otherSites_map_line
  have hcount (k : Nat) : after.count (.potentialIndex, k) ≤ 1 :=
    hafter ▸ count_otherSites_findings_le options _ k
  have heq : after = before ↔
      ∀ k, ExposedAt options s.toList k → (.potentialIndex, k) ∈ before := by
    constructor
    · intro h k hexposed
      exact h ▸ (hmem k).mpr (.inr hexposed)
    · intro h
      exact eq_of_sublist hsublist hcertain hcount fun k hk ↦ ((hmem k).mp hk).elim id (h k)
  refine ⟨hsublist, hcertain, hmem, hcount, heq, fun hnone ↦ heq.mpr ?_⟩
  rintro k ⟨i, line, rfl, -, h, -, -, later, hlater, hexposes⟩
  exact absurd hexposes (hnone later (List.mem_of_mem_drop (List.mem_of_mem_take hlater)))

/-- A loop over an array, with an index behind the call in its bound, in a loop up to a number. -/
def indexedCall : String := "karr j=0 l7d 3 {
karr i=0 l7d length(a)[x] {
}
}"

/-- Mending takes the critical loop away and brings in a possible index on the line before it. -/
theorem indexedCall_gains_finding :
    (Report.ofSource {} indexedCall).sites = [(.criticalLoopBound, 2)] ∧
    (Report.ofSource {} (Repair.mended indexedCall)).sites = [(.potentialIndex, 1)] ∧
    (Report.ofSource {} (Repair.mended indexedCall)).sites ≠
      (Report.ofSource {} indexedCall).otherSites := by
  decide

end FlexGate
