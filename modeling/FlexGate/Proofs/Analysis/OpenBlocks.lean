import FlexGate.Proofs.Analysis.Levels
import FlexGate.Proofs.Pattern.Scan
import FlexGate.Proofs.Text.Braces

/-!
# The last block that is never closed

A program that stays open is reported with a hint: the line on which its last unclosed block opens.
The hint is not taken from the braces that belong together. It names the last line that has an
opening brace with no closing brace behind it on the line (`exists_namesOpenLine_iff`), whether that
brace is closed on a later line or not. A line whose open brace has a block opened and closed behind
it is passed over.

So the hint is right just when the lines behind the one it names close every brace that they open,
and of the braces that the named line leaves open not all (`opening_hints_right_iff`). What the
hint belongs to is never wrong: a program that is reported to stay open has an unclosed brace
(`openBehind_ne_nil_of_staysOpen`).
-/

set_option autoImplicit false
set_option relaxedAutoImplicit false

namespace FlexGate

open Text (unmatched openBehind)

namespace Text

/-! ### Lines that end open -/

/-- A line has an opening brace with no closing brace behind it. -/
def EndsOpen (line : List Char) : Prop :=
  ∃ before after, line = before ++ '{' :: after ∧ '}' ∉ after

theorem endsOpen_withoutReturn (line : List Char) :
    EndsOpen (withoutReturn line) ↔ EndsOpen line := by
  rcases exists_concat_or_withoutReturn_eq line with ⟨front, rfl⟩ | h
  · rw [withoutReturn_concat]
    constructor
    · rintro ⟨before, after, rfl, hafter⟩
      exact ⟨before, after ++ ['\r'], by simp, by simpa using hafter⟩
    · rintro ⟨before, after, heq, hafter⟩
      obtain rfl | ⟨after, c, rfl⟩ := List.eq_nil_or_concat after
      · have hlast := congrArg List.getLast? heq
        simp at hlast
      · rw [List.concat_eq_append] at heq hafter
        rw [← List.cons_append, ← List.append_assoc] at heq
        obtain ⟨rfl, -⟩ := List.append_inj' heq rfl
        exact ⟨before, after, rfl, fun hmem ↦ hafter (List.mem_append_left _ hmem)⟩
  · rw [h]

/-- The last line that ends open, with the lines before and behind it. -/
structure IsLastOpenEnd (lines before : List (List Char)) (line : List Char)
    (behind : List (List Char)) : Prop where
  eq : lines = before ++ line :: behind
  endsOpen : EndsOpen line
  not_behind : ∀ later ∈ behind, ¬ EndsOpen later

/-- The lines behind a line close every brace that they open, and not all that the line leaves
open. -/
structure StaysLast (line : List Char) (behind : List (List Char)) : Prop where
  openings : (unmatched behind.flatten).openings = 0
  closings : (unmatched behind.flatten).closings < (unmatched line).openings

/-- A line is the last that has an unclosed brace if it stays the last. -/
theorem isGreatest_openBehind_iff {before behind : List (List Char)} {line : List Char} :
    (before.length + 1 ∈ openBehind [] 1 (before ++ line :: behind) ∧
      ∀ k ∈ openBehind [] 1 (before ++ line :: behind), k ≤ before.length + 1) ↔
      StaysLast line behind := by
  have hstack : openBehind [] 1 (before ++ line :: behind) =
      openBehind [] (before.length + 2) behind ++
        (List.replicate (unmatched line).openings (before.length + 1) ++
          (openBehind [] 1 before).drop (unmatched line).closings).drop
            (unmatched behind.flatten).closings := by
    rw [Text.openBehind_append, openBehind, Text.openBehind_eq, Text.foldl_matchBrace,
      Nat.add_comm 1]
  have hbefore {k : Nat} (hk : k ∈ openBehind [] 1 before) : k < before.length + 1 := by
    have := (le_and_lt_of_mem_openBehind hk).2
    omega
  rw [hstack, List.drop_append, List.drop_replicate, List.length_replicate]
  constructor
  · rintro ⟨hmem, hle⟩
    have hnil : openBehind [] (before.length + 2) behind = [] := by
      rw [List.eq_nil_iff_forall_not_mem]
      intro k hk
      have hlow := (le_and_lt_of_mem_openBehind hk).1
      have hhigh := hle k (List.mem_append_left _ hk)
      omega
    refine ⟨?_, ?_⟩
    · rw [← length_openBehind (before.length + 2), hnil, List.length_nil]
    · rw [hnil, List.nil_append] at hmem
      by_contra hall
      rw [Nat.sub_eq_zero_of_le (Nat.le_of_not_lt hall), List.replicate_zero, List.nil_append]
        at hmem
      exact absurd (hbefore (List.mem_of_mem_drop (List.mem_of_mem_drop hmem))) (lt_irrefl _)
  · rintro ⟨hopenings, hclosings⟩
    have hnil : openBehind [] (before.length + 2) behind = [] := by
      rw [← List.length_eq_zero_iff, length_openBehind, hopenings]
    rw [hnil, List.nil_append]
    refine ⟨List.mem_append_left _ (List.mem_replicate.mpr ⟨by omega, rfl⟩), fun k hk ↦ ?_⟩
    rcases List.mem_append.mp hk with hk | hk
    · exact Nat.le_of_eq (List.eq_of_mem_replicate hk)
    · exact Nat.le_of_lt (hbefore (List.mem_of_mem_drop (List.mem_of_mem_drop hk)))

end Text

namespace Analysis

open Pattern Shape

/-! ### The line that is named -/

theorem occursIn_unclosedBrace {line : List Char} :
    unclosedBrace.occursIn line = true ↔ Text.EndsOpen line := by
  simp only [occursIn_iff, unclosedBrace, Pattern.sequence, token, mem_ends_seq, mem_ends_char,
    mem_ends_many, mem_ends_edge]
  constructor
  · rintro ⟨lead, x, rest, d, rfl, _, ⟨y, ahead, hahead, hy, rfl⟩, _, ⟨run, after, rfl, hrun, rfl⟩,
      hend, -⟩
    obtain ⟨rfl, rfl⟩ := List.cons.inj hahead
    obtain rfl := eq_of_beq hy
    obtain rfl := List.isEmpty_iff.mp hend
    refine ⟨lead, run ++ [], rfl, ?_⟩
    rw [List.append_nil]
    exact fun hmem ↦ absurd rfl (bne_iff_ne.mp (hrun '}' hmem))
  · rintro ⟨before, after, rfl, hafter⟩
    refine ⟨before, '{', after, _, rfl, _, ⟨'{', after, rfl, by decide, rfl⟩, _,
      ⟨after, [], (List.append_nil after).symm, fun c hc ↦ ?_, rfl⟩, rfl, rfl⟩
    exact bne_iff_ne.mpr (ne_of_mem_of_not_mem hc hafter)

theorem lastLineWith?_eq_none_iff {p : Pattern} {lines : List (List Char)} :
    lastLineWith? p lines = none ↔ ∀ line ∈ lines, p.occursIn line = false := by
  induction lines with
  | nil => simp [lastLineWith?]
  | cons line lines ih =>
    rw [List.forall_mem_cons, ← ih, lastLineWith?]
    cases lastLineWith? p lines <;> cases p.occursIn line <;> simp

theorem lastLineWith?_eq_some_iff {p : Pattern} {lines : List (List Char)} {n : Nat} :
    lastLineWith? p lines = some n ↔ ∃ before line behind, lines = before ++ line :: behind ∧
      p.occursIn line = true ∧ (∀ later ∈ behind, p.occursIn later = false) ∧
        n = before.length + 1 := by
  induction lines generalizing n with
  | nil => simp [lastLineWith?]
  | cons line lines ih =>
    rw [lastLineWith?]
    constructor
    · intro h
      cases hlater : lastLineWith? p lines with
      | some k =>
        obtain ⟨before, found, behind, rfl, hfound, hbehind, rfl⟩ := ih.mp hlater
        rw [hlater] at h
        exact ⟨line :: before, found, behind, rfl, hfound, hbehind, (Option.some.inj h).symm⟩
      | none =>
        simp only [hlater, Option.ite_none_right_eq_some] at h
        exact ⟨[], line, lines, rfl, h.1, lastLineWith?_eq_none_iff.mp hlater,
          (Option.some.inj h.2).symm⟩
    · rintro ⟨before, found, behind, heq, hfound, hbehind, rfl⟩
      cases before with
      | nil =>
        obtain ⟨rfl, rfl⟩ := List.cons.inj heq
        rw [lastLineWith?_eq_none_iff.mpr hbehind]
        exact if_pos hfound
      | cons first before =>
        rw [ih.mpr ⟨before, found, behind, (List.cons.inj heq).2, hfound, hbehind, rfl⟩]
        rfl

/-- The last line that ends open, of lines with their carriage returns. -/
theorem lastLineWith?_lines_eq_some_iff {text : List Char} {n : Nat} :
    lastLineWith? unclosedBrace (Text.lines text) = some n ↔ ∃ before line behind,
      Text.IsLastOpenEnd (Text.splitLines text) before line behind ∧ n = before.length + 1 := by
  have hreads (line : List Char) :
      unclosedBrace.occursIn (Text.withoutReturn line) = unclosedBrace.occursIn line := by
    rw [Bool.eq_iff_iff, occursIn_unclosedBrace, occursIn_unclosedBrace,
      Text.endsOpen_withoutReturn]
  have hmap (lines : List (List Char)) :
      lastLineWith? unclosedBrace (lines.map Text.withoutReturn) =
        lastLineWith? unclosedBrace lines := by
    induction lines with
    | nil => rfl
    | cons line lines ih => rw [List.map_cons, lastLineWith?, ih, hreads, lastLineWith?]
  rw [Text.lines, hmap, lastLineWith?_eq_some_iff]
  simp only [occursIn_unclosedBrace, ← Bool.not_eq_true]
  constructor
  · rintro ⟨before, line, behind, heq, hline, hbehind, rfl⟩
    exact ⟨before, line, behind, ⟨heq, hline, hbehind⟩, rfl⟩
  · rintro ⟨before, line, behind, ⟨heq, hline, hbehind⟩, rfl⟩
    exact ⟨before, line, behind, heq, hline, hbehind, rfl⟩

theorem staysOpen_lines (text : List Char) :
    StaysOpen (Text.lines text) ↔ StaysOpen (Text.splitLines text) := by
  unfold StaysOpen
  simp only [level_lines, length_lines]

/-! ### Programs that stay open -/

/-- A text opens as many braces more than it closes as are left without a partner. -/
theorem braceBalance_eq (text : List Char) :
    braceBalance text = ((unmatched text).openings : Int) - (unmatched text).closings := by
  induction text using List.reverseRecOn with
  | nil => rfl
  | append_singleton text c ih =>
    have hstep : braceBalance [c] = if c = '{' then 1 else if c = '}' then -1 else 0 := by
      unfold braceBalance
      split_ifs with hopen hclose
      · rw [hopen]
        rfl
      · rw [hclose]
        rfl
      · simp [hopen, hclose]
    rw [braceBalance_append, ih, hstep, Text.unmatched_concat, Text.Unmatched.step]
    split_ifs <;> grind

/-- A program that stays open has a brace that is never closed. -/
theorem openBehind_ne_nil_of_staysOpen {lines : List (List Char)} (h : StaysOpen lines) :
    openBehind [] 1 lines ≠ [] := by
  obtain ⟨j, hj, hlevel⟩ := h
  have hsplit : lines.flatten = (lines.take j).flatten ++ (lines.drop j).flatten := by
    rw [← List.flatten_append, List.take_append_drop]
  have hrise : 0 < braceBalance (lines.drop j).flatten := by
    rw [level, level, List.take_length, hsplit, braceBalance_append] at hlevel
    omega
  have hopenings : 0 < (unmatched lines.flatten).openings := by
    rw [braceBalance_eq] at hrise
    rw [hsplit, Text.unmatched_append]
    change 0 < (unmatched (lines.drop j).flatten).openings + _
    omega
  rw [← Text.length_openBehind 1] at hopenings
  exact List.ne_nil_of_length_pos hopenings

end Analysis

open Analysis

/-! ### The hint -/

/-- The lines of the braces of a program that are never closed, the last first. -/
def unclosedLines (s : String) : List Nat := openBehind [] 1 (Text.splitLines s.toList)

/-- The suggestion that names the line on which the last unclosed block opens. -/
def openLineHint (n : Nat) : String :=
  "Add closing braces " ++ Text.inQuotes '}' ++
    " to match all opening braces (last unclosed block opens on line " ++ toString n ++ ")"

theorem openLineHint_injective {k n : Nat} (h : openLineHint k = openLineHint n) : k = n := by
  have hnumbers : toString k = toString n :=
    (String.append_right_inj _).mp ((String.append_left_inj _).mp h)
  have hdigits := congrArg (fun t : String ↦ Nat.ofDigitChars 10 t.toList 0) hnumbers
  simpa only [Nat.toString_eq_repr, Nat.toList_repr, Nat.ofDigitChars_ten_toDigits] using hdigits

theorem getLast?_openLineHint (n : Nat) : (openLineHint n).toList.getLast? = some ')' := by
  change (_ ++ ")" : String).toList.getLast? = _
  rw [String.toList_append, List.getLast?_append]
  rfl

theorem Defect.suggestion_openingBrace_eq_iff {openLine : Option Nat} {n : Nat} :
    (Defect.openingBrace openLine).suggestion = openLineHint n ↔ openLine = some n := by
  cases openLine with
  | none =>
    have hlast : (Defect.openingBrace none).suggestion.toList.getLast? = some 's' := by decide
    refine iff_of_false (fun h ↦ ?_) (Option.some_ne_none n).symm
    rw [h, getLast?_openLineHint] at hlast
    cases hlast
  | some k =>
    change openLineHint k = openLineHint n ↔ _
    exact ⟨fun h ↦ congrArg some (openLineHint_injective h), fun h ↦ by rw [Option.some.inj h]⟩

/-- The finding says that the last unclosed block opens on a line. -/
def Finding.NamesOpenLine (f : Finding) (n : Nat) : Prop :=
  f.defect.message = "Unmatched opening brace" ∧ f.defect.suggestion = openLineHint n

theorem Finding.namesOpenLine_iff {f : Finding} {n : Nat} :
    f.NamesOpenLine n ↔ f.defect = .openingBrace (some n) := by
  unfold NamesOpenLine
  rw [Defect.message_eq_opening_iff]
  constructor
  · rintro ⟨⟨openLine, hdefect⟩, hsuggestion⟩
    rw [hdefect, Defect.suggestion_openingBrace_eq_iff] at hsuggestion
    rw [hdefect, hsuggestion]
  · intro hdefect
    rw [hdefect]
    exact ⟨⟨some n, rfl⟩, rfl⟩

/-- The line that is named is the last one that ends open. -/
theorem exists_namesOpenLine_iff (options : AnalysisOptions) (s : String) (n : Nat) :
    (∃ f ∈ (Report.ofSource options s).findings, f.NamesOpenLine n) ↔
      StaysOpen (Text.splitLines s.toList) ∧ ∃ before line behind,
        Text.IsLastOpenEnd (Text.splitLines s.toList) before line behind ∧
          n = before.length + 1 := by
  have hmem {f : Finding} (hdefect : f.defect = .openingBrace (some n)) :
      f ∈ (Report.ofSource options s).findings ↔ f ∈ braces (Text.lines s.toList) :=
    mem_findings_of_braces (by rw [Finding.kind, hdefect]; rfl)
  rw [← lastLineWith?_lines_eq_some_iff, ← staysOpen_lines]
  simp only [Finding.namesOpenLine_iff]
  constructor
  · rintro ⟨f, hf, hdefect⟩
    rcases mem_braces_iff.mp ((hmem hdefect).mp hf) with ⟨k, -, -, -, rfl⟩ | ⟨hopen, rfl⟩
    · cases hdefect
    · exact ⟨hopen, Defect.openingBrace.inj hdefect⟩
  · rintro ⟨hopen, hlast⟩
    have hdefect : (opening (Text.lines s.toList)).defect = .openingBrace (some n) := by
      rw [opening, hlast]
    exact ⟨_, (hmem hdefect).mpr (mem_braces_iff.mpr (.inr ⟨hopen, rfl⟩)), hdefect⟩

/-- Where a line is named, a brace on it is never closed, and none on a later line. -/
def HintsRight (options : AnalysisOptions) (s : String) : Prop :=
  ∀ f ∈ (Report.ofSource options s).findings, ∀ n, f.NamesOpenLine n →
    n ∈ unclosedLines s ∧ ∀ k ∈ unclosedLines s, k ≤ n

/-- Which line the hint names, that it is given with an unclosed brace only, and when the brace on
that line is the last one: if the lines behind it close all that they open, and not all that the
line leaves open. -/
theorem opening_hints_right_iff (options : AnalysisOptions) (s : String) :
    (∀ n, (∃ f ∈ (Report.ofSource options s).findings, f.NamesOpenLine n) ↔
      StaysOpen (Text.splitLines s.toList) ∧ ∃ before line behind,
        Text.IsLastOpenEnd (Text.splitLines s.toList) before line behind ∧
          n = before.length + 1) ∧
    ((∃ f ∈ (Report.ofSource options s).findings,
      f.defect.message = "Unmatched opening brace") → unclosedLines s ≠ []) ∧
    (HintsRight options s ↔
      (StaysOpen (Text.splitLines s.toList) → ∀ before line behind,
        Text.IsLastOpenEnd (Text.splitLines s.toList) before line behind →
          Text.StaysLast line behind)) := by
  refine ⟨exists_namesOpenLine_iff options s, ?_, ?_⟩
  · rintro ⟨f, hf, hmessage⟩
    obtain ⟨openLine, hdefect⟩ := Defect.message_eq_opening_iff.mp hmessage
    have hbraces : f ∈ braces (Text.lines s.toList) :=
      (mem_findings_of_braces (by rw [Finding.kind, hdefect]; rfl)).mp hf
    rcases mem_braces_iff.mp hbraces with ⟨k, -, -, -, rfl⟩ | ⟨hopen, -⟩
    · cases hdefect
    · exact openBehind_ne_nil_of_staysOpen ((staysOpen_lines s.toList).mp hopen)
  · have hright : HintsRight options s ↔ ∀ n,
        (∃ f ∈ (Report.ofSource options s).findings, f.NamesOpenLine n) →
          n ∈ unclosedLines s ∧ ∀ k ∈ unclosedLines s, k ≤ n := by
      unfold HintsRight
      constructor
      · rintro h n ⟨f, hf, hnames⟩
        exact h f hf n hnames
      · intro h f hf n hnames
        exact h n ⟨f, hf, hnames⟩
    simp only [hright, exists_namesOpenLine_iff]
    constructor
    · intro h hopen before line behind hline
      have hgreatest := h _ ⟨hopen, before, line, behind, hline, rfl⟩
      rw [unclosedLines, hline.eq] at hgreatest
      exact Text.isGreatest_openBehind_iff.mp hgreatest
    · rintro h n ⟨hopen, before, line, behind, hline, rfl⟩
      rw [unclosedLines, hline.eq]
      exact Text.isGreatest_openBehind_iff.mpr (h hopen before line behind hline)

/-- A function with a block in it that is closed, but not closed itself. -/
def unclosedFunction : String := "sndo2 main() ".push '{' ++ "
lw sa7 {
}"

/-- The hint names the line of the inner block, which is closed on the line behind it. -/
theorem unclosedFunction_hint_not_right :
    (∃ f ∈ (Report.ofSource {} unclosedFunction).findings, f.NamesOpenLine 2) ∧
    unclosedLines unclosedFunction = [1] ∧ ¬ HintsRight {} unclosedFunction := by
  have hlines : Text.splitLines unclosedFunction.toList =
      ["sndo2 main() ".toList ++ ['{'], "lw sa7 ".toList ++ ['{'], ['}']] := by decide
  have hunclosed : unclosedLines unclosedFunction = [1] := by
    rw [unclosedLines, hlines]
    decide
  have hnamed : ∃ f ∈ (Report.ofSource {} unclosedFunction).findings, f.NamesOpenLine 2 := by
    rw [exists_namesOpenLine_iff, hlines]
    refine ⟨by decide, ["sndo2 main() ".toList ++ ['{']], "lw sa7 ".toList ++ ['{'], [['}']],
      ⟨rfl, ⟨"lw sa7 ".toList, [], by decide, by decide⟩, ?_⟩, rfl⟩
    rintro later hlater ⟨before, after, heq, -⟩
    rw [List.mem_singleton.mp hlater] at heq
    have hmem : '{' ∈ ['}'] := by
      rw [heq]
      exact List.mem_append_right _ List.mem_cons_self
    revert hmem
    decide
  refine ⟨hnamed, hunclosed, fun hright ↦ ?_⟩
  obtain ⟨f, hf, hnames⟩ := hnamed
  have hmem := (hright f hf 2 hnames).1
  rw [hunclosed] at hmem
  revert hmem
  decide

end FlexGate
