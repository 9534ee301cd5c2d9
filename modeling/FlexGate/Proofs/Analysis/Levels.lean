import FlexGate.Proofs.Analysis.Walks
import Mathlib.Data.List.Range
import Mathlib.Data.Nat.Basic

/-!
# Levels of braces

The level behind some lines of a program is the number of braces opened on them less the number
closed. The check of the braces does not carry the level from line to line but a depth, which starts
again from zero whenever it would fall below. The depth is how far the level lies above the lowest
level so far (`Lowest`): a line on which the depth would fall below zero is one where the level
sinks below every level before it, and the depth at the end is positive when the level at the end is
not the lowest one.

So the findings are given by the levels alone, with their order and all that they say (`braces_eq`):
a closing brace too many on each line that sinks, and then an opening brace too many on the last
line if the program stays open.
-/

set_option autoImplicit false
set_option relaxedAutoImplicit false

namespace FlexGate

namespace Analysis

/-! ### Levels -/

/-- The braces opened on the first lines of some lines, less those closed there. -/
def level (lines : List (List Char)) (k : Nat) : Int := braceBalance (lines.take k).flatten

/-- Behind a line, the level is lower than it was at any time before. -/
def Sinks (lines : List (List Char)) (k : Nat) : Prop := ∀ j < k, level lines k < level lines j

/-- The level at the end is not the lowest one. -/
def StaysOpen (lines : List (List Char)) : Prop :=
  ∃ j ≤ lines.length, level lines j < level lines lines.length

instance (lines : List (List Char)) (k : Nat) : Decidable (Sinks lines k) :=
  inferInstanceAs (Decidable (∀ j < k, level lines k < level lines j))

instance (lines : List (List Char)) : Decidable (StaysOpen lines) :=
  inferInstanceAs (Decidable (∃ j ≤ lines.length, level lines j < level lines lines.length))

@[simp] theorem braceBalance_nil : braceBalance [] = 0 := rfl

@[simp] theorem braceBalance_append (first second : List Char) :
    braceBalance (first ++ second) = braceBalance first + braceBalance second := by
  unfold braceBalance
  rw [List.count_append, List.count_append]
  omega

@[simp] theorem level_zero (lines : List (List Char)) : level lines 0 = 0 := rfl

/-- The level behind a line is the level before it and what the line adds. -/
theorem level_succ {lines : List (List Char)} {k : Nat} {line : List Char}
    (h : lines[k]? = some line) : level lines (k + 1) = level lines k + braceBalance line := by
  unfold level
  rw [List.take_add_one, h, Option.toList_some, List.flatten_append, braceBalance_append,
    List.flatten_singleton]

theorem level_cons_succ (line : List Char) (lines : List (List Char)) (k : Nat) :
    level (line :: lines) (k + 1) = braceBalance line + level lines k := by
  unfold level
  rw [List.take_succ_cons, List.flatten_cons, braceBalance_append]

theorem braceBalance_withoutReturn (line : List Char) :
    braceBalance (Text.withoutReturn line) = braceBalance line := by
  rcases Text.exists_concat_or_withoutReturn_eq line with ⟨front, rfl⟩ | h
  · have hreturn : braceBalance ['\r'] = 0 := by decide
    rw [Text.withoutReturn_concat, braceBalance_append, hreturn, Int.add_zero]
  · rw [h]

/-- The carriage returns that end lines do not count. -/
theorem level_lines (text : List Char) (k : Nat) :
    level (Text.lines text) k = level (Text.splitLines text) k := by
  have hlevel (lines : List (List Char)) :
      level (lines.map Text.withoutReturn) k = level lines k := by
    induction k generalizing lines with
    | zero => rfl
    | succ k ih =>
      cases lines with
      | nil => rfl
      | cons line lines =>
        rw [List.map_cons, level_cons_succ, level_cons_succ, braceBalance_withoutReturn, ih]
  exact hlevel (Text.splitLines text)

theorem length_lines (text : List Char) :
    (Text.lines text).length = (Text.splitLines text).length := by
  rw [Text.lines, List.length_map]

/-! ### The lowest level -/

/-- The lowest of the levels up to a line. -/
structure Lowest (lines : List (List Char)) (k : Nat) (low : Int) : Prop where
  le : ∀ j ≤ k, low ≤ level lines j
  attained : ∃ j ≤ k, level lines j = low

namespace Lowest

variable {lines : List (List Char)} {k : Nat} {low : Int}

theorem start (lines : List (List Char)) : Lowest lines 0 0 := by
  refine ⟨fun j hj ↦ ?_, 0, Nat.le_refl 0, level_zero lines⟩
  rw [Nat.le_zero.mp hj, level_zero]

theorem sinks_succ_iff (h : Lowest lines k low) :
    Sinks lines (k + 1) ↔ level lines (k + 1) < low := by
  constructor
  · intro hsinks
    obtain ⟨j, hj, hlevel⟩ := h.attained
    rw [← hlevel]
    exact hsinks j (Nat.lt_succ_of_le hj)
  · intro hlow j hj
    exact lt_of_lt_of_le hlow (h.le j (Nat.le_of_lt_succ hj))

theorem succ_of_lt (h : Lowest lines k low) (hlt : level lines (k + 1) < low) :
    Lowest lines (k + 1) (level lines (k + 1)) := by
  refine ⟨fun j hj ↦ ?_, k + 1, Nat.le_refl _, rfl⟩
  rcases Nat.lt_or_eq_of_le hj with hj | rfl
  · exact le_of_lt (lt_of_lt_of_le hlt (h.le j (Nat.le_of_lt_succ hj)))
  · exact le_refl _

theorem succ_of_le (h : Lowest lines k low) (hle : low ≤ level lines (k + 1)) :
    Lowest lines (k + 1) low := by
  obtain ⟨j, hj, hlevel⟩ := h.attained
  refine ⟨fun i hi ↦ ?_, j, Nat.le_succ_of_le hj, hlevel⟩
  rcases Nat.lt_or_eq_of_le hi with hi | rfl
  · exact h.le i (Nat.le_of_lt_succ hi)
  · exact hle

theorem staysOpen_iff (h : Lowest lines lines.length low) :
    StaysOpen lines ↔ low < level lines lines.length := by
  constructor
  · rintro ⟨j, hj, hlt⟩
    exact lt_of_le_of_lt (h.le j hj) hlt
  · intro hlt
    obtain ⟨j, hj, rfl⟩ := h.attained
    exact ⟨j, hj, hlt⟩

end Lowest

/-! ### The findings -/

/-- The finding on a line that sinks, with the nearest header above it that lacks its brace. -/
def closing (lines : List (List Char)) (k : Nat) : Finding :=
  ⟨.closingBrace (lastLineWith? Shape.headerWithoutBrace (lines.take (k - 1))), k, none⟩

/-- The finding on a program that stays open, with the last line that leaves a brace open. -/
def opening (lines : List (List Char)) : Finding :=
  ⟨.openingBrace (lastLineWith? Shape.unclosedBrace lines), lines.length, none⟩

/-- The lines that sink, of a number of lines from the given one on. -/
def sinking (lines : List (List Char)) (first count : Nat) : List Nat :=
  (List.range' first count).filter fun k ↦ Sinks lines k

theorem sinking_succ (lines : List (List Char)) (first count : Nat) :
    sinking lines first (count + 1) = if Sinks lines first then
      first :: sinking lines (first + 1) count else sinking lines (first + 1) count := by
  unfold sinking
  rw [List.range'_succ, List.filter_cons]
  by_cases hsinks : Sinks lines first
  · rw [if_pos hsinks, if_pos (decide_eq_true hsinks)]
  · rw [if_neg hsinks, if_neg (by rwa [decide_eq_true_iff])]

theorem mem_sinking_iff {lines : List (List Char)} {k : Nat} :
    k ∈ sinking lines 1 lines.length ↔ 1 ≤ k ∧ k ≤ lines.length ∧ Sinks lines k := by
  unfold sinking
  rw [List.mem_filter, List.mem_range'_1, decide_eq_true_iff, Nat.lt_one_add_iff, and_assoc]

/-- What is found from a line on, where the depth is the height above the lowest level so far. -/
theorem bracesFrom_eq {lines before ahead : List (List Char)} {depth : Int}
    (hlines : lines = before ++ ahead)
    (h : Lowest lines before.length (level lines before.length - depth)) :
    bracesFrom before depth ahead =
      (sinking lines (before.length + 1) ahead.length).map (closing lines) ++
        if StaysOpen lines then [opening lines] else [] := by
  induction ahead generalizing before depth with
  | nil =>
    rw [List.append_nil] at hlines
    subst hlines
    have hopen : StaysOpen lines ↔ 0 < depth := by
      rw [h.staysOpen_iff]
      omega
    simp only [bracesFrom, hopen]
    rfl
  | cons line ahead ih =>
    have hnext : lines = (before ++ [line]) ++ ahead := by
      rw [hlines, List.append_assoc, List.singleton_append]
    have hlength : (before ++ [line]).length = before.length + 1 := by simp
    have hlevel : level lines (before.length + 1) =
        level lines before.length + braceBalance line := by
      refine level_succ ?_
      rw [hlines, List.getElem?_append_right (Nat.le_refl _), Nat.sub_self]
      rfl
    have hsinks : Sinks lines (before.length + 1) ↔ depth + braceBalance line < 0 := by
      rw [h.sinks_succ_iff, hlevel]
      omega
    rw [bracesFrom, List.length_cons, sinking_succ]
    by_cases hlow : depth + braceBalance line < 0
    · have hstep : Lowest lines (before ++ [line]).length
          (level lines (before ++ [line]).length - 0) := by
        rw [hlength, Int.sub_zero]
        refine h.succ_of_lt ?_
        rw [hlevel]
        omega
      have hclosing : closing lines (before.length + 1) =
          ⟨.closingBrace (lastLineWith? Shape.headerWithoutBrace before), before.length + 1,
            none⟩ := by
        rw [closing, Nat.add_sub_cancel, hlines, List.take_left]
      rw [if_pos hlow, if_pos (hsinks.mpr hlow), ih hnext hstep, hlength, List.map_cons, hclosing,
        List.cons_append]
    · have hstep : Lowest lines (before ++ [line]).length
          (level lines (before ++ [line]).length - (depth + braceBalance line)) := by
        have hsame : level lines (before.length + 1) - (depth + braceBalance line) =
            level lines before.length - depth := by
          rw [hlevel]
          omega
        rw [hlength, hsame]
        refine h.succ_of_le ?_
        rw [hlevel]
        omega
      rw [if_neg hlow, if_neg (mt hsinks.mp hlow), ih hnext hstep, hlength]

/-- The findings on the braces of a program are told from the levels alone. -/
theorem braces_eq (lines : List (List Char)) :
    braces lines =
      (sinking lines 1 lines.length).map (closing lines) ++
        if StaysOpen lines then [opening lines] else [] :=
  bracesFrom_eq rfl (Lowest.start lines)

theorem mem_braces_iff {lines : List (List Char)} {f : Finding} :
    f ∈ braces lines ↔
      (∃ k, 1 ≤ k ∧ k ≤ lines.length ∧ Sinks lines k ∧ f = closing lines k) ∨
        StaysOpen lines ∧ f = opening lines := by
  rw [braces_eq, List.mem_append, List.mem_map]
  refine or_congr (exists_congr fun k ↦ ?_) ?_
  · rw [mem_sinking_iff, eq_comm, and_assoc, and_assoc]
  · split_ifs with hopen <;> simp [hopen]

/-- The findings on the braces stand in the order of their lines. -/
theorem pairwise_braces (lines : List (List Char)) :
    (braces lines).Pairwise fun f g ↦ f.line ≤ g.line := by
  rw [braces_eq, List.pairwise_append]
  refine ⟨?_, by split_ifs <;> simp, ?_⟩
  · rw [List.pairwise_map]
    refine (List.pairwise_le_range'.filter _).imp ?_
    intro j k hle
    exact hle
  · intro f hf g hg
    obtain ⟨k, hk, rfl⟩ := List.mem_map.mp hf
    split_ifs at hg
    · rw [List.mem_singleton.mp hg]
      exact (mem_sinking_iff.mp hk).2.1
    · exact absurd hg List.not_mem_nil

end Analysis

open Analysis

/-! ### The report -/

namespace Defect

/-- A defect without what it carries. -/
def bare : Defect → Defect
  | .closingBrace _ => .closingBrace none
  | .openingBrace _ => .openingBrace none
  | .inclusiveBound _ => .inclusiveBound []
  | d => d

/-- Every message is that of one defect, whatever the defect carries. -/
theorem message_eq_iff {d e : Defect} : d.message = e.message ↔ d.bare = e.bare := by
  have hbare (d : Defect) : d.bare.message = d.message := by cases d <;> rfl
  have hmem (d : Defect) : d.bare ∈ [terminator, closingBrace none, openingBrace none,
      inclusiveBound [], literalBound, zeroDivisor, zeroModulus] := by
    cases d <;> simp [bare]
  have hinjective : ∀ d ∈ [terminator, closingBrace none, openingBrace none, inclusiveBound [],
      literalBound, zeroDivisor, zeroModulus], ∀ e ∈ [terminator, closingBrace none,
      openingBrace none, inclusiveBound [], literalBound, zeroDivisor, zeroModulus],
      d.message = e.message → d = e := by
    decide
  constructor
  · intro h
    rw [← hbare d, ← hbare e] at h
    exact hinjective _ (hmem d) _ (hmem e) h
  · intro h
    rw [← hbare d, h, hbare]

theorem message_eq_closing_iff {d : Defect} :
    d.message = "Unmatched closing brace" ↔ ∃ header, d = .closingBrace header := by
  change d.message = (closingBrace none).message ↔ _
  rw [message_eq_iff]
  cases d <;> simp [bare]

theorem message_eq_opening_iff {d : Defect} :
    d.message = "Unmatched opening brace" ↔ ∃ openLine, d = .openingBrace openLine := by
  change d.message = (openingBrace none).message ↔ _
  rw [message_eq_iff]
  cases d <;> simp [bare]

end Defect

/-- The findings with a message are among those of a kind that has it. -/
theorem Report.filter_message_eq {r : Report} {message : String} {kind : FindingKind}
    (h : ∀ d : Defect, d.message = message → d.kind = kind) :
    (r.findings.filter fun f ↦ f.defect.message = message) =
      (r.findingsOf kind).filter fun f ↦ f.defect.message = message := by
  unfold Report.findingsOf
  rw [List.filter_filter]
  refine List.filter_congr fun f _ ↦ ?_
  by_cases hmessage : f.defect.message = message
  · simp [hmessage, Finding.kind, h f.defect hmessage]
  · simp [hmessage]

namespace Analysis

/-- The lines with a closing brace too many are those that sink. -/
theorem lines_closings (lines : List (List Char)) :
    ((braces lines).filter fun f ↦ f.defect.message = "Unmatched closing brace").map Finding.line =
      sinking lines 1 lines.length := by
  have hclosing : ((sinking lines 1 lines.length).map (closing lines)).filter
      (fun f ↦ f.defect.message = "Unmatched closing brace") =
        (sinking lines 1 lines.length).map (closing lines) := by
    rw [List.filter_eq_self]
    intro f hf
    obtain ⟨k, -, rfl⟩ := List.mem_map.mp hf
    rfl
  have hopening : (if StaysOpen lines then [opening lines] else []).filter
      (fun f ↦ f.defect.message = "Unmatched closing brace") = [] := by
    split_ifs <;> rfl
  rw [braces_eq, List.filter_append, hclosing, hopening, List.append_nil, List.map_map]
  exact List.map_id _

/-- The line with an opening brace too many is the last one, if the program stays open. -/
theorem lines_openings (lines : List (List Char)) :
    ((braces lines).filter fun f ↦ f.defect.message = "Unmatched opening brace").map Finding.line =
      if StaysOpen lines then [lines.length] else [] := by
  have hclosing : ((sinking lines 1 lines.length).map (closing lines)).filter
      (fun f ↦ f.defect.message = "Unmatched opening brace") = [] := by
    rw [List.filter_eq_nil_iff]
    intro f hf
    obtain ⟨k, -, rfl⟩ := List.mem_map.mp hf
    exact (by decide : ¬ decide ((Defect.closingBrace none).message =
      "Unmatched opening brace") = true)
  rw [braces_eq, List.filter_append, hclosing, List.nil_append]
  split_ifs <;> rfl

end Analysis

/-- The findings on unbalanced blocks: one closing brace too many on each line behind which the
level is lower than ever before, and an opening one on the last line if the level ends above its
lowest. -/
theorem brace_findings_exact (options : AnalysisOptions) (s : String) :
    ((Report.ofSource options s).findings.filter fun f ↦
        f.defect.message = "Unmatched closing brace").map Finding.line =
      ((List.range' 1 (Text.splitLines s.toList).length).filter fun k ↦
        ∀ j < k, level (Text.splitLines s.toList) k < level (Text.splitLines s.toList) j) ∧
    ((Report.ofSource options s).findings.filter fun f ↦
        f.defect.message = "Unmatched opening brace").map Finding.line =
      (if ∃ j ≤ (Text.splitLines s.toList).length, level (Text.splitLines s.toList) j <
          level (Text.splitLines s.toList) (Text.splitLines s.toList).length then
        [(Text.splitLines s.toList).length] else []) ∧
    ∀ f ∈ (Report.ofSource options s).findings, f.kind = .unbalancedBlock ↔
      f.defect.message = "Unmatched closing brace" ∨
        f.defect.message = "Unmatched opening brace" := by
  have hclosing (d : Defect) (hd : d.message = "Unmatched closing brace") :
      d.kind = .unbalancedBlock := by
    obtain ⟨header, rfl⟩ := Defect.message_eq_closing_iff.mp hd
    rfl
  have hopening (d : Defect) (hd : d.message = "Unmatched opening brace") :
      d.kind = .unbalancedBlock := by
    obtain ⟨openLine, rfl⟩ := Defect.message_eq_opening_iff.mp hd
    rfl
  have hfound : (Report.ofSource options s).findingsOf .unbalancedBlock =
      braces (Text.lines s.toList) := findingsOf_unbalancedBlock options s.toList
  refine ⟨?_, ?_, ?_⟩
  · rw [Report.filter_message_eq hclosing, hfound, lines_closings]
    unfold sinking Sinks
    simp only [level_lines, length_lines]
  · rw [Report.filter_message_eq hopening, hfound, lines_openings]
    unfold StaysOpen
    simp only [level_lines, length_lines]
  · intro f hf
    constructor
    · intro hkind
      have hmem : f ∈ braces (Text.lines s.toList) := by
        rw [← hfound]
        exact List.mem_filter.mpr ⟨hf, beq_iff_eq.mpr hkind⟩
      rcases mem_braces_iff.mp hmem with ⟨k, -, -, -, rfl⟩ | ⟨-, rfl⟩
      · exact .inl rfl
      · exact .inr rfl
    · rintro (hmessage | hmessage)
      · exact hclosing f.defect hmessage
      · exact hopening f.defect hmessage

end FlexGate
