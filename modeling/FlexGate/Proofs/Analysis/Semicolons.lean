import FlexGate.Proofs.Analysis.Walks
import FlexGate.Proofs.Pattern.Scan
import FlexGate.Proofs.Text.Positions

/-!
# Terminators and semicolons

A finding on a terminator names a line and a column of it, which is a place in the program
(`Finding.position?`). On a line there is one such finding for each semicolon, at its column
(`terminatorsOnLine_eq`); the carriage return that may end the line is none. The findings of later
lines are those of the text behind the first line feed, one line further down
(`terminatorsFrom_succ`). So the places of all of them, in their order, are the positions of the
semicolons in the program (`terminators_mark_semicolons`).
-/

set_option autoImplicit false
set_option relaxedAutoImplicit false

namespace FlexGate

namespace Finding

/-- The position in a text of the place that the finding names, if it names a character. -/
def position? (text : List Char) (f : Finding) : Option Nat :=
  f.column.bind (Text.position? text f.line)

/-- The finding as it is made when there is one more line before. -/
def below (f : Finding) : Finding := { f with line := f.line + 1 }

end Finding

/-- The carriage return that ends a line has no other character. -/
theorem Text.idxsOf_withoutReturn {c : Char} (hc : c ≠ '\r') (line : List Char) :
    (withoutReturn line).idxsOf c = line.idxsOf c := by
  rcases exists_concat_or_withoutReturn_eq line with ⟨front, rfl⟩ | h
  · rw [withoutReturn_concat, List.idxsOf_append, List.idxsOf_cons,
      if_neg (by simpa using hc.symm), List.idxsOf_nil, List.append_nil]
  · rw [h]

namespace Analysis

theorem terminatorsOnLine_eq (n : Nat) (line : List Char) :
    terminatorsOnLine n line = (line.idxsOf ';').map fun k ↦ ⟨.terminator, n, some (k + 1)⟩ := by
  rw [terminatorsOnLine, ← Pattern.map_start_findAll_token, List.map_map]
  rfl

theorem terminatorsFrom_succ (n : Nat) (lines : List (List Char)) :
    terminatorsFrom (n + 1) lines = (terminatorsFrom n lines).map Finding.below := by
  induction lines generalizing n with
  | nil => rfl
  | cons line lines ih =>
    rw [terminatorsFrom, terminatorsFrom, List.map_append, ih, terminatorsOnLine_eq,
      terminatorsOnLine_eq, List.map_map]
    rfl

/-- The places of a line are those of the text that starts with it. -/
theorem map_position?_terminatorsOnLine {text line : List Char}
    (hplaces : ∀ k < line.length, Text.position? text 1 (k + 1) = some k) :
    (terminatorsOnLine 1 line).map (Finding.position? text) = (line.idxsOf ';').map some := by
  rw [terminatorsOnLine_eq, List.map_map]
  refine List.map_congr_left fun k hk ↦ ?_
  have hlt : k < line.length + 0 := List.lt_add_of_mem_idxsOf k hk
  exact hplaces k hlt

/-- The findings on the text behind a line are, from the start of the line on, at the places that
they have in the text, moved by the line and its line feed. -/
theorem position?_below {line : List Char} (h : '\n' ∉ line) {rest : List Char} {f : Finding}
    (hf : f ∈ terminators (Text.lines rest)) :
    f.below.position? (line ++ '\n' :: rest) =
      (f.position? rest).map (line.length + 1 + ·) := by
  obtain ⟨i, later, -, hf⟩ := isWalk_terminatorsFrom.mem_iff.mp hf
  obtain ⟨m, -, rfl⟩ := mem_terminatorsOnLine.mp hf
  rw [Nat.add_comm 1 i]
  exact Text.position?_later h rest i (m.start + 1)

theorem map_position?_terminators (text : List Char) :
    (terminators (Text.lines text)).map (Finding.position? text) =
      (text.idxsOf ';').map some := by
  induction text using Text.induction_lines with
  | last line h =>
    have hfirst : (Text.splitLines line)[0]? = some line := by
      rw [Text.splitLines_of_not_mem h, List.getElem?_cons_zero]
    have hplaces : ∀ k < line.length, Text.position? line 1 (k + 1) = some k := by
      intro k hk
      rw [Text.position?_succ hfirst hk, Text.lineStart_zero, Nat.zero_add]
    rw [Text.lines_of_not_mem h, terminators, terminatorsFrom, terminatorsFrom, List.append_nil,
      terminatorsOnLine_eq, Text.idxsOf_withoutReturn (by decide), ← terminatorsOnLine_eq,
      map_position?_terminatorsOnLine hplaces]
  | cons line rest h ih =>
    have hlater : (terminatorsFrom 2 (Text.lines rest)).map
        (Finding.position? (line ++ '\n' :: rest)) =
          ((rest.idxsOf ';').map (line.length + 1 + ·)).map some := by
      calc (terminatorsFrom 2 (Text.lines rest)).map (Finding.position? (line ++ '\n' :: rest))
          = (terminators (Text.lines rest)).map fun f ↦
              (f.position? rest).map (line.length + 1 + ·) := by
            rw [terminatorsFrom_succ, List.map_map]
            exact List.map_congr_left fun f hf ↦ position?_below h hf
        _ = ((terminators (Text.lines rest)).map (Finding.position? rest)).map
              (Option.map (line.length + 1 + ·)) := by
            rw [List.map_map]
            rfl
        _ = ((rest.idxsOf ';').map (line.length + 1 + ·)).map some := by
            rw [ih, List.map_map, List.map_map]
            rfl
    have hpositions : (line ++ '\n' :: rest).idxsOf ';' =
        line.idxsOf ';' ++ (rest.idxsOf ';').map (line.length + 1 + ·) := by
      have hstart : rest.idxsOf ';' (line.length + 1) =
          (rest.idxsOf ';').map (· + (line.length + 1)) := List.idxsOf_start
      rw [List.idxsOf_append, List.idxsOf_cons, if_neg (by decide), Nat.zero_add, hstart]
      simp only [Nat.add_comm]
    rw [Text.lines_append_cons, Text.lines_of_not_mem h, List.singleton_append, terminators,
      terminatorsFrom, List.map_append, hlater, hpositions, List.map_append, terminatorsOnLine_eq,
      Text.idxsOf_withoutReturn (by decide), ← terminatorsOnLine_eq,
      map_position?_terminatorsOnLine fun k hk ↦ Text.position?_first h hk rest]

/-- The findings on terminators are those of the first check. -/
theorem findingsOf_disallowedTerminator (options : AnalysisOptions) (text : List Char) :
    (analyze options text).findingsOf .disallowedTerminator = terminators (Text.lines text) := by
  rw [findingsOf_eq]
  exact ofKind_eq_self fun _ ↦ kind_of_mem_terminatorsFrom

end Analysis

open Analysis

/-- The places that the findings on terminators name are, in the order of the findings, the
positions of the semicolons of the program: each of them is there, and none is there twice. -/
theorem terminators_mark_semicolons (options : AnalysisOptions) (s : String) :
    ∃ positions : List Nat,
      ((Report.ofSource options s).findingsOf .disallowedTerminator).map
        (Finding.position? s.toList) = positions.map some ∧
      positions.Pairwise (· < ·) ∧ ∀ p, p ∈ positions ↔ s.toList[p]? = some ';' := by
  refine ⟨s.toList.idxsOf ';', ?_, List.pairwise_idxsOf, fun p ↦ ?_⟩
  · rw [Report.ofSource, findingsOf_disallowedTerminator, map_position?_terminators]
  · rw [List.mem_idxsOf_iff_exists_getElem_pos, List.getElem?_eq_some_iff]
    simp only [beq_iff_eq]

end FlexGate
