import FlexGate.Proofs.Text.Lines

/-!
# Places in a text by line and column

A place in a text is told by the number of its line and a column on it, both counted from one. The
line starts behind the line feeds of the lines before it (`lineStart`), and a place has a position
when the line has a character at the column (`position?`).

A text is a line, or a line with a line feed and more text behind it. What holds of the first, and
of the second if it holds of the text behind the line feed, holds of every text (`induction_lines`).
-/

set_option autoImplicit false
set_option relaxedAutoImplicit false

namespace FlexGate.Text

/-! ### A text as its first line and the rest -/

/-- Induction over the lines of a text. -/
@[elab_as_elim] theorem induction_lines {motive : List Char → Prop}
    (last : ∀ line, '\n' ∉ line → motive line)
    (cons : ∀ line rest, '\n' ∉ line → motive rest → motive (line ++ '\n' :: rest))
    (text : List Char) : motive text := by
  induction hlength : text.length using Nat.strong_induction_on generalizing text with
  | h n ih =>
    by_cases hfeed : '\n' ∈ text
    · obtain ⟨line, rest, rfl, hline⟩ := List.eq_append_cons_of_mem hfeed
      refine cons line rest hline (ih rest.length ?_ rest rfl)
      rw [← hlength, List.length_append, List.length_cons]
      omega
    · exact last text hfeed

theorem lines_append_cons (first second : List Char) :
    lines (first ++ '\n' :: second) = lines first ++ lines second := by
  rw [lines, splitLines_append_cons, List.map_append]
  rfl

theorem lines_of_not_mem {line : List Char} (h : '\n' ∉ line) :
    lines line = [withoutReturn line] := by
  rw [lines, splitLines_of_not_mem h, List.map_singleton]

/-! ### Positions -/

/-- The position at which a line starts when the lines are joined, the lines counted from zero. -/
def lineStart : List (List Char) → Nat → Nat
  | line :: lines, i + 1 => line.length + 1 + lineStart lines i
  | _, _ => 0

/-- The position of the character at a column of a line of a text, both counted from one. -/
def position? (text : List Char) : Nat → Nat → Option Nat
  | i + 1, k + 1 => (splitLines text)[i]?.bind fun line ↦
      if k < line.length then some (lineStart (splitLines text) i + k) else none
  | _, _ => none

@[simp] theorem lineStart_zero (lines : List (List Char)) : lineStart lines 0 = 0 := by
  cases lines <;> rfl

theorem lineStart_cons_succ (line : List Char) (lines : List (List Char)) (i : Nat) :
    lineStart (line :: lines) (i + 1) = line.length + 1 + lineStart lines i := rfl

theorem position?_succ {text line : List Char} {i k : Nat}
    (hline : (splitLines text)[i]? = some line) (hk : k < line.length) :
    position? text (i + 1) (k + 1) = some (lineStart (splitLines text) i + k) := by
  rw [position?, hline, Option.bind_some, if_pos hk]

/-- The places on the first line. -/
theorem position?_first {line : List Char} (h : '\n' ∉ line) {k : Nat} (hk : k < line.length)
    (rest : List Char) : position? (line ++ '\n' :: rest) 1 (k + 1) = some k := by
  have hfirst : (splitLines (line ++ '\n' :: rest))[0]? = some line := by
    rw [splitLines_append h, List.getElem?_cons_zero]
  rw [position?_succ hfirst hk, lineStart_zero, Nat.zero_add]

/-- The places behind the first line, told from those in the text behind its line feed. -/
theorem position?_later {line : List Char} (h : '\n' ∉ line) (rest : List Char) (i c : Nat) :
    position? (line ++ '\n' :: rest) (i + 2) c =
      (position? rest (i + 1) c).map (line.length + 1 + ·) := by
  cases c with
  | zero => rfl
  | succ k =>
    rw [position?, position?, splitLines_append h, List.getElem?_cons_succ, lineStart_cons_succ]
    cases (splitLines rest)[i]? with
    | none => rfl
    | some later =>
      rw [Option.bind_some, Option.bind_some]
      split
      · rw [Option.map_some, Nat.add_assoc (line.length + 1)]
      · rfl

end FlexGate.Text
