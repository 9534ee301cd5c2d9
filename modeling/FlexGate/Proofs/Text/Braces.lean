import Mathlib.Data.List.Induction

/-!
# Braces that belong together

A closing brace closes the nearest brace that is open, or nothing if none is open. On the way
through a program the lines of the open braces are kept on a stack (`openBehind`), and those that
are on it at the end have braces that are never closed.

What some text does to the stack is told by two numbers: how many of its closing braces find nothing
to close in it, and how many of its opening braces it leaves open (`unmatched`). The former take as
many lines from the stack, and the latter put their own lines there (`foldl_matchBrace`,
`openBehind_eq`). Where a text follows another, its closing braces first close what the other left
open (`unmatched_append`).
-/

set_option autoImplicit false
set_option relaxedAutoImplicit false

namespace FlexGate.Text

/-! ### Braces without a partner -/

/-- How many braces of a text have no partner in it: closing ones, and opening ones behind them. -/
@[ext] structure Unmatched where
  closings : Nat
  openings : Nat
  deriving DecidableEq

namespace Unmatched

/-- With one more character. -/
def step (u : Unmatched) (c : Char) : Unmatched :=
  if c = '{' then ⟨u.closings, u.openings + 1⟩
  else if c = '}' then
    if u.openings = 0 then ⟨u.closings + 1, 0⟩ else ⟨u.closings, u.openings - 1⟩
  else u

/-- With another text behind. -/
def follow (u v : Unmatched) : Unmatched :=
  ⟨u.closings + (v.closings - u.openings), v.openings + (u.openings - v.closings)⟩

theorem follow_step (u v : Unmatched) (c : Char) : u.follow (v.step c) = (u.follow v).step c := by
  unfold step follow
  split_ifs <;> ext <;> grind

end Unmatched

def unmatched (text : List Char) : Unmatched := text.foldl Unmatched.step ⟨0, 0⟩

@[simp] theorem unmatched_nil : unmatched [] = ⟨0, 0⟩ := rfl

theorem unmatched_concat (text : List Char) (c : Char) :
    unmatched (text ++ [c]) = (unmatched text).step c := by
  rw [unmatched, List.foldl_append, List.foldl_cons, List.foldl_nil, unmatched]

/-- The closing braces of a text close what the text before it leaves open. -/
theorem unmatched_append (first second : List Char) :
    unmatched (first ++ second) = (unmatched first).follow (unmatched second) := by
  induction second using List.reverseRecOn with
  | nil => simp [Unmatched.follow]
  | append_singleton second c ih =>
    rw [← List.append_assoc, unmatched_concat, ih, unmatched_concat, Unmatched.follow_step]

/-! ### The stack of open braces -/

/-- One character of a line, with the lines of the open braces, the nearest first. -/
def matchBrace (n : Nat) (opened : List Nat) (c : Char) : List Nat :=
  if c = '{' then n :: opened else if c = '}' then opened.tail else opened

/-- The lines of the braces that are open behind some lines, the nearest first. The lines are
numbered from `n` on, and some braces are open before them. -/
def openBehind (opened : List Nat) (n : Nat) : List (List Char) → List Nat
  | [] => opened
  | line :: lines => openBehind (line.foldl (matchBrace n) opened) (n + 1) lines

/-- What a line does to the stack. -/
theorem foldl_matchBrace (n : Nat) (opened : List Nat) (line : List Char) :
    line.foldl (matchBrace n) opened =
      List.replicate (unmatched line).openings n ++ opened.drop (unmatched line).closings := by
  induction line using List.reverseRecOn with
  | nil => simp
  | append_singleton line c ih =>
    rw [List.foldl_append, ih, List.foldl_cons, List.foldl_nil, unmatched_concat, matchBrace,
      Unmatched.step]
    by_cases hopen : c = '{'
    · rw [if_pos hopen, if_pos hopen, List.replicate_succ, List.cons_append]
    by_cases hclose : c = '}'
    · rw [if_neg hopen, if_pos hclose, if_neg hopen, if_pos hclose]
      cases (unmatched line).openings with
      | zero => simp
      | succ openings => simp [List.replicate_succ]
    · rw [if_neg hopen, if_neg hclose, if_neg hopen, if_neg hclose]

/-- What some lines do to the stack. -/
theorem openBehind_eq (opened : List Nat) (n : Nat) (lines : List (List Char)) :
    openBehind opened n lines =
      openBehind [] n lines ++ opened.drop (unmatched lines.flatten).closings := by
  induction lines generalizing opened n with
  | nil => simp [openBehind]
  | cons line lines ih =>
    rw [openBehind, ih, openBehind, ih (line.foldl (matchBrace n) []), foldl_matchBrace,
      foldl_matchBrace, List.drop_nil, List.append_nil, List.append_assoc, List.drop_append,
      List.length_replicate, List.drop_drop, List.flatten_cons, unmatched_append]
    rfl

theorem openBehind_append (opened : List Nat) (n : Nat) (first second : List (List Char)) :
    openBehind opened n (first ++ second) =
      openBehind (openBehind opened n first) (n + first.length) second := by
  induction first generalizing opened n with
  | nil => rfl
  | cons line first ih =>
    rw [List.cons_append, openBehind, ih, openBehind, List.length_cons, Nat.add_assoc n,
      Nat.add_comm 1]

theorem length_openBehind (n : Nat) (lines : List (List Char)) :
    (openBehind [] n lines).length = (unmatched lines.flatten).openings := by
  induction lines generalizing n with
  | nil => rfl
  | cons line lines ih =>
    rw [openBehind, openBehind_eq, List.length_append, ih, foldl_matchBrace, List.drop_nil,
      List.append_nil, List.length_drop, List.length_replicate, List.flatten_cons, unmatched_append]
    rfl

/-- The lines on the stack are lines that were read. -/
theorem le_and_lt_of_mem_openBehind {n m : Nat} {lines : List (List Char)}
    (h : m ∈ openBehind [] n lines) : n ≤ m ∧ m < n + lines.length := by
  induction lines generalizing n with
  | nil => exact absurd h List.not_mem_nil
  | cons line lines ih =>
    rw [openBehind, openBehind_eq, foldl_matchBrace, List.drop_nil, List.append_nil,
      List.drop_replicate, List.mem_append] at h
    rw [List.length_cons]
    rcases h with h | h
    · have hlater := ih h
      omega
    · rw [List.eq_of_mem_replicate h]
      omega

end FlexGate.Text
