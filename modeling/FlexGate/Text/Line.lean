/-!
Lines of a text. A text is cut at every line feed, so it has one more line than it has line feeds
and joining the lines gives the text back. A carriage return at the end of a line belongs to the
line break when a line is read, and is kept when a line is mended.
-/

set_option autoImplicit false
set_option relaxedAutoImplicit false

namespace FlexGate.Text

/-- Whether some characters stand in a text, one after the other. -/
def hasInfix (part : List Char) : List Char → Bool
  | [] => part.isEmpty
  | c :: rest => part.isPrefixOf (c :: rest) || hasInfix part rest

def splitLines : List Char → List (List Char)
  | [] => [[]]
  | c :: rest =>
    if c = '\n' then [] :: splitLines rest
    else
      match splitLines rest with
      | [] => [[c]]
      | line :: lines => (c :: line) :: lines

def joinLines (lines : List (List Char)) : List Char := ['\n'].intercalate lines

/-- The line without the carriage return that ends it, if one does. -/
def withoutReturn (line : List Char) : List Char :=
  if line.getLast? = some '\r' then line.dropLast else line

/-- The lines of a text as they are read. -/
def lines (text : List Char) : List (List Char) := (splitLines text).map withoutReturn

theorem splitLines_ne_nil (text : List Char) : splitLines text ≠ [] := by
  cases text with
  | nil => simp [splitLines]
  | cons c rest =>
    simp only [splitLines]
    split
    · simp
    · split <;> simp

theorem splitLines_cons_of_ne {c : Char} (h : c ≠ '\n') {rest line : List Char}
    {others : List (List Char)} (hs : splitLines rest = line :: others) :
    splitLines (c :: rest) = (c :: line) :: others := by
  simp [splitLines, h, hs]

theorem joinLines_splitLines (text : List Char) : joinLines (splitLines text) = text := by
  induction text with
  | nil => rfl
  | cons c rest ih =>
    cases hs : splitLines rest with
    | nil => exact absurd hs (splitLines_ne_nil rest)
    | cons line others =>
      by_cases h : c = '\n'
      · subst h
        rw [hs] at ih
        simp [splitLines, hs, joinLines, List.intercalate] at ih ⊢
        exact ih
      · rw [splitLines_cons_of_ne h hs]
        rw [hs] at ih
        cases others <;>
          simp [joinLines, List.intercalate, List.intersperse] at ih ⊢ <;> exact ih

theorem not_mem_of_mem_splitLines {text line : List Char} (h : line ∈ splitLines text) :
    '\n' ∉ line := by
  induction text generalizing line with
  | nil => simp_all [splitLines]
  | cons c rest ih =>
    by_cases hc : c = '\n'
    · simp only [splitLines, hc, if_true, List.mem_cons] at h
      rcases h with rfl | h
      · simp
      · exact ih h
    · cases hs : splitLines rest with
      | nil => exact absurd hs (splitLines_ne_nil rest)
      | cons first others =>
        rw [splitLines_cons_of_ne hc hs] at h
        rcases List.mem_cons.mp h with rfl | h
        · have := ih (hs ▸ List.mem_cons_self)
          simp [this, Ne.symm hc]
        · exact ih (hs ▸ List.mem_cons_of_mem _ h)

theorem length_splitLines (text : List Char) :
    (splitLines text).length = text.count '\n' + 1 := by
  induction text with
  | nil => rfl
  | cons c rest ih =>
    by_cases hc : c = '\n'
    · simp [splitLines, hc, ih]
    · cases hs : splitLines rest with
      | nil => exact absurd hs (splitLines_ne_nil rest)
      | cons first others =>
        rw [splitLines_cons_of_ne hc hs]
        rw [hs] at ih
        simp_all

end FlexGate.Text
