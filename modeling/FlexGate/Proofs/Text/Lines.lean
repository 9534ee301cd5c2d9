import FlexGate.Text.Blank
import FlexGate.Text.Line
import FlexGate.Text.Word
import Mathlib.Data.List.DropRight

/-!
# Cutting a text into lines and trimming it

Lines without line feeds that are joined are cut apart again at the same places
(`splitLines_joinLines`), so a change to each line of a text that brings in no line feed is a
change line by line, and the lines of two texts on both sides of a line feed are those of each
(`splitLines_append_cons`). A text is its trimmed form between blanks (`eq_append_trim`), and a form
that neither starts nor ends with a blank is what trimming gives when blanks are put around it
(`trim_append`).
-/

set_option autoImplicit false
set_option relaxedAutoImplicit false

namespace FlexGate.Text

/-! ### Lines -/

theorem splitLines_of_not_mem {line : List Char} (h : '\n' ∉ line) : splitLines line = [line] := by
  induction line with
  | nil => rfl
  | cons c line ih =>
    have hc : c ≠ '\n' := fun hc ↦ h (hc ▸ List.mem_cons_self)
    exact splitLines_cons_of_ne hc (ih fun hmem ↦ h (List.mem_cons_of_mem c hmem))

theorem splitLines_append {line : List Char} (h : '\n' ∉ line) (rest : List Char) :
    splitLines (line ++ '\n' :: rest) = line :: splitLines rest := by
  induction line with
  | nil => simp [splitLines]
  | cons c line ih =>
    have hc : c ≠ '\n' := fun hc ↦ h (hc ▸ List.mem_cons_self)
    exact splitLines_cons_of_ne hc (ih fun hmem ↦ h (List.mem_cons_of_mem c hmem))

theorem withoutReturn_concat (line : List Char) : withoutReturn (line ++ ['\r']) = line := by
  rw [withoutReturn, if_pos (by simp), List.dropLast_concat]

theorem withoutReturn_of_getLast?_ne {line : List Char} (h : line.getLast? ≠ some '\r') :
    withoutReturn line = line :=
  if_neg h

/-- A line has a carriage return at its end, or it is read as it is. -/
theorem exists_concat_or_withoutReturn_eq (line : List Char) :
    (∃ front, line = front ++ ['\r']) ∨ withoutReturn line = line := by
  by_cases hlast : line.getLast? = some '\r'
  · exact .inl (List.getLast?_eq_some_iff.mp hlast)
  · exact .inr (withoutReturn_of_getLast?_ne hlast)

theorem mem_of_mem_withoutReturn {line : List Char} {c : Char} (h : c ∈ withoutReturn line) :
    c ∈ line := by
  rcases exists_concat_or_withoutReturn_eq line with ⟨front, rfl⟩ | heq
  · rw [withoutReturn_concat] at h
    exact List.mem_append_left _ h
  · rwa [heq] at h

/-- A line that is read holds no line feed. -/
theorem not_mem_of_mem_lines {text line : List Char} (h : line ∈ lines text) : '\n' ∉ line := by
  obtain ⟨whole, hwhole, rfl⟩ := List.mem_map.mp h
  exact fun hmem ↦ not_mem_of_mem_splitLines hwhole (mem_of_mem_withoutReturn hmem)

theorem joinLines_cons_cons (line next : List Char) (rest : List (List Char)) :
    joinLines (line :: next :: rest) = line ++ '\n' :: joinLines (next :: rest) := by
  simp [joinLines, List.intercalate_cons_cons]

theorem splitLines_joinLines {lines : List (List Char)} (hne : lines ≠ [])
    (h : ∀ line ∈ lines, '\n' ∉ line) : splitLines (joinLines lines) = lines := by
  induction lines with
  | nil => exact absurd rfl hne
  | cons line lines ih =>
    have hline : '\n' ∉ line := h line List.mem_cons_self
    cases lines with
    | nil =>
      rw [joinLines, List.intercalate_singleton]
      exact splitLines_of_not_mem hline
    | cons next rest =>
      rw [joinLines_cons_cons, splitLines_append hline,
        ih (List.cons_ne_nil next rest) fun l hl ↦ h l (List.mem_cons_of_mem line hl)]

/-- The lines of two texts with a line feed in between are those of the first and then those of the
second. -/
theorem splitLines_append_cons (first second : List Char) :
    splitLines (first ++ '\n' :: second) = splitLines first ++ splitLines second := by
  induction first with
  | nil => simp [splitLines]
  | cons c first ih =>
    by_cases hc : c = '\n'
    · simp [splitLines, hc, ih]
    · obtain ⟨line, others, hs⟩ := List.exists_cons_of_ne_nil (splitLines_ne_nil first)
      have hboth : splitLines (first ++ '\n' :: second) =
          line :: (others ++ splitLines second) := by
        rw [ih, hs, List.cons_append]
      rw [List.cons_append, splitLines_cons_of_ne hc hboth, splitLines_cons_of_ne hc hs,
        List.cons_append]

/-- Lines that are each ended by a line feed are cut apart again, with nothing behind the last. -/
theorem splitLines_flatMap {lines : List (List Char)} (h : ∀ line ∈ lines, '\n' ∉ line) :
    splitLines (lines.flatMap (· ++ ['\n'])) = lines ++ [[]] := by
  induction lines with
  | nil => rfl
  | cons line lines ih =>
    obtain ⟨hline, hlines⟩ := List.forall_mem_cons.mp h
    rw [List.flatMap_cons, List.append_assoc, List.singleton_append, splitLines_append hline,
      ih hlines, List.cons_append]

/-- Text without a line feed stands at the start of the first line of what follows it. -/
theorem exists_splitLines_append {line : List Char} (h : '\n' ∉ line) (text : List Char) :
    ∃ rest others, splitLines text = rest :: others ∧
      splitLines (line ++ text) = (line ++ rest) :: others := by
  obtain ⟨rest, others, hs⟩ := List.exists_cons_of_ne_nil (splitLines_ne_nil text)
  refine ⟨rest, others, hs, ?_⟩
  induction line with
  | nil => exact hs
  | cons c line ih =>
    have hc : c ≠ '\n' := fun hc ↦ h (hc ▸ List.mem_cons_self)
    have hline : '\n' ∉ line := fun hmem ↦ h (List.mem_cons_of_mem c hmem)
    rw [List.cons_append, splitLines_cons_of_ne hc (ih hline), List.cons_append]

theorem infix_joinLines {line : List Char} {lines : List (List Char)} (h : line ∈ lines) :
    line <:+: joinLines lines := by
  induction lines with
  | nil => exact absurd h List.not_mem_nil
  | cons first lines ih =>
    cases lines with
    | nil =>
      have hjoin : joinLines [first] = line := by
        rw [joinLines, List.intercalate_singleton, List.mem_singleton.mp h]
      exact ⟨[], [], by rw [List.nil_append, List.append_nil, hjoin]⟩
    | cons next rest =>
      rw [joinLines_cons_cons]
      rcases List.mem_cons.mp h with rfl | h
      · exact (List.prefix_append line _).isInfix
      · have hrest : joinLines (next :: rest) <:+ first ++ '\n' :: joinLines (next :: rest) :=
          (List.suffix_cons '\n' _).trans (List.suffix_append first _)
        exact (ih h).trans hrest.isInfix

theorem infix_of_mem_splitLines {text line : List Char} (h : line ∈ splitLines text) :
    line <:+: text := by
  have hjoined := infix_joinLines h
  rwa [joinLines_splitLines] at hjoined

/-! ### Blanks -/

theorem not_inRanges_wordRanges_of_blank :
    ∀ r ∈ blankRanges, ∀ n ∈ List.range' r.1 (r.2 + 1 - r.1), inRanges wordRanges n = false := by
  decide +kernel

/-- A blank is no word character. -/
theorem not_isWord_of_isBlank {c : Char} (h : isBlank c = true) : isWord c = false := by
  by_cases hascii : c.toNat < 128
  · have hall : ∀ n < 128, isBlank (Char.ofNat n) = true → isWord (Char.ofNat n) = false := by
      decide +kernel
    have hc := hall c.toNat hascii
    rw [Char.ofNat_toNat] at hc
    exact hc h
  · unfold isBlank at h
    unfold isWord
    rw [if_neg hascii] at h ⊢
    obtain ⟨r, hr, hlow, hhigh⟩ := exists_range_of_inRanges h
    refine not_inRanges_wordRanges_of_blank r hr c.toNat ?_
    rw [List.mem_range'_1]
    omega

theorem trim_eq (text : List Char) : trim text = (trimStart text).rdropWhile isBlank := rfl

/-- A text is its trimmed form between blanks. -/
theorem eq_append_trim (text : List Char) :
    ∃ after, text = text.takeWhile isBlank ++ trim text ++ after ∧
      ∀ c ∈ after, isBlank c = true := by
  refine ⟨(trimStart text).rtakeWhile isBlank, ?_, fun c hc ↦ List.mem_rtakeWhile_imp hc⟩
  rw [List.append_assoc, trim_eq, List.rdropWhile_append_rtakeWhile, trimStart_append_eq]

theorem not_isBlank_of_head?_trim {text : List Char} {c : Char} (h : (trim text).head? = some c) :
    isBlank c = false := by
  obtain ⟨blanks, hsplit⟩ : ∃ blanks, trim text ++ blanks = trimStart text :=
    ⟨(trimStart text).rtakeWhile isBlank, by rw [trim_eq, List.rdropWhile_append_rtakeWhile]⟩
  have hstart : (text.dropWhile isBlank).head? = some c := by
    rw [← trimStart, ← hsplit]
    obtain ⟨core, hcore⟩ := List.head?_eq_some_iff.mp h
    rw [hcore]
    rfl
  have hnot := List.head?_dropWhile_not isBlank text
  rw [hstart] at hnot
  simpa using hnot

theorem not_isBlank_of_getLast?_trim {text : List Char} {c : Char}
    (h : (trim text).getLast? = some c) : isBlank c = false := by
  have hne : trim text ≠ [] := by
    intro hnil
    simp [hnil] at h
  have hlast : (trim text).getLast hne = c :=
    Option.some.inj ((List.getLast?_eq_some_getLast hne).symm.trans h)
  rw [← hlast]
  exact Bool.eq_false_iff.mpr ((trimStart text).rdropWhile_last_not isBlank hne)

/-- A text without the blanks that it starts and ends with. -/
structure Trims (text core : List Char) : Prop where
  between : ∃ before after, text = before ++ core ++ after ∧ (∀ c ∈ before, isBlank c = true) ∧
    ∀ c ∈ after, isBlank c = true
  head : ∀ c ∈ core.head?, isBlank c = false
  last : ∀ c ∈ core.getLast?, isBlank c = false

theorem trims_trim (text : List Char) : Trims text (trim text) := by
  obtain ⟨after, htext, hafter⟩ := eq_append_trim text
  exact ⟨⟨_, after, htext, fun c hc ↦ List.mem_takeWhile_imp hc, hafter⟩,
    fun c hc ↦ not_isBlank_of_head?_trim hc, fun c hc ↦ not_isBlank_of_getLast?_trim hc⟩

theorem dropWhile_isBlank_append {before core : List Char}
    (hbefore : ∀ c ∈ before, isBlank c = true)
    (hhead : ∀ c, core.head? = some c → isBlank c = false) :
    (before ++ core).dropWhile isBlank = core := by
  rw [List.dropWhile_append_of_pos hbefore]
  cases core with
  | nil => rfl
  | cons c core => exact List.dropWhile_cons_of_neg (by simp [hhead c rfl])

/-- Trimming takes away the blanks around a text that neither starts nor ends with one. -/
theorem trim_append {before core after : List Char} (hbefore : ∀ c ∈ before, isBlank c = true)
    (hafter : ∀ c ∈ after, isBlank c = true) (hne : core ≠ [])
    (hhead : ∀ c, core.head? = some c → isBlank c = false)
    (hlast : ∀ c, core.getLast? = some c → isBlank c = false) :
    trim (before ++ core ++ after) = core := by
  have hstart : trimStart (before ++ core ++ after) = core ++ after := by
    rw [List.append_assoc]
    refine dropWhile_isBlank_append hbefore fun c hc ↦ hhead c ?_
    rwa [List.head?_append_of_ne_nil core hne] at hc
  have hend : (after.reverse ++ core.reverse).dropWhile isBlank = core.reverse := by
    refine dropWhile_isBlank_append (fun c hc ↦ hafter c (List.mem_reverse.mp hc)) fun c hc ↦ ?_
    exact hlast c (by rwa [List.head?_reverse] at hc)
  rw [trim, hstart, trimEnd, List.reverse_append, hend, List.reverse_reverse]

/-! ### Texts in a text -/

theorem hasInfix_iff {part text : List Char} : hasInfix part text = true ↔ part <:+: text := by
  induction text with
  | nil => simp [hasInfix]
  | cons c rest ih =>
    rw [hasInfix, Bool.or_eq_true, List.isPrefixOf_iff_prefix, ih, List.infix_cons_iff]

/-- A text without a given character stands on one side of that character. -/
theorem hasInfix_append_cons {part : List Char} {c : Char} (hc : c ∉ part)
    (first second : List Char) :
    hasInfix part (first ++ c :: second) = (hasInfix part first || hasInfix part second) := by
  have hprefix (text : List Char) :
      part.isPrefixOf (text ++ c :: second) = part.isPrefixOf text := by
    induction text generalizing part with
    | nil =>
      cases part with
      | nil => rfl
      | cons x part =>
        have hne : (x == c) = false :=
          beq_eq_false_iff_ne.mpr (ne_of_mem_of_not_mem List.mem_cons_self hc)
        simp [List.isPrefixOf, hne]
    | cons d text ih =>
      cases part with
      | nil => rfl
      | cons x part =>
        have hpart : c ∉ part := fun hmem ↦ hc (List.mem_cons_of_mem x hmem)
        rw [List.cons_append, List.isPrefixOf, List.isPrefixOf, ih hpart]
  induction first with
  | nil =>
    have hnil : part.isPrefixOf (c :: second) = part.isEmpty := by
      rw [← List.nil_append (c :: second), hprefix []]
      cases part <;> rfl
    rw [List.nil_append, hasInfix.eq_2, hnil, hasInfix]
  | cons d first ih =>
    have hfirst : part.isPrefixOf (d :: (first ++ c :: second)) = part.isPrefixOf (d :: first) :=
      hprefix (d :: first)
    rw [List.cons_append, hasInfix, hfirst, ih, hasInfix, Bool.or_assoc]

/-- A text does not start in a run of characters other than its first. -/
theorem hasInfix_append_of_not_mem {part run : List Char} {c : Char} (h : c ∉ run)
    (text : List Char) : hasInfix (c :: part) (run ++ text) = hasInfix (c :: part) text := by
  induction run with
  | nil => rfl
  | cons d run ih =>
    have hne : (c == d) = false := by
      rw [beq_eq_false_iff_ne]
      exact fun hcd ↦ h (hcd ▸ List.mem_cons_self)
    have hrun : c ∉ run := fun hmem ↦ h (List.mem_cons_of_mem d hmem)
    rw [List.cons_append, hasInfix, List.isPrefixOf, hne, Bool.false_and, Bool.false_or, ih hrun]

end FlexGate.Text
