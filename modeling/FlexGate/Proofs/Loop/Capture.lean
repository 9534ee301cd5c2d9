import FlexGate.Proofs.Analysis.Places
import FlexGate.Proofs.Loop.Written

/-!
# What a loop header captures

The search goes back over the three runs of blanks of a header, over the counter, which may be left
out, and over the bound, whose class takes blanks and line breaks as well. What it captures is told
all the same: the bound starts behind the blanks after `l7d`, takes all that stands before the next
brace, and the header ends with that brace (`Captures`).

Mending cuts the line where the blanks at the start of the bound end and where those at its end
start, in bytes. Both offsets lie between characters and within the bound, and what stands between
them is the trimmed bound (`Captures.selectsTrimmed`). So mending keeps the pieces on both sides
and exchanges the bound alone (`Captures.mends`).
-/

set_option autoImplicit false
set_option relaxedAutoImplicit false

namespace FlexGate

open Text.Utf8 (size encode isBoundary before? after? between?)

/-! ### Places between two texts -/

/-- The position between two texts. -/
def Cursor.cut (before after : List Char) : Cursor := ⟨before.reverse, after⟩

namespace Cursor

variable {c : Cursor} {before after : List Char}

@[simp] theorem offset_cut : (cut before after).offset = size before := by
  rw [offset, cut, List.reverse_reverse]

theorem text_cut : (cut before after).text = before ++ after := by
  rw [text, cut, List.reverse_reverse]

theorem position_cut : (cut before after).position = before.length :=
  List.length_reverse

theorem eq_cut_of_position_eq (htext : c.text = before ++ after)
    (hposition : c.position = before.length) : c = cut before after :=
  eq_of_text_eq (htext.trans text_cut.symm) (hposition.trans position_cut.symm)

theorem eq_cut_of_ahead_eq (htext : c.text = before ++ after) (hahead : c.ahead = after) :
    c = cut before after := by
  obtain ⟨behind, ahead⟩ := c
  obtain rfl : ahead = after := hahead
  rw [← List.append_cancel_right htext, cut, List.reverse_reverse]

end Cursor

namespace LoopHeader

open Cursor (cut)
open Pattern Shape

/-! ### The text of a header -/

theorem mem_ends_blanks1 {c d : Cursor} :
    d ∈ blanks1.ends c ↔
      ∃ gap rest, c.ahead = gap ++ rest ∧ Text.IsGap gap ∧ d = ⟨gap.reverse ++ c.behind, rest⟩ := by
  rw [blanks1, mem_ends_some1]
  constructor
  · rintro ⟨gap, rest, hahead, hne, hblank, rfl⟩
    exact ⟨gap, rest, hahead, ⟨hne, hblank⟩, rfl⟩
  · rintro ⟨gap, rest, hahead, hgap, rfl⟩
    exact ⟨gap, rest, hahead, hgap.ne_nil, hgap.blank, rfl⟩

/-- The text of a header before its bound: it starts with the first keyword and ends with the second
one and blanks behind it. -/
def IsOpening (text : List Char) : Prop :=
  ∃ head gap, text = "karr".toList ++ head ++ "l7d".toList ++ gap ∧ Text.IsGap gap

theorem exists_of_mem_ends_opening {c d : Cursor} (h : d ∈ opening.ends c) :
    ∃ text, IsOpening text ∧ d.behind = text.reverse ++ c.behind := by
  simp only [opening, Pattern.sequence, keyword, Pattern.text, mem_ends_seq, mem_ends_edge,
    mem_ends_exactly, mem_ends_blanks1] at h
  obtain ⟨_, ⟨_, ⟨-, rfl⟩, _, -, rfl⟩, _, ⟨first, _, -, -, rfl⟩, e, he, _, ⟨_, -, rfl⟩, gap, _, -,
    hgap, rfl⟩ := h
  obtain ⟨counted, -, hbehind, -⟩ := leads_of_mem_ends he
  refine ⟨_, ⟨first ++ counted, gap, rfl, hgap⟩, ?_⟩
  simp only [hbehind, List.reverse_append, List.append_assoc]

/-- A match of the loop pattern on a line, with the bound that its second group captures: the bound
stands behind the blanks after the second keyword and goes on to the first brace, with which the
match ends. -/
structure Captures (line : List Char) (m : Match) (bound : Span)
    (before header after : List Char) : Prop where
  group_eq : m.group? 2 = some bound
  line_eq : line = before ++ header ++ bound.text ++ '{' :: after
  isOpening : IsOpening header
  ne_nil : bound.text ≠ []
  brace_not_mem : '{' ∉ bound.text
  first_eq : m.span.first = cut before (header ++ bound.text ++ '{' :: after)
  bound_first_eq : bound.first = cut (before ++ header) (bound.text ++ '{' :: after)
  bound_last_eq : bound.last = cut (before ++ header ++ bound.text) ('{' :: after)
  last_eq : m.span.last = cut (before ++ header ++ bound.text ++ ['{']) after

/-- Of the ends of the opening, a match takes the first one from which a bound follows. -/
theorem exists_of_find?_inclusiveLoop {line : List Char} {m : Match}
    (hm : inclusiveLoop.find? line = some m) :
    ∃ bound header after, m.group? 2 = some bound ∧ IsOpening header ∧ bound.text ≠ [] ∧
      '{' ∉ bound.text ∧
      line = m.span.first.behind.reverse ++ header ++ bound.text ++ '{' :: after ∧
      bound.start = (m.span.first.behind.reverse ++ header).length ∧
      m.stop = bound.start + bound.text.length + 1 := by
  have hmatch : inclusiveLoop.matchAt m.span.first = some m :=
    exists_matchAt_of_mem_findAllFrom (List.mem_of_mem_head? ((head?_findAll _ line).trans hm))
  obtain ⟨h, hof, hat⟩ := exists_of_matchAt hmatch
  obtain ⟨bound, hgroup, rfl⟩ := Option.map_eq_some_iff.mp hof
  rw [at?_eq] at hat
  obtain ⟨d, hd, heq⟩ := Option.map_eq_some_iff.mp hat
  have hends := List.mem_of_find?_eq_some hd
  obtain ⟨text, after, hahead, hne, hbrace⟩ := boundFollows_iff.mp (List.find?_some hd)
  rw [boundedFrom_eq hahead hbrace] at heq
  obtain ⟨hstart, rfl, hstop⟩ := LoopHeader.mk.inj heq
  obtain ⟨header, hopening, hbehind⟩ := exists_of_mem_ends_opening hends
  have hlead : d.behind.reverse = m.span.first.behind.reverse ++ header := by
    rw [hbehind, List.reverse_append, List.reverse_reverse]
  refine ⟨bound, header, after, hgroup, hopening, hne, hbrace, ?_, ?_, hstart ▸ hstop.symm⟩
  · rw [← (exists_of_find?_eq_some hm).1, ← (leads_of_mem_ends hends).text_eq, Cursor.text, hahead,
      hlead]
    simp only [List.append_assoc]
  · rw [← hlead, List.length_reverse]
    exact hstart.symm

theorem exists_captures {line : List Char} {m : Match} (hm : inclusiveLoop.find? line = some m) :
    ∃ bound before header after, Captures line m bound before header after := by
  obtain ⟨bound, header, after, hgroup, hopening, hne, hbrace, hline, hstart, hstop⟩ :=
    exists_of_find?_inclusiveLoop hm
  obtain ⟨hfirst, hlast⟩ := exists_of_find?_eq_some hm
  obtain ⟨htext, hleads⟩ := leads_of_group?_eq_some hm hgroup
  have hboundFirst : bound.first =
      cut (m.span.first.behind.reverse ++ header) (bound.text ++ '{' :: after) := by
    refine Cursor.eq_cut_of_position_eq ?_ hstart
    rw [htext, hline, List.append_assoc]
  refine ⟨bound, m.span.first.behind.reverse, header, after, ⟨hgroup, hline, hopening, hne, hbrace,
    ?first, hboundFirst, ?boundLast, ?last⟩⟩
  case first =>
    refine Cursor.eq_cut_of_position_eq ?_ List.length_reverse.symm
    rw [hfirst, hline]
    simp only [List.append_assoc]
  case boundLast =>
    refine Cursor.eq_cut_of_ahead_eq (hleads.text_eq.trans (htext.trans hline)) ?_
    have hrest := ahead_eq_of_leads hleads
    rw [hboundFirst] at hrest
    exact (List.append_cancel_left hrest).symm
  case last =>
    refine Cursor.eq_cut_of_position_eq ?_ ?_
    · rw [(leads_of_mem_ends hlast).text_eq, hfirst, hline, List.append_assoc _ ['{'],
        List.singleton_append]
    · have hposition : m.span.last.position = m.stop := rfl
      rw [hposition, hstop, hstart]
      simp only [List.length_append, List.length_singleton]

/-! ### The trimmed bound -/

/-- Where the trimmed bound starts, in bytes. -/
def trimmedOffset (bound : Span) : Nat :=
  bound.first.offset + (size bound.text - size (Text.trimStart bound.text))

/-- Where the trimmed bound ends, in bytes. -/
def trimmedEnd (bound : Span) : Nat := trimmedOffset bound + size (Text.trim bound.text)

/-- Two offsets into a line that lie between characters within a span and select its text without
the blanks at both ends. -/
structure SelectsTrimmed (line : List Char) (span : Span) (first last : Nat) : Prop where
  first_le : span.first.offset ≤ first
  le : first ≤ last
  le_last : last ≤ span.last.offset
  isBoundary_first : isBoundary (encode line) first = true
  isBoundary_last : isBoundary (encode line) last = true
  selected : ∃ core, between? line first last = some core ∧ Text.Trims span.text core

section Captures

variable {line before header after : List Char} {m : Match} {bound : Span}

/-- The header that is captured divides its line at the offsets of the trimmed bound. -/
theorem Captures.exists_divides (h : Captures line m bound before header after) :
    ∃ blanks blanks', Divides (before ++ header) blanks blanks' after line
        ⟨bound.start, bound.text, m.stop⟩ ∧
      trimmedOffset bound = size (before ++ header ++ blanks) ∧
      trimmedEnd bound = size (before ++ header ++ blanks ++ Text.trim bound.text) := by
  obtain ⟨blanks', htrim, hblanks'⟩ := Text.eq_append_trim bound.text
  have hstart : bound.start = (before ++ header).length := by
    rw [Span.start, h.bound_first_eq, Cursor.position_cut]
  have hstop : m.stop = (before ++ header).length + bound.text.length + 1 := by
    rw [Match.stop, Span.stop, h.last_eq, Cursor.position_cut, List.length_append,
      List.length_append, List.length_singleton]
  have hblanks : size bound.text =
      size (bound.text.takeWhile Text.isBlank) + size (Text.trimStart bound.text) := by
    rw [← Text.Utf8.size_append, Text.trimStart_append_eq]
  have hoffset : trimmedOffset bound =
      size (before ++ header ++ bound.text.takeWhile Text.isBlank) := by
    rw [trimmedOffset, h.bound_first_eq, Cursor.offset_cut, hblanks, Nat.add_sub_cancel,
      ← Text.Utf8.size_append]
  refine ⟨_, blanks', ⟨?_, htrim, h.brace_not_mem, fun c hc ↦ List.mem_takeWhile_imp hc, hblanks',
    hstart, hstop, ?_⟩, hoffset, ?_⟩
  · exact h.line_eq.trans (congrArg (before ++ header ++ · ++ '{' :: after) htrim)
  · rw [trimmedStart, List.length_append, hstart]
  · rw [trimmedEnd, hoffset, ← Text.Utf8.size_append]

theorem Captures.selectsTrimmed (h : Captures line m bound before header after) :
    SelectsTrimmed line bound (trimmedOffset bound) (trimmedEnd bound) := by
  obtain ⟨blanks, blanks', hdivides, hoffset, hend⟩ := h.exists_divides
  have hline : line = before ++ header ++ blanks ++ Text.trim bound.text ++
      (blanks' ++ '{' :: after) := hdivides.line_eq_trimmed
  have hbound : bound.text = blanks ++ Text.trim bound.text ++ blanks' := hdivides.bound_eq
  have hwhole : before ++ header ++ bound.text =
      before ++ header ++ blanks ++ Text.trim bound.text ++ blanks' := by
    simpa only [List.append_assoc] using congrArg (before ++ header ++ ·) hbound
  have hselected : between? line (trimmedOffset bound) (trimmedEnd bound) =
      some (Text.trim bound.text) := by
    rw [trimmedEnd, hoffset, hline, Text.Utf8.between?_append]
  refine ⟨Nat.le_add_right _ _, Nat.le_add_right _ _, ?_, ?_, ?_, _, hselected,
    Text.trims_trim _⟩
  · rw [h.bound_last_eq, Cursor.offset_cut, hwhole, Text.Utf8.size_append, ← hend]
    exact Nat.le_add_right _ _
  · exact Text.Utf8.isBoundary_encode_iff.mpr ⟨_, _, hline.trans (List.append_assoc _ _ _), hoffset⟩
  · exact Text.Utf8.isBoundary_encode_iff.mpr ⟨_, _, hline, hend⟩

/-- Mending keeps what stands before the one offset and behind the other. -/
theorem Captures.mends (h : Captures line m bound before header after)
    (hm : inclusiveLoop.find? line = some m) : ∃ front back,
      before? line (trimmedOffset bound) = some front ∧ after? line (trimmedEnd bound) = some back ∧
      Repair.line line = if LoopBound.isCritical (Text.trim bound.text) then
        front ++ LoopBound.adjust (Text.trim bound.text) ++ back else line := by
  obtain ⟨blanks, blanks', hdivides, hoffset, hend⟩ := h.exists_divides
  have hfind : find? line = some ⟨bound.start, bound.text, m.stop⟩ := by
    rw [find?_eq_bind, hm, Option.bind_some, ofMatch?, h.group_eq, Option.map_some]
  have hline : line = before ++ header ++ blanks ++ Text.trim bound.text ++
      (blanks' ++ '{' :: after) := hdivides.line_eq_trimmed
  refine ⟨before ++ header ++ blanks, blanks' ++ '{' :: after, ?_, ?_, ?_⟩
  · rw [hoffset, hline, List.append_assoc _ (Text.trim _), Text.Utf8.before?_append]
  · rw [hend, hline, Text.Utf8.after?_append]
  · split
    case isTrue hc =>
      rw [line_of_critical hfind hdivides hc]
      simp only [List.append_assoc]
      rfl
    case isFalse hc => exact Repair.line_of_not_critical hfind (Bool.eq_false_iff.mpr hc)

end Captures

/-- Where the loop pattern matches a line, its second group is not empty, holds no opening brace,
stands behind blanks after `l7d` and goes on to the first such brace, with which the match ends. The
two offsets at which mending cuts the line lie between characters and within the group, and select
what the group captured without the blanks at both ends. -/
theorem loop_captures_exact {line : List Char} {m : Match}
    (hm : inclusiveLoop.find? line = some m) :
    ∃ bound before header after, Captures line m bound before header after ∧
      SelectsTrimmed line bound (trimmedOffset bound) (trimmedEnd bound) ∧
      ∃ front back, before? line (trimmedOffset bound) = some front ∧
        after? line (trimmedEnd bound) = some back ∧
        Repair.line line = if LoopBound.isCritical (Text.trim bound.text) then
          front ++ LoopBound.adjust (Text.trim bound.text) ++ back else line := by
  obtain ⟨bound, before, header, after, h⟩ := exists_captures hm
  exact ⟨bound, before, header, after, h, h.selectsTrimmed, h.mends hm⟩

/-- Letters and blanks of more than one byte stand before, within and behind the bound. -/
def wideLine : List Char := "é karr i=0 l7d \tü+length(a)\u3000".toList ++ ['{']

theorem loop_captures_exact_wide :
    ∃ m bound before header after,
      inclusiveLoop.find? wideLine = some m ∧ Captures wideLine m bound before header after ∧
      SelectsTrimmed wideLine bound (trimmedOffset bound) (trimmedEnd bound) := by
  obtain ⟨m, hm⟩ := Option.isSome_iff_exists.mp
    (by decide +kernel : (inclusiveLoop.find? wideLine).isSome = true)
  obtain ⟨bound, before, header, after, hcaptures, hselects, -⟩ := loop_captures_exact hm
  exact ⟨m, bound, before, header, after, hm, hcaptures, hselects⟩

/-- A bound is needed: one of the blanks before a brace is taken for it. -/
example : (find? ("karr i=0 l7d  ".toList ++ ['{'])).map bound = some [' '] := by decide +kernel

end LoopHeader

end FlexGate
