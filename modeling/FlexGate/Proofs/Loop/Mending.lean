import FlexGate.Proofs.Loop.Header
import FlexGate.Proofs.Text.Lines
import FlexGate.Repair

/-!
# Mending a bound, a line and a program

Mending puts the correction behind the closing parenthesis of each call in a bound, and nowhere
else (`adjust_of_callsLength`). The bound keeps what stands before its first closing parenthesis,
so the loop pattern finds the first header of the line at the same place and reads the adjusted
bound there (`find?_line_of_critical`), and that bound is adjusted and not critical any more
(`isAdjusted_adjust`). The headers behind the first one are left as they are
(`trimmedBounds_line`).

The correction holds no line feed, so a program is mended line by line (`splitLines_source`). The
lines that change are those with a critical first header (`line_ne_self_iff`), and mending again
changes nothing (`source_source`).
-/

set_option autoImplicit false
set_option relaxedAutoImplicit false

namespace FlexGate

namespace LoopBound

open Pattern Shape

/-! ### Marks in a text -/

variable {mark : List Char} {positions : List Nat}

/-- Before the first of the positions nothing is put in. -/
theorem insertAt_append {n : Nat} {first : List Char}
    (h : ∀ k ∈ positions, n + first.length ≤ k) (second : List Char) :
    insertAt mark positions n (first ++ second) =
      first ++ insertAt mark positions (n + first.length) second := by
  induction first generalizing n with
  | nil => rfl
  | cons c first ih =>
    have hlength : n + (c :: first).length = n + 1 + first.length := by
      rw [List.length_cons]
      omega
    rw [hlength] at h ⊢
    have hn : n ∉ positions := by
      intro hmem
      have hle := h n hmem
      omega
    rw [List.cons_append, insertAt, if_neg hn, ih h, List.nil_append, List.cons_append]

theorem exists_insertAt_of_mem {n : Nat} (h : n ∈ positions) (mark text : List Char) :
    ∃ rest, insertAt mark positions n text = mark ++ rest := by
  cases text with
  | nil => exact ⟨[], by simp [insertAt, h]⟩
  | cons c text => exact ⟨c :: insertAt mark positions (n + 1) text, by simp [insertAt, h]⟩

theorem mem_insertAt {n : Nat} {text : List Char} {c : Char}
    (h : c ∈ insertAt mark positions n text) : c ∈ text ∨ c ∈ mark := by
  induction text generalizing n with
  | nil =>
    rw [insertAt] at h
    split at h
    · exact .inr h
    · exact .inl h
  | cons d text ih =>
    rw [insertAt] at h
    rcases List.mem_append.mp h with h | h
    · split at h
      · exact .inr h
      · simp at h
    · rcases List.mem_cons.mp h with rfl | h
      · exact .inl List.mem_cons_self
      · exact (ih h).imp (List.mem_cons_of_mem d) id

theorem getLast?_insertAt {n : Nat} {text : List Char} {c : Char} (hne : text ≠ [])
    (h : (insertAt mark positions n text).getLast? = some c) :
    text.getLast? = some c ∨ mark.getLast? = some c := by
  induction text generalizing n with
  | nil => exact absurd rfl hne
  | cons d text ih =>
    have hinner : (d :: insertAt mark positions (n + 1) text).getLast? = some c := by
      rwa [insertAt, List.getLast?_append_of_ne_nil _ (List.cons_ne_nil _ _)] at h
    cases text with
    | nil =>
      rw [insertAt] at hinner
      split at hinner
      · cases mark with
        | nil => exact .inl hinner
        | cons x mark => exact .inr (by rwa [List.getLast?_cons_cons] at hinner)
      · exact .inl hinner
    | cons e text =>
      have htail : insertAt mark positions (n + 1) (e :: text) ≠ [] := by simp [insertAt]
      rw [List.getLast?_cons_of_ne_nil htail] at hinner
      rw [List.getLast?_cons_cons]
      exact ih (List.cons_ne_nil e text) hinner

/-! ### A bound -/

theorem lengthCall_consumes : lengthCall.consumes = true := by decide

theorem lengthCall_closesWith : lengthCall.closesWith ')' = true := by decide

/-- The first correction stands behind the closing parenthesis of the first call, and nothing before
it changes. -/
theorem adjust_of_find? {bound : List Char} {m : Match} (hm : lengthCall.find? bound = some m) :
    ∃ before after', m.span.last.behind = ')' :: before.reverse ∧
      bound = before ++ ')' :: m.span.last.ahead ∧
      adjust bound = before ++ ')' :: (correction ++ after') := by
  obtain ⟨htext, hlast⟩ := exists_of_find?_eq_some hm
  obtain ⟨behind, hbehind⟩ := exists_behind_of_closesWith lengthCall_closesWith hlast
  have hstop : m.stop = (behind.reverse ++ [')']).length := by
    simp [Match.stop, Span.stop, Cursor.position, hbehind]
  have hbound : bound = behind.reverse ++ [')'] ++ m.span.last.ahead := by
    rw [← htext, ← (leads_of_mem_ends hlast).text_eq, Cursor.text, hbehind, List.reverse_cons]
  have hends : callEnds bound =
      m.stop :: (lengthCall.findAllFrom 0 m.span.last.behind m.span.last.ahead).map Match.stop := by
    rw [callEnds, findAll_eq_cons lengthCall_consumes hm, List.map_cons]
  have hle : ∀ k ∈ callEnds bound, 0 + (behind.reverse ++ [')']).length ≤ k := by
    intro k hk
    rw [Nat.zero_add, ← hstop]
    rw [hends] at hk
    rcases List.mem_cons.mp hk with rfl | hk
    · exact Nat.le_refl _
    · obtain ⟨later, hlater, rfl⟩ := List.mem_map.mp hk
      exact Nat.le_of_lt (stop_lt_of_mem_findAllFrom lengthCall_consumes hlater)
  have hmem : 0 + (behind.reverse ++ [')']).length ∈ callEnds bound := by
    rw [Nat.zero_add, ← hstop, hends]
    exact List.mem_cons_self
  obtain ⟨after', hafter⟩ := exists_insertAt_of_mem hmem correction m.span.last.ahead
  refine ⟨behind.reverse, after', ?_, ?_, ?_⟩
  · rw [List.reverse_reverse, hbehind]
  · rw [hbound, List.append_assoc, List.singleton_append]
  · rw [adjust]
    nth_rewrite 2 [hbound]
    rw [insertAt_append hle, hafter, List.append_assoc, List.singleton_append]

/-- In a bound with a call, the first correction stands behind a closing parenthesis, and nothing
before it changes. -/
theorem adjust_of_callsLength {bound : List Char} (h : callsLength bound = true) :
    ∃ before after after' : List Char, bound = before ++ ')' :: after ∧
      adjust bound = before ++ ')' :: (correction ++ after') := by
  obtain ⟨m, hm⟩ := Option.isSome_iff_exists.mp h
  obtain ⟨before, after', -, hbound, hadjust⟩ := adjust_of_find? hm
  exact ⟨before, m.span.last.ahead, after', hbound, hadjust⟩

theorem mem_adjust {bound : List Char} {c : Char} (h : c ∈ adjust bound) :
    c ∈ bound ∨ c ∈ correction :=
  mem_insertAt h

/-- A bound that was mended is adjusted. -/
theorem isAdjusted_adjust {bound : List Char} (h : callsLength bound = true) :
    isAdjusted (adjust bound) = true := by
  obtain ⟨before, after, after', -, hadjust⟩ := adjust_of_callsLength h
  rw [isAdjusted, List.any_eq_true]
  refine ⟨"- 1", by simp [adjustments], Text.hasInfix_iff.mpr ⟨before ++ [')', ' '], after', ?_⟩⟩
  rw [hadjust]
  simp [correction]

theorem isCritical_iff {bound : List Char} :
    isCritical bound = true ↔ callsLength bound = true ∧ isAdjusted bound = false := by
  rw [isCritical, Bool.and_eq_true, Bool.not_eq_true']

theorem isCritical_adjust {bound : List Char} (h : isCritical bound = true) :
    isCritical (adjust bound) = false := by
  rw [isCritical, isAdjusted_adjust (isCritical_iff.mp h).1, Bool.not_true, Bool.and_false]

/-- The bound as mending leaves it. -/
def settled (bound : List Char) : List Char := if isCritical bound then adjust bound else bound

theorem isCritical_settled (bound : List Char) : isCritical (settled bound) = false := by
  rw [settled]
  split
  case isTrue h => exact isCritical_adjust h
  case isFalse h => exact Bool.eq_false_iff.mpr h

end LoopBound

/-! ### A line -/

namespace LoopHeader

open LoopBound

/-- How the first header of a line divides it: some text, the bound between blanks, and the text
from the brace on. -/
structure Divides (lead before after rest line : List Char) (h : LoopHeader) : Prop where
  line_eq : line = lead ++ (before ++ h.trimmedBound ++ after) ++ '{' :: rest
  bound_eq : h.bound = before ++ h.trimmedBound ++ after
  brace_not_mem : '{' ∉ h.bound
  before_blank : ∀ c ∈ before, Text.isBlank c = true
  after_blank : ∀ c ∈ after, Text.isBlank c = true
  start_eq : h.start = lead.length
  stop_eq : h.stop = lead.length + h.bound.length + 1
  trimmedStart_eq : h.trimmedStart = (lead ++ before).length

theorem exists_divides {line : List Char} {h : LoopHeader} (hh : find? line = some h) :
    ∃ lead before after rest, Divides lead before after rest line h := by
  obtain ⟨lead, rest, hline, -, hbrace, hstart, hstop⟩ := exists_of_find? hh
  obtain ⟨after, hbound, hafter⟩ := Text.eq_append_trim h.bound
  refine ⟨lead, h.bound.takeWhile Text.isBlank, after, rest, ?_, hbound, hbrace,
    fun c hc ↦ List.mem_takeWhile_imp hc, hafter, hstart, hstop, ?_⟩
  · rw [trimmedBound, ← hbound]
    exact hline
  · rw [trimmedStart, hstart, List.length_append]

/-- The header with its bound mended, where the bound stood between the given blanks. -/
def mendedBetween (before after : List Char) (h : LoopHeader) : LoopHeader :=
  let bound := before ++ adjust h.trimmedBound ++ after
  ⟨h.start, bound, h.start + bound.length + 1⟩

section Critical

variable {lead before after rest line : List Char} {h : LoopHeader}

theorem Divides.line_eq_trimmed (hd : Divides lead before after rest line h) :
    line = lead ++ before ++ h.trimmedBound ++ (after ++ '{' :: rest) := by
  simpa only [List.append_assoc] using hd.line_eq

theorem line_of_critical (hh : find? line = some h) (hd : Divides lead before after rest line h)
    (hc : h.isCritical = true) :
    Repair.line line = lead ++ (before ++ adjust h.trimmedBound ++ after) ++ '{' :: rest := by
  have hsplit := hd.line_eq_trimmed
  have htake : line.take (lead ++ before).length = lead ++ before := by
    rw [hsplit, List.append_assoc, List.take_left]
  have hdrop : line.drop ((lead ++ before).length + h.trimmedBound.length) =
      after ++ '{' :: rest := by
    rw [hsplit, ← List.length_append, List.drop_left]
  simp only [Repair.line, hh, hc, if_true, hd.trimmedStart_eq, htake, hdrop]
  simp only [List.append_assoc]

theorem brace_not_mem_mended (hd : Divides lead before after rest line h) :
    '{' ∉ before ++ adjust h.trimmedBound ++ after := by
  have hbound := hd.bound_eq ▸ hd.brace_not_mem
  simp only [List.mem_append, not_or] at hbound ⊢
  refine ⟨⟨hbound.1.1, fun hmem ↦ ?_⟩, hbound.2⟩
  exact (mem_adjust hmem).elim hbound.1.2 (by decide)

/-- The first header of a mended line stands where it stood before, with the adjusted bound. -/
theorem find?_line_of_critical (hh : find? line = some h)
    (hd : Divides lead before after rest line h) (hc : h.isCritical = true) :
    find? (Repair.line line) = some (h.mendedBetween before after) := by
  obtain ⟨first, second, second', hbound, hadjust⟩ :=
    adjust_of_callsLength (isCritical_iff.mp hc).1
  have hold : line = (lead ++ before ++ first) ++ ')' :: (second ++ after ++ '{' :: rest) := by
    rw [hd.line_eq, hbound]
    simp
  have hnew : lead ++ (before ++ adjust h.trimmedBound ++ after) ++ '{' :: rest =
      (lead ++ before ++ first) ++ ')' :: (correction ++ second' ++ after ++ '{' :: rest) := by
    rw [hadjust]
    simp
  have hstart : h.start ≤ (lead ++ before ++ first).length := by
    rw [hd.start_eq]
    simp only [List.length_append]
    omega
  rw [hold] at hh
  have hexchange := find?_exchange opening_not_canRead_closing (by simp) hh hstart
    (correction ++ second' ++ after ++ '{' :: rest) (by simp)
  rw [line_of_critical (hold ▸ hh) hd hc, hnew, hexchange, ← hnew, hd.start_eq,
    boundedAt_append (brace_not_mem_mended hd), mendedBetween, hd.start_eq]

theorem trimmedBound_mendedBetween (hd : Divides lead before after rest line h)
    (hc : h.isCritical = true) :
    (h.mendedBetween before after).trimmedBound = adjust h.trimmedBound := by
  obtain ⟨first, second, second', hbound, hadjust⟩ :=
    adjust_of_callsLength (isCritical_iff.mp hc).1
  have hne : h.trimmedBound ≠ [] := by simp [hbound]
  refine Text.trim_append hd.before_blank hd.after_blank (by simp [hadjust]) (fun c hhead ↦ ?_)
    fun c hlast ↦ ?_
  · have hhead' : h.trimmedBound.head? = some c := by
      rw [hbound]
      rw [hadjust] at hhead
      cases first with
      | nil => exact hhead
      | cons x first => exact hhead
    exact Text.not_isBlank_of_head?_trim hhead'
  · rcases getLast?_insertAt hne hlast with hlast | hlast
    · exact Text.not_isBlank_of_getLast?_trim hlast
    · obtain rfl : '1' = c := Option.some.inj hlast
      decide

theorem all_of_divides (hh : find? line = some h) (hd : Divides lead before after rest line h) :
    all line = h :: (allFrom 0 ['{'] rest).map
      (shift (lead ++ (before ++ h.trimmedBound ++ after)).length) := by
  have hstop : h.stop = (lead ++ (before ++ h.trimmedBound ++ after)).length + 1 := by
    rw [hd.stop_eq, ← hd.bound_eq, List.length_append]
  rw [hd.line_eq] at hh ⊢
  exact all_eq_cons hh hstop

theorem all_line_of_critical (hh : find? line = some h)
    (hd : Divides lead before after rest line h) (hc : h.isCritical = true) :
    all (Repair.line line) = h.mendedBetween before after :: (allFrom 0 ['{'] rest).map
      (shift (lead ++ (before ++ adjust h.trimmedBound ++ after)).length) := by
  have hmended := find?_line_of_critical hh hd hc
  rw [line_of_critical hh hd hc] at hmended ⊢
  refine all_eq_cons hmended ?_
  simp only [mendedBetween, hd.start_eq, List.length_append]

end Critical

/-- Mending settles the bound of the first header and leaves the others as they are. -/
theorem trimmedBounds_line (line : List Char) :
    (all (Repair.line line)).map trimmedBound =
      match all line with
      | [] => []
      | h :: later => settled h.trimmedBound :: later.map trimmedBound := by
  have hhead := head?_all line
  cases hh : find? line with
  | none =>
    rw [hh, List.head?_eq_none_iff] at hhead
    rw [Repair.line_of_no_header hh, hhead]
    rfl
  | some h =>
    rw [hh] at hhead
    obtain ⟨later, hall⟩ := List.head?_eq_some_iff.mp hhead
    cases hc : h.isCritical with
    | false =>
      have hsettled : settled h.trimmedBound = h.trimmedBound :=
        if_neg (by simpa [isCritical] using hc)
      rw [Repair.line_of_not_critical hh hc, hall]
      simp [hsettled]
    | true =>
      obtain ⟨lead, before, after, rest, hd⟩ := exists_divides hh
      have hsettled : settled h.trimmedBound = adjust h.trimmedBound := if_pos hc
      rw [all_line_of_critical hh hd hc, all_of_divides hh hd]
      simp [hsettled, trimmedBound_mendedBetween hd hc]

end LoopHeader

/-! ### A program -/

namespace Repair

open LoopHeader LoopBound

/-- Mending brings in no character but those of the correction. -/
theorem mem_line {text : List Char} {c : Char} (h : c ∈ line text) : c ∈ text ∨ c ∈ correction := by
  cases hh : find? text with
  | none =>
    rw [line_of_no_header hh] at h
    exact .inl h
  | some header =>
    cases hc : header.isCritical with
    | false =>
      rw [line_of_not_critical hh hc] at h
      exact .inl h
    | true =>
      obtain ⟨lead, before, after, rest, hd⟩ := exists_divides hh
      rw [line_of_critical hh hd hc] at h
      rw [hd.line_eq]
      simp only [List.mem_append] at h ⊢
      rcases h with (h | (h | h) | h) | h
      · exact .inl (.inl (.inl h))
      · exact .inl (.inl (.inr (.inl (.inl h))))
      · exact (mem_adjust h).imp (fun h ↦ .inl (.inr (.inl (.inr h)))) id
      · exact .inl (.inl (.inr (.inr h)))
      · exact .inl (.inr h)

/-- The first header of a mended line is not critical. -/
theorem isCritical_of_find?_line {text : List Char} {h : LoopHeader}
    (hh : find? (line text) = some h) : h.isCritical = false := by
  rw [← head?_all] at hh
  obtain ⟨later, hall⟩ := List.head?_eq_some_iff.mp hh
  have hbounds := trimmedBounds_line text
  rw [hall, List.map_cons] at hbounds
  cases hold : all text with
  | nil =>
    rw [hold] at hbounds
    cases hbounds
  | cons old rest =>
    rw [hold] at hbounds
    rw [LoopHeader.isCritical, (List.cons.inj hbounds).1]
    exact isCritical_settled _

/-- A line is left as it is when its first header, if it has one, is not critical, and only then. -/
theorem line_eq_self_iff {text : List Char} :
    line text = text ↔ ∀ h, find? text = some h → h.isCritical = false := by
  constructor
  · intro heq h hh
    exact isCritical_of_find?_line (heq.symm ▸ hh)
  · intro hall
    cases hh : find? text with
    | none => exact line_of_no_header hh
    | some h => exact line_of_not_critical hh (hall h hh)

theorem line_ne_self_iff {text : List Char} :
    line text ≠ text ↔ ∃ h, find? text = some h ∧ h.isCritical = true := by
  rw [ne_eq, line_eq_self_iff]
  push Not
  simp only [Bool.not_eq_false]

theorem line_line (text : List Char) : line (line text) = line text :=
  line_eq_self_iff.mpr fun _ hh ↦ isCritical_of_find?_line hh

/-- Mending a program is mending each of its lines. -/
theorem splitLines_source (text : List Char) :
    Text.splitLines (source text) = (Text.splitLines text).map line := by
  refine Text.splitLines_joinLines (by simp [Text.splitLines_ne_nil]) fun mended hmended hmem ↦ ?_
  obtain ⟨l, hl, rfl⟩ := List.mem_map.mp hmended
  exact (mem_line hmem).elim (Text.not_mem_of_mem_splitLines hl) (by decide)

theorem source_source (text : List Char) : source (source text) = source text := by
  rw [source, splitLines_source, List.map_map]
  exact congrArg Text.joinLines (List.map_congr_left fun l _ ↦ line_line l)

theorem source_eq_self_iff {text : List Char} :
    source text = text ↔ ∀ l ∈ Text.splitLines text, line l = l := by
  constructor
  · intro heq
    have hmap := splitLines_source text
    rw [heq] at hmap
    exact List.map_inj_left.mp (hmap.symm.trans (List.map_id _).symm)
  · intro hall
    rw [source, List.map_congr_left hall, List.map_id', Text.joinLines_splitLines]

@[simp] theorem toList_mended (s : String) : (mended s).toList = source s.toList :=
  String.toList_ofList

theorem mended_eq_self_iff {s : String} : mended s = s ↔ source s.toList = s.toList := by
  rw [← toList_mended, String.toList_inj]

theorem mended_mended (s : String) : mended (mended s) = mended s := by
  rw [mended_eq_self_iff, toList_mended, source_source]

end Repair

end FlexGate
