import FlexGate.Proofs.Analysis.Levels
import FlexGate.Proofs.Loop.Calls
import FlexGate.Proofs.Text.Offsets

/-!
# The places of findings

A pattern is searched in the bytes of a line, so the places of what it finds are offsets into them.
The analysis cuts the line there to count the characters before a finding, or to go on behind a loop
header (`IsCut`). The first call in a bound is searched in the bound alone and its offset added to
that of the bound, so it is no place of a match on the line. All these offsets lie between
characters (`exists_of_isCut`), and the column of a finding is counted at one of them.

What is found at a place starts there (`PointsAt`), on the line that the finding names
(`finding_places_exact`).
-/

set_option autoImplicit false
set_option relaxedAutoImplicit false

namespace FlexGate

open Text.Utf8 (before? after? column?)

/-! ### Positions in a text -/

namespace Cursor

/-- The offset of a position into the bytes of its text. -/
def offset (c : Cursor) : Nat := Text.Utf8.size c.behind.reverse

variable {c : Cursor} {text : List Char}

theorem drop_position (h : c.text = text) : text.drop c.position = c.ahead := by
  rw [← h, Cursor.text, position, ← List.length_reverse, List.drop_left]

theorem column?_offset (h : c.text = text) : column? text c.offset = some (c.position + 1) := by
  rw [← h, Cursor.text, offset, Text.Utf8.column?_append, List.length_reverse, position]

end Cursor

namespace LoopBound

open Pattern Shape

/-- A call in a trimmed bound is a call in the bound: the blank before it is no word character. -/
theorem callsLength_of_trim {bound : List Char} (h : callsLength (Text.trim bound) = true) :
    callsLength bound = true := by
  obtain ⟨lead, x, rest, d, hcore, hd⟩ := occursIn_iff.mp h
  obtain ⟨hbehind, name, hname, blanks, argument, hblanks, hne, hclose, hahead, -⟩ :=
    mem_ends_lengthCall.mp hd
  obtain ⟨after, hbound, -⟩ := Text.eq_append_trim bound
  have hword : Cursor.leadsWithWord (bound.takeWhile Text.isBlank ++ lead).reverse = false := by
    rw [List.reverse_append]
    by_cases hlead : lead.reverse = []
    · rw [hlead, List.nil_append]
      cases hlast : (bound.takeWhile Text.isBlank).reverse with
      | nil => rfl
      | cons b others =>
        have hmem : b ∈ bound.takeWhile Text.isBlank := by
          rw [← List.mem_reverse, hlast]
          exact List.mem_cons_self
        exact Text.not_isWord_of_isBlank (List.mem_takeWhile_imp hmem)
    · rw [Cursor.leadsWithWord_append hlead]
      exact hbehind
  have hsplit : bound = (bound.takeWhile Text.isBlank ++ lead) ++
      (call name blanks argument ++ (d.ahead ++ after)) := by
    calc bound = bound.takeWhile Text.isBlank ++ Text.trim bound ++ after := hbound
      _ = bound.takeWhile Text.isBlank ++ (lead ++ (call name blanks argument ++ d.ahead)) ++
          after := by rw [hcore, ← hahead]
      _ = _ := by simp only [List.append_assoc]
  have hcalls := callsLength_append_call hword hname hblanks hne hclose (d.ahead ++ after)
  rwa [← hsplit] at hcalls

end LoopBound

namespace Analysis

open LoopHeader Pattern Shape

/-! ### Cuts -/

/-- The offsets at which the analysis cuts a line: where a terminator starts, where an operator that
is applied to zero starts, where a loop header ends, where its bound starts, and where the first
call in the bound starts. -/
inductive IsCut (line : List Char) : Nat → Prop
  | terminator {m : Match} (hm : m ∈ terminator.findAll line) : IsCut line m.span.first.offset
  | divisor {m : Match} (hm : divisionByZero.find? line = some m) :
    IsCut line m.span.first.offset
  | modulus {m : Match} (hm : moduloByZero.find? line = some m) : IsCut line m.span.first.offset
  | header {m : Match} (hm : inclusiveLoop.find? line = some m) : IsCut line m.span.last.offset
  | bound {m : Match} {bound : Span} (hm : inclusiveLoop.find? line = some m)
    (hbound : m.group? 2 = some bound) : IsCut line bound.first.offset
  | call {m call : Match} {bound : Span} (hm : inclusiveLoop.find? line = some m)
    (hbound : m.group? 2 = some bound) (hcall : lengthCall.find? bound.text = some call) :
    IsCut line (bound.first.offset + call.span.first.offset)

/-- A call that is found in a bound stands on the line where both offsets together say. -/
theorem offset_call {line : List Char} {m call : Match} {bound : Span}
    (hm : inclusiveLoop.find? line = some m) (hbound : m.group? 2 = some bound)
    (hcall : lengthCall.find? bound.text = some call) :
    ∃ before after, line = before ++ (call.span.first.ahead ++ after) ∧
      bound.first.offset + call.span.first.offset = Text.Utf8.size before ∧
      before.length = bound.start + call.start := by
  obtain ⟨hline, hahead⟩ := exists_of_group?_eq_some hm hbound
  obtain ⟨htext, -⟩ := exists_of_find?_eq_some hcall
  refine ⟨bound.first.behind.reverse ++ call.span.first.behind.reverse, bound.last.ahead, ?_, ?_,
    ?_⟩
  · calc line = bound.first.behind.reverse ++ bound.first.ahead := hline.symm
      _ = bound.first.behind.reverse ++ (bound.text ++ bound.last.ahead) := by rw [hahead]
      _ = _ := by rw [← htext, Cursor.text]; simp only [List.append_assoc]
  · rw [Text.Utf8.size_append, Cursor.offset, Cursor.offset]
  · rw [List.length_append, List.length_reverse, List.length_reverse]
    rfl

/-- A line that is cut falls into two texts. -/
theorem exists_of_isCut {line : List Char} {k : Nat} (h : IsCut line k) :
    ∃ before after, line = before ++ after ∧ before? line k = some before ∧
      after? line k = some after := by
  have hpieces (before after : List Char) (hline : line = before ++ after)
      (hk : k = Text.Utf8.size before) : ∃ before after, line = before ++ after ∧
        before? line k = some before ∧ after? line k = some after := by
    refine ⟨before, after, hline, ?_, ?_⟩
    · rw [hline, hk, Text.Utf8.before?_append]
    · rw [hline, hk, Text.Utf8.after?_append]
  have hcursor (c : Cursor) (hline : c.text = line) (hk : k = c.offset) :=
    hpieces c.behind.reverse c.ahead hline.symm hk
  cases h with
  | terminator hm => exact hcursor _ (text_of_mem_findAllFrom hm) rfl
  | divisor hm => exact hcursor _ (exists_of_find?_eq_some hm).1 rfl
  | modulus hm => exact hcursor _ (exists_of_find?_eq_some hm).1 rfl
  | header hm =>
    obtain ⟨hline, hlast⟩ := exists_of_find?_eq_some hm
    exact hcursor _ ((leads_of_mem_ends hlast).text_eq.trans hline) rfl
  | bound hm hbound => exact hcursor _ (exists_of_group?_eq_some hm hbound).1 rfl
  | call hm hbound hcall =>
    obtain ⟨before, after, hline, hoffset, -⟩ := offset_call hm hbound hcall
    exact hpieces before _ hline hoffset

/-! ### What stands at a place -/

/-- From a column of a line on, the line goes on with what a finding of a kind is about. -/
def PointsAt (line : List Char) (column : Nat) : FindingKind → Prop
  | .disallowedTerminator => [';'] <+: line.drop (column - 1)
  | .unbalancedBlock => False
  | .criticalLoopBound => ∃ header lead name blanks argument rest, find? line = some header ∧
      header.bound = lead ++ LoopBound.call name blanks argument ++ rest ∧
      column = header.start + lead.length + 1 ∧ name ∈ LoopBound.builtins ∧
      (∀ x ∈ blanks, Text.isBlank x = true) ∧ argument ≠ [] ∧ ')' ∉ argument ∧
      LoopBound.call name blanks argument <+: line.drop (column - 1)
  | .potentialIndex => ∃ header, find? line = some header ∧ column = header.start + 1 ∧
      header.bound ≠ [] ∧ header.bound <+: line.drop (column - 1)
  | .divisionByZero => ['/'] <+: line.drop (column - 1)
  | .moduloByZero => ['%'] <+: line.drop (column - 1)

/-- A finding of a kind at a column of a line, which is counted at a cut. -/
structure Located (line : List Char) (column : Nat) (kind : FindingKind) : Prop where
  pos : 1 ≤ column
  points : PointsAt line column kind
  counted : ∃ k, IsCut line k ∧ column? line k = some column

/-- An operator that is applied to zero is read where it stands. -/
theorem head_of_find?_byZero {operator : Char} {line : List Char} {m : Match}
    (hm : (byZero operator).find? line = some m) : [operator] <+: line.drop m.start := by
  obtain ⟨hline, hlast⟩ := exists_of_find?_eq_some hm
  obtain ⟨c, hc, -⟩ := mem_ends_seq.mp hlast
  obtain ⟨x, ahead, hahead, hx, -⟩ := mem_ends_char.mp hc
  obtain rfl := eq_of_beq hx
  rw [Match.start, Span.start, Cursor.drop_position hline, hahead]
  exact ⟨ahead, rfl⟩

theorem located_terminator {line : List Char} {m : Match} (hm : m ∈ terminator.findAll line) :
    Located line (m.start + 1) .disallowedTerminator := by
  have hline : m.span.first.text = line := text_of_mem_findAllFrom hm
  have hlast := last_mem_ends (exists_matchAt_of_mem_findAllFrom hm)
  obtain ⟨x, ahead, hahead, hx, -⟩ := mem_ends_char.mp hlast
  obtain rfl := eq_of_beq hx
  refine ⟨Nat.le_add_left 1 _, ?_, _, .terminator hm, Cursor.column?_offset hline⟩
  unfold PointsAt
  rw [Nat.add_sub_cancel, Match.start, Span.start, Cursor.drop_position hline, hahead]
  exact ⟨ahead, rfl⟩

theorem located_divisor {line : List Char} {m : Match}
    (hm : divisionByZero.find? line = some m) : Located line (m.start + 1) .divisionByZero :=
  ⟨Nat.le_add_left 1 _, head_of_find?_byZero hm, _, .divisor hm,
    Cursor.column?_offset (exists_of_find?_eq_some hm).1⟩

theorem located_modulus {line : List Char} {m : Match}
    (hm : moduloByZero.find? line = some m) : Located line (m.start + 1) .moduloByZero :=
  ⟨Nat.le_add_left 1 _, head_of_find?_byZero hm, _, .modulus hm,
    Cursor.column?_offset (exists_of_find?_eq_some hm).1⟩

/-- The header on a line is what a match and its second group say. -/
theorem exists_of_find?_eq_some_header {line : List Char} {h : LoopHeader}
    (hh : find? line = some h) : ∃ m bound, inclusiveLoop.find? line = some m ∧
      m.group? 2 = some bound ∧ h = ⟨bound.start, bound.text, m.stop⟩ := by
  rw [find?_eq_bind, Option.bind_eq_some_iff] at hh
  obtain ⟨m, hm, hh⟩ := hh
  obtain ⟨bound, hbound, rfl⟩ := Option.map_eq_some_iff.mp hh
  exact ⟨m, bound, hm, hbound, rfl⟩

theorem located_bound {line : List Char} {h : LoopHeader} (hh : find? line = some h) :
    Located line (h.start + 1) .potentialIndex := by
  obtain ⟨lead, after, hline, hne, -, hstart, -⟩ := exists_of_find? hh
  obtain ⟨m, bound, hm, hbound, rfl⟩ := exists_of_find?_eq_some_header hh
  refine ⟨Nat.le_add_left 1 _, ⟨_, hh, rfl, hne, ?_⟩, _, .bound hm hbound,
    Cursor.column?_offset (exists_of_group?_eq_some hm hbound).1⟩
  have hdrop : line.drop bound.start = bound.first.ahead :=
    Cursor.drop_position (exists_of_group?_eq_some hm hbound).1
  rw [Nat.add_sub_cancel, hdrop, (exists_of_group?_eq_some hm hbound).2]
  exact List.prefix_append _ _

theorem located_call {line : List Char} {h : LoopHeader} (hh : find? line = some h)
    (hcritical : h.isCritical = true) :
    Located line (h.callPosition + 1) .criticalLoopBound := by
  obtain ⟨m, bound, hm, hbound, rfl⟩ := exists_of_find?_eq_some_header hh
  have hcalls : LoopBound.callsLength bound.text = true :=
    LoopBound.callsLength_of_trim (LoopBound.isCritical_iff.mp hcritical).1
  obtain ⟨call, hcall⟩ := Option.isSome_iff_exists.mp hcalls
  have hposition : callPosition ⟨bound.start, bound.text, m.stop⟩ = bound.start + call.start := by
    simp [callPosition, hcall]
  obtain ⟨before, after, hline, hoffset, hlength⟩ := offset_call hm hbound hcall
  obtain ⟨htext, hlast⟩ := exists_of_find?_eq_some hcall
  obtain ⟨-, name, hname, blanks, argument, hblanks, hne, hclose, hahead, -⟩ :=
    LoopBound.mem_ends_lengthCall.mp hlast
  rw [hposition]
  refine ⟨Nat.le_add_left 1 _, ?_, _, .call hm hbound hcall, ?_⟩
  · refine ⟨_, call.span.first.behind.reverse, name, blanks, argument, call.span.last.ahead, hh, ?_,
      ?_, hname, hblanks, hne, hclose, ?_⟩
    · dsimp only
      rw [List.append_assoc, ← hahead, ← htext, Cursor.text]
    · rw [List.length_reverse]
      rfl
    · rw [Nat.add_sub_cancel, ← hlength, hline, List.drop_left, hahead, List.append_assoc]
      exact List.prefix_append _ _
  · rw [hline, hoffset, Text.Utf8.column?_append, hlength]

/-! ### Findings -/

theorem located_of_mem_terminatorsOnLine {n c : Nat} {line : List Char} {f : Finding}
    (hf : f ∈ terminatorsOnLine n line) (hc : f.column = some c) : Located line c f.kind := by
  obtain ⟨m, hm, rfl⟩ := mem_terminatorsOnLine.mp hf
  obtain rfl := Option.some.inj hc
  exact located_terminator hm

theorem located_of_mem_safetyOnLine {n c : Nat} {line : List Char} {ahead : List (List Char)}
    {f : Finding} (hf : f ∈ safetyOnLine n line ahead) (hc : f.column = some c) :
    Located line c f.kind := by
  rcases mem_safetyOnLine.mp hf with hf | hf | hf
  · obtain ⟨h, hh, ⟨hcritical, rfl⟩ | ⟨-, -, -, rfl⟩⟩ := loopFinding?_eq_some_iff.mp hf
    · obtain rfl := Option.some.inj hc
      exact located_call hh hcritical
    · obtain rfl := Option.some.inj hc
      exact located_bound hh
  · obtain ⟨m, hm, rfl⟩ := zeroDivisor?_eq_some_iff.mp hf
    obtain rfl := Option.some.inj hc
    exact located_divisor hm
  · obtain ⟨m, hm, rfl⟩ := zeroModulus?_eq_some_iff.mp hf
    obtain rfl := Option.some.inj hc
    exact located_modulus hm

section Findings

variable {options : AnalysisOptions} {lines : List (List Char)} {f : Finding}

/-- A finding names one of the lines, counted from one. -/
theorem exists_line_of_mem_findings (hf : f ∈ findings options lines) (hne : lines ≠ []) :
    ∃ i < lines.length, f.line = i + 1 := by
  have hlt {i : Nat} {line : List Char} (hi : lines[i]? = some line) : i < lines.length :=
    (List.getElem?_eq_some_iff.mp hi).1
  cases hcheck : f.kind.check with
  | terminators =>
    obtain ⟨i, line, hi, hf⟩ := (mem_findings_of_terminators hcheck).mp hf
    exact ⟨i, hlt hi, line_of_mem_terminatorsOnLine hf⟩
  | braces =>
    rcases mem_braces_iff.mp ((mem_findings_of_braces hcheck).mp hf) with
      ⟨k, hpos, hle, -, rfl⟩ | ⟨-, rfl⟩
    · exact ⟨k - 1, by omega, (Nat.sub_add_cancel hpos).symm⟩
    · have hpos : 0 < lines.length := List.length_pos_iff.mpr hne
      exact ⟨lines.length - 1, by omega, (Nat.sub_add_cancel hpos).symm⟩
  | safety =>
    obtain ⟨i, line, hi, hf⟩ := (mem_findings_of_safety hcheck).mp hf
    exact ⟨i, hlt hi, line_of_mem_safetyOnLine hf⟩

/-- A finding with a column is found at that column of its line. -/
theorem located_of_mem_findings (hf : f ∈ findings options lines) {c : Nat}
    (hc : f.column = some c) :
    ∃ line, lines[f.line - 1]? = some line ∧ Located line c f.kind := by
  cases hcheck : f.kind.check with
  | terminators =>
    obtain ⟨i, line, hi, hf⟩ := (mem_findings_of_terminators hcheck).mp hf
    refine ⟨line, ?_, located_of_mem_terminatorsOnLine hf hc⟩
    rw [line_of_mem_terminatorsOnLine hf, Nat.add_sub_cancel, hi]
  | braces =>
    rcases mem_braces_iff.mp ((mem_findings_of_braces hcheck).mp hf) with
      ⟨k, -, -, -, rfl⟩ | ⟨-, rfl⟩
    · cases hc
    · cases hc
  | safety =>
    obtain ⟨i, line, hi, hf⟩ := (mem_findings_of_safety hcheck).mp hf
    refine ⟨line, ?_, located_of_mem_safetyOnLine hf hc⟩
    rw [line_of_mem_safetyOnLine hf, Nat.add_sub_cancel, hi]

/-- A line that sinks closes a brace. -/
theorem mem_closing_of_sinks {k : Nat} {line : List Char} (hk : lines[k]? = some line)
    (hsinks : Sinks lines (k + 1)) : '}' ∈ line := by
  have hlt : level lines (k + 1) < level lines k := hsinks k (Nat.lt_succ_self k)
  rw [level_succ hk] at hlt
  by_contra hnot
  have hnone : line.count '}' = 0 := List.count_eq_zero.mpr hnot
  unfold braceBalance at hlt
  omega

/-- A closing brace too many is found on a line that closes one. -/
theorem mem_closing_of_mem_findings (hf : f ∈ findings options lines)
    (hmessage : f.defect.message = "Unmatched closing brace") :
    ∃ line, lines[f.line - 1]? = some line ∧ '}' ∈ line := by
  obtain ⟨header, hdefect⟩ := Defect.message_eq_closing_iff.mp hmessage
  have hcheck : f.kind.check = .braces := by
    rw [Finding.kind, hdefect]
    rfl
  rcases mem_braces_iff.mp ((mem_findings_of_braces hcheck).mp hf) with
    ⟨k, hpos, hle, hsinks, rfl⟩ | ⟨-, rfl⟩
  · obtain ⟨j, rfl⟩ := Nat.exists_eq_add_of_le' hpos
    have hj : lines[j]? = some lines[j] := List.getElem?_eq_getElem hle
    exact ⟨lines[j], hj, mem_closing_of_sinks hj hsinks⟩
  · cases hdefect

end Findings

end Analysis

open Analysis

/-- Where the findings on a program are: each on one of its lines, those with a column at a
character of it that starts what they are about and that is counted where the line is cut, and those
of one check in the order of the lines. No cut falls within a character. -/
theorem finding_places_exact (options : AnalysisOptions) (s : String) :
    (∀ f ∈ (Report.ofSource options s).findings,
      1 ≤ f.line ∧ f.line ≤ (Text.splitLines s.toList).length) ∧
    (∀ line ∈ Text.lines s.toList, ∀ k, IsCut line k → ∃ before after, line = before ++ after ∧
      before? line k = some before ∧ after? line k = some after) ∧
    (∀ f ∈ (Report.ofSource options s).findings, ∀ c, f.column = some c →
      ∃ line, (Text.lines s.toList)[f.line - 1]? = some line ∧ 1 ≤ c ∧ PointsAt line c f.kind ∧
        ∃ k, IsCut line k ∧ column? line k = some c) ∧
    (∀ f ∈ (Report.ofSource options s).findings, f.defect.message = "Unmatched closing brace" →
      ∃ line, (Text.lines s.toList)[f.line - 1]? = some line ∧ '}' ∈ line) ∧
    (Report.ofSource options s).findings.Pairwise fun f g ↦
      f.kind.check = g.kind.check → f.line ≤ g.line := by
  refine ⟨fun f hf ↦ ?_, fun line _ k hk ↦ exists_of_isCut hk, fun f hf c hc ↦ ?_,
    fun f hf hmessage ↦ mem_closing_of_mem_findings hf hmessage,
    pairwise_findings (pairwise_braces _)⟩
  · have hne : Text.lines s.toList ≠ [] := by
      unfold Text.lines
      rw [ne_eq, List.map_eq_nil_iff]
      exact Text.splitLines_ne_nil s.toList
    obtain ⟨i, hi, hline⟩ := exists_line_of_mem_findings hf hne
    rw [length_lines] at hi
    omega
  · obtain ⟨line, hline, hlocated⟩ := located_of_mem_findings hf hc
    exact ⟨line, hline, hlocated.pos, hlocated.points, hlocated.counted⟩

/-- A loop up to the length of an array, behind letters that take two bytes each. -/
def accentedLoop : String := "é; karr i=0 l7d ü+length(a) ".push '{'

/-- Each of the letters counts as one, that before the bound and that in it. -/
theorem finding_places_accentedLoop :
    (⟨.inclusiveBound "ü+length(a)".toList, 1, some 19⟩ : Finding) ∈
      (Report.ofSource {} accentedLoop).findings ∧
    ∃ line, (Text.lines accentedLoop.toList)[0]? = some line ∧
      PointsAt line 19 .criticalLoopBound ∧ ∃ k, IsCut line k ∧ column? line k = some 19 := by
  have hmem : (⟨.inclusiveBound "ü+length(a)".toList, 1, some 19⟩ : Finding) ∈
      (Report.ofSource {} accentedLoop).findings := by
    decide +kernel
  obtain ⟨-, -, hplaces, -⟩ := finding_places_exact {} accentedLoop
  obtain ⟨line, hline, -, hpoints, hcounted⟩ := hplaces _ hmem 19 rfl
  exact ⟨hmem, line, hline, hpoints, hcounted⟩

end FlexGate
