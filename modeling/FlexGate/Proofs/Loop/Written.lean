import FlexGate.Proofs.Loop.Agreement
import FlexGate.Proofs.Loop.Calls

/-!
# Headers as they are written

A header that starts with the keyword, a counter from zero and the word before the bound can be read
in several ways, since runs of blanks can be cut short. The reading that is preferred takes all
blanks before the bound (`head?_ends_opening`), so the bound is all that stands between them and the
brace (`find?_preamble`).

A program has a critical loop when the first header of one of its lines is critical
(`hasCriticalLoop_iff_holdsCritical`). This is a matter of lines: a line feed cuts a text in two
that are judged apart (`holdsCritical_append_cons`), and a critical header is all on one line: the
keyword, the parenthesis of a call and the brace (`HasCritical.exists_call`). So a header with one
parenthesis is judged only where no line feed breaks it (`not_mem_of_holdsCritical`), and a header
with a call in its bound (`CallHeader`) makes a text critical exactly when it is all on one line and
its bound is critical (`CallHeader.holdsCritical_text`).
-/

set_option autoImplicit false
set_option relaxedAutoImplicit false

namespace FlexGate

/-- One or more blanks. -/
structure Text.IsGap (gap : List Char) : Prop where
  ne_nil : gap ≠ []
  blank : ∀ c ∈ gap, Text.isBlank c = true

theorem Text.isGap_singleton {c : Char} (h : Text.isBlank c = true) : Text.IsGap [c] :=
  ⟨List.cons_ne_nil c [], List.forall_mem_singleton.mpr h⟩

/-- Text without parentheses and opening braces. -/
structure Text.Plain (text : List Char) : Prop where
  not_open : '(' ∉ text
  not_close : ')' ∉ text
  not_brace : '{' ∉ text

theorem Text.plain_nil : Text.Plain [] :=
  ⟨List.not_mem_nil, List.not_mem_nil, List.not_mem_nil⟩

namespace LoopHeader

open Pattern Shape
open Cursor (starts)

/-- A condition on the first character, where it is known. -/
theorem forall_mem_head?_cons {p : Char → Prop} {x : Char} (hx : p x) (rest : List Char) :
    ∀ c ∈ (x :: rest).head?, p c := by
  intro c hc
  rw [← Option.some.inj hc]
  exact hx

/-! ### The first header -/

/-- A header up to its bound, with a counter from zero. -/
def preamble (w₁ w₂ : List Char) : List Char := "karr".toList ++ w₁ ++ "i=0 l7d".toList ++ w₂

section Preamble

variable {behind w₁ w₂ bound : List Char}

theorem head?_ends_counter {rest : List Char} (hrest : ∀ c ∈ rest.head?, Text.isBlank c = false) :
    (counter.ends ⟨behind, "i=0 ".toList ++ rest⟩).head? =
      some ⟨"i=0 ".toList.reverse ++ behind, rest⟩ := by
  have hname : ((some1 .word).ends ⟨behind, ['i'] ++ ('=' :: '0' :: ' ' :: rest)⟩).head? =
      some ⟨'i' :: behind, '=' :: '0' :: ' ' :: rest⟩ :=
    head?_ends_some1 (List.cons_ne_nil _ _) (List.forall_mem_singleton.mpr (by decide))
      (forall_mem_head?_cons (by decide) _)
  have hnone (b a : List Char) (ha : ∀ c ∈ a.head?, Text.isBlank c = false) :
      (blanks.ends ⟨b, a⟩).head? = some ⟨b, a⟩ :=
    head?_ends_many (fun x hx ↦ absurd hx List.not_mem_nil) ha
  have hzero : ((some1 .digit).ends ⟨'=' :: 'i' :: behind, ['0'] ++ (' ' :: rest)⟩).head? =
      some ⟨'0' :: '=' :: 'i' :: behind, ' ' :: rest⟩ :=
    head?_ends_some1 (List.cons_ne_nil _ _) (List.forall_mem_singleton.mpr (by decide))
      (forall_mem_head?_cons (by decide) _)
  have hgap : (blanks1.ends ⟨'0' :: '=' :: 'i' :: behind, [' '] ++ rest⟩).head? =
      some ⟨' ' :: '0' :: '=' :: 'i' :: behind, rest⟩ :=
    head?_ends_some1 (List.cons_ne_nil _ _) (List.forall_mem_singleton.mpr (by decide)) hrest
  have hvalue := head?_ends_seq (hnone _ _ (forall_mem_head?_cons (by decide) _))
    (head?_ends_seq hzero hgap)
  have hassigned : ((token '=').ends ⟨'i' :: behind, '=' :: '0' :: ' ' :: rest⟩).head? =
      some ⟨'=' :: 'i' :: behind, '0' :: ' ' :: rest⟩ := head?_ends_char (by decide)
  exact head?_ends_seq hname (head?_ends_seq (hnone _ _ (forall_mem_head?_cons (by decide) _))
    (head?_ends_seq hassigned hvalue))

/-- The opening of a header is read to the start of the bound. -/
theorem head?_ends_opening {rest : List Char} (hedge : Cursor.leadsWithWord behind = false)
    (h₁ : Text.IsGap w₁) (h₂ : Text.IsGap w₂) (hrest : ∀ c ∈ rest.head?, Text.isBlank c = false) :
    (opening.ends ⟨behind, preamble w₁ w₂ ++ rest⟩).head? =
      some ⟨(preamble w₁ w₂).reverse ++ behind, rest⟩ := by
  -- Each part of the opening is read to the end that it prefers.
  let afterKeyword := w₁ ++ ("i=0 ".toList ++ ("l7d".toList ++ (w₂ ++ rest)))
  have hkeyword : ((keyword "karr").ends ⟨behind, "karr".toList ++ afterKeyword⟩).head? =
      some ⟨"karr".toList.reverse ++ behind, afterKeyword⟩ := by
    have hword : Edge.word.holds ⟨behind, "karr".toList ++ afterKeyword⟩ = true := by
      rw [Edge.holds, hedge]
      rfl
    exact head?_ends_seq (head?_ends_edge hword) (head?_ends_exactly "karr".toList)
  have hfirst : (blanks1.ends ⟨"karr".toList.reverse ++ behind, afterKeyword⟩).head? =
      some ⟨w₁.reverse ++ ("karr".toList.reverse ++ behind),
        "i=0 ".toList ++ ("l7d".toList ++ (w₂ ++ rest))⟩ :=
    head?_ends_some1 h₁.ne_nil h₁.blank (forall_mem_head?_cons (by decide) _)
  have hcounter (b : List Char) : ((optional (.group 1 counter)).ends
      ⟨b, "i=0 ".toList ++ ("l7d".toList ++ (w₂ ++ rest))⟩).head? =
        some ⟨"i=0 ".toList.reverse ++ b, "l7d".toList ++ (w₂ ++ rest)⟩ :=
    head?_ends_either (head?_ends_counter (forall_mem_head?_cons (by decide) _))
  have hsecond (b : List Char) : (blanks1.ends ⟨b, w₂ ++ rest⟩).head? =
      some ⟨w₂.reverse ++ b, rest⟩ :=
    head?_ends_some1 h₂.ne_nil h₂.blank hrest
  have hends := head?_ends_seq hkeyword (head?_ends_seq hfirst (head?_ends_seq (hcounter _)
    (head?_ends_seq (head?_ends_exactly "l7d".toList) (hsecond _))))
  have htext : preamble w₁ w₂ ++ rest = "karr".toList ++ afterKeyword := by
    simp [preamble, afterKeyword]
  have hbehind : (preamble w₁ w₂).reverse ++ behind = w₂.reverse ++ ("l7d".toList.reverse ++
      ("i=0 ".toList.reverse ++ (w₁.reverse ++ ("karr".toList.reverse ++ behind)))) := by
    simp [preamble]
  rw [htext, hbehind]
  exact hends

/-- Where a header stands, its bound is what is written before the brace. -/
theorem at?_preamble (behind : List Char) (hedge : Cursor.leadsWithWord behind = false)
    (h₁ : Text.IsGap w₁) (h₂ : Text.IsGap w₂) (hne : bound ≠ [])
    (hhead : ∀ c ∈ bound.head?, Text.isBlank c = false) (hbrace : '{' ∉ bound) (after : List Char) :
    at? ⟨behind, preamble w₁ w₂ ++ (bound ++ '{' :: after)⟩ =
      some ⟨behind.length + (preamble w₁ w₂).length, bound,
        behind.length + (preamble w₁ w₂).length + bound.length + 1⟩ := by
  have hrest : ∀ c ∈ (bound ++ '{' :: after).head?, Text.isBlank c = false := by
    rwa [List.head?_append_of_ne_nil bound hne]
  obtain ⟨others, hends⟩ := List.head?_eq_some_iff.mp (head?_ends_opening hedge h₁ h₂ hrest)
  have hfollows : boundFollows ⟨(preamble w₁ w₂).reverse ++ behind, bound ++ '{' :: after⟩ = true :=
    boundFollows_iff.mpr ⟨bound, after, rfl, hne, hbrace⟩
  rw [at?_eq, hends, List.find?_cons_of_pos hfollows, Option.map_some, boundedFrom_eq rfl hbrace]
  simp [Cursor.position, Nat.add_comm behind.length]

/-- A header at the start of a line is its first one. -/
theorem find?_preamble (h₁ : Text.IsGap w₁) (h₂ : Text.IsGap w₂) (hne : bound ≠ [])
    (hhead : ∀ c ∈ bound.head?, Text.isBlank c = false) (hbrace : '{' ∉ bound)
    (after : List Char) :
    find? (preamble w₁ w₂ ++ (bound ++ '{' :: after)) =
      some ⟨(preamble w₁ w₂).length, bound, (preamble w₁ w₂).length + bound.length + 1⟩ := by
  have hat := at?_preamble [] rfl h₁ h₂ hne hhead hbrace after
  rw [List.length_nil, Nat.zero_add] at hat
  obtain ⟨rest, hrest⟩ : ∃ rest, preamble w₁ w₂ ++ (bound ++ '{' :: after) = 'k' :: rest :=
    ⟨_, rfl⟩
  rw [find?_eq, hrest, starts, List.findSome?_cons, ← hrest, hat]

end Preamble

/-! ### What a header holds -/

theorem occursIn_of_at? {lead ahead : List Char} {h : LoopHeader}
    (hat : at? ⟨lead.reverse, ahead⟩ = some h) : inclusiveLoop.occursIn (lead ++ ahead) = true := by
  obtain ⟨m, hm, -⟩ := Option.bind_eq_some_iff.mp hat
  refine occursIn_of_mem_ends ?_ (last_mem_ends hm)
  rintro rfl
  rw [at?_eq_none_of_not_mem List.not_mem_nil] at hat
  cases hat

/-- The keyword stands before the bound of the first header. -/
theorem exists_keyword_of_find? {line : List Char} {h : LoopHeader} (hh : find? line = some h) :
    ∃ lead after, line = lead ++ h.bound ++ '{' :: after ∧ 'k' ∈ lead := by
  rw [find?_eq] at hh
  obtain ⟨c, hc, hat⟩ := List.exists_of_findSome?_eq_some hh
  obtain ⟨passed, hline, hbehind, -⟩ := Cursor.exists_of_mem_starts hc
  rw [at?_eq] at hat
  obtain ⟨d, hd, rfl⟩ := Option.map_eq_some_iff.mp hat
  obtain ⟨bound, after, hahead, -, hbrace⟩ := boundFollows_iff.mp (List.find?_some hd)
  have hends := List.mem_of_find?_eq_some hd
  have htext : d.text = line := by
    rw [(leads_of_mem_ends hends).text_eq, Cursor.text, hbehind, hline]
    simp
  have hkeyword : 'k' ∈ d.behind := by
    obtain ⟨e, he, hde⟩ := mem_ends_seq.mp hends
    obtain ⟨b, -, hb⟩ := mem_ends_seq.mp he
    obtain ⟨rest, -, rfl⟩ := mem_ends_exactly.mp hb
    obtain ⟨read, -, hread, -⟩ := leads_of_mem_ends hde
    rw [hread]
    simp
  refine ⟨d.behind.reverse, after, ?_, List.mem_reverse.mpr hkeyword⟩
  rw [← htext, Cursor.text, hahead, boundedFrom_eq hahead hbrace, List.append_assoc]

end LoopHeader

/-! ### Critical headers -/

open LoopHeader

/-- The first header of a line is critical. -/
def HasCritical (line : List Char) : Prop := ∃ h, find? line = some h ∧ h.isCritical = true

/-- The first header of some line of a text is critical. -/
def HoldsCritical (text : List Char) : Prop := ∃ line ∈ Text.splitLines text, HasCritical line

theorem isLoopSafe_eq_false_iff_holdsCritical {text : List Char} :
    isLoopSafe text = false ↔ HoldsCritical text := by
  rw [← Bool.not_eq_true, isLoopSafe_iff_source_eq_self, Repair.source_eq_self_iff, HoldsCritical]
  push Not
  exact exists_congr fun line ↦ and_congr_right fun _ ↦ Repair.line_ne_self_iff

theorem hasCriticalLoop_iff_holdsCritical {options : AnalysisOptions} {s : String} :
    (Report.ofSource options s).hasCriticalLoop = true ↔ HoldsCritical s.toList := by
  rw [← isLoopSafe_eq_false_iff_holdsCritical, ← Bool.not_eq_false,
    hasCriticalLoop_ofSource_eq_false_iff, Bool.not_eq_true]

theorem mended_eq_self_iff_not_holdsCritical {s : String} :
    Repair.mended s = s ↔ ¬ HoldsCritical s.toList := by
  rw [mended_eq_self_iff_isLoopSafe, ← isLoopSafe_eq_false_iff_holdsCritical, Bool.not_eq_false]

theorem holdsCritical_append_cons (first second : List Char) :
    HoldsCritical (first ++ '\n' :: second) ↔ HoldsCritical first ∨ HoldsCritical second := by
  simp only [HoldsCritical, Text.splitLines_append_cons, List.mem_append, or_and_right, exists_or]

theorem holdsCritical_iff_hasCritical {line : List Char} (h : '\n' ∉ line) :
    HoldsCritical line ↔ HasCritical line := by
  simp only [HoldsCritical, Text.splitLines_of_not_mem h, List.mem_singleton, exists_eq_left]

/-- A critical header is all on one line: the keyword, the parenthesis of a call and the brace. -/
theorem HasCritical.exists_call {line : List Char} (h : HasCritical line) :
    ∃ first last, line = first ++ '(' :: last ∧ 'k' ∈ first ∧ '{' ∈ last := by
  obtain ⟨header, hh, hc⟩ := h
  obtain ⟨lead, after, hline, hkeyword⟩ := exists_keyword_of_find? hh
  have hopen : '(' ∈ header.bound := by
    obtain ⟨before, name, blanks, argument, rest, hbound, -, -⟩ :=
      LoopBound.exists_call_of_callsLength (LoopBound.isCritical_iff.mp hc).1
    obtain ⟨behind, hwhole, -⟩ := Text.eq_append_trim header.bound
    have hmem : '(' ∈ header.trimmedBound := by
      rw [hbound, LoopBound.call]
      simp
    rw [hwhole]
    exact List.mem_append_left _ (List.mem_append_right _ hmem)
  obtain ⟨before, behind, hbound⟩ := List.append_of_mem hopen
  refine ⟨lead ++ before, behind ++ '{' :: after, ?_, List.mem_append_left _ hkeyword, by simp⟩
  rw [hline, hbound]
  simp

/-- A header that has one parenthesis is judged only where no line feed breaks it. -/
theorem not_mem_of_holdsCritical {first last : List Char} (hkeyword : 'k' ∉ first)
    (hfirst : '(' ∉ first) (hlast : '(' ∉ last) (hbrace : '{' ∉ last)
    (h : HoldsCritical ('k' :: first ++ '(' :: (last ++ ['{']))) :
    '\n' ∉ 'k' :: first ++ '(' :: (last ++ ['{']) := by
  obtain ⟨line, hline, hcritical⟩ := h
  obtain ⟨first', last', hcall, hkeyword', hbrace'⟩ := hcritical.exists_call
  obtain ⟨before, after, htext⟩ := Text.infix_of_mem_splitLines hline
  have hsplit : 'k' :: first ++ '(' :: (last ++ ['{']) =
      (before ++ first') ++ '(' :: (last' ++ after) := by
    rw [← htext, hcall]
    simp
  have hopen : '(' ∉ 'k' :: first := by simpa using hfirst
  have hopen' : '(' ∉ last ++ ['{'] := by simpa using hlast
  obtain ⟨hfront, hback⟩ := Text.eq_of_append_cons_of_not_mem hopen hopen' hsplit
  -- So the line starts where the header does, and ends where it does.
  have hbefore : before = [] := by
    cases before with
    | nil => rfl
    | cons x before =>
      have htail : before ++ first' = first := (List.cons.inj hfront).2.symm
      exact absurd (htail ▸ List.mem_append_right before hkeyword') hkeyword
  have hafter : after = [] := by
    rcases List.eq_nil_or_concat' after with rfl | ⟨init, x, rfl⟩
    · rfl
    · have hinit : last' ++ init = last := by
        rw [← List.append_assoc] at hback
        exact (List.append_inj' hback rfl).1.symm
      exact absurd (hinit ▸ List.mem_append_left init hbrace') hbrace
  rw [← htext, hbefore, hafter, List.nil_append, List.append_nil]
  exact Text.not_mem_of_mem_splitLines hline

/-! ### A header with a call -/

open LoopBound

/-- A loop header as it is written: the bound is a call with some text behind it, and blanks stand
between it and the brace. -/
structure CallHeader where
  /-- The blanks behind the keyword. -/
  first : List Char
  /-- The blanks before the bound. -/
  second : List Char
  name : String
  argument : List Char
  tail : List Char
  /-- The blanks before the brace. -/
  last : List Char
  first_gap : Text.IsGap first
  second_gap : Text.IsGap second
  name_mem : name ∈ builtins
  argument_plain : Text.Plain argument
  tail_plain : Text.Plain tail
  tail_last : ∀ c ∈ tail.getLast?, Text.isBlank c = false
  last_blank : ∀ c ∈ last, Text.isBlank c = true

namespace CallHeader

variable (h : CallHeader)

def bound : List Char := call h.name [] h.argument ++ h.tail

/-- The header without its brace. -/
def text : List Char := preamble h.first h.second ++ (h.bound ++ h.last)

/-- The header as it is read. -/
def header : LoopHeader :=
  ⟨(preamble h.first h.second).length, h.bound ++ h.last,
    (preamble h.first h.second).length + (h.bound ++ h.last).length + 1⟩

theorem name_plain : Text.Plain h.name.toList ∧ 'k' ∉ h.name.toList := by
  have hnames : ∀ name ∈ builtins, ('(' ∉ name.toList ∧ ')' ∉ name.toList ∧ '{' ∉ name.toList) ∧
      'k' ∉ name.toList := by decide
  obtain ⟨⟨hopen, hclose, hbrace⟩, hkeyword⟩ := hnames h.name h.name_mem
  exact ⟨⟨hopen, hclose, hbrace⟩, hkeyword⟩

theorem bound_ne_nil : h.bound ≠ [] := by simp [bound, call]

theorem brace_not_mem : '{' ∉ h.bound ++ h.last := by
  have hlast : '{' ∉ h.last := fun hmem ↦ absurd (h.last_blank _ hmem) (by decide)
  simp [bound, call, h.name_plain.1.not_brace, h.argument_plain.not_brace,
    h.tail_plain.not_brace, hlast]

theorem head?_bound : ∀ c ∈ h.bound.head?, Text.isBlank c = false := by
  have hname : h.name = "length" ∨ h.name = "size" := by simpa [builtins] using h.name_mem
  rw [bound]
  rcases hname with hname | hname
  · rw [hname]
    exact forall_mem_head?_cons (by decide : Text.isBlank 'l' = false) _
  · rw [hname]
    exact forall_mem_head?_cons (by decide : Text.isBlank 's' = false) _

theorem head?_bound_append : ∀ c ∈ (h.bound ++ h.last).head?, Text.isBlank c = false := by
  rw [List.head?_append_of_ne_nil _ h.bound_ne_nil]
  exact h.head?_bound

theorem getLast?_bound : ∀ c ∈ h.bound.getLast?, Text.isBlank c = false := by
  intro c hc
  by_cases htail : h.tail = []
  · have hlast : h.bound.getLast? = some ')' := by
      rw [bound, htail, List.append_nil]
      exact List.getLast?_concat
    rw [hlast] at hc
    rw [← Option.some.inj hc]
    decide
  · rw [bound, List.getLast?_append_of_ne_nil _ htail] at hc
    exact h.tail_last c hc

theorem text_append_brace (after : List Char) : h.text ++ '{' :: after =
    preamble h.first h.second ++ (h.bound ++ h.last ++ '{' :: after) := by
  rw [text, List.append_assoc]

theorem find?_text_append (after : List Char) :
    find? (h.text ++ '{' :: after) = some h.header := by
  rw [text_append_brace]
  exact find?_preamble h.first_gap h.second_gap (List.append_ne_nil_of_left_ne_nil h.bound_ne_nil _)
    h.head?_bound_append h.brace_not_mem after

/-- The loop pattern occurs in a text that has the header at the start of a line, whatever its
blanks are. -/
theorem occursIn_append_text_append (before after : List Char) :
    Shape.inclusiveLoop.occursIn (before ++ '\n' :: (h.text ++ '{' :: after)) = true := by
  have hlead : (before ++ ['\n']).reverse = '\n' :: before.reverse := List.reverse_concat
  have hat := at?_preamble (before ++ ['\n']).reverse (by rw [hlead]; rfl) h.first_gap
    h.second_gap (List.append_ne_nil_of_left_ne_nil h.bound_ne_nil _) h.head?_bound_append
    h.brace_not_mem after
  rw [← text_append_brace] at hat
  have hoccurs := occursIn_of_at? hat
  rwa [List.append_assoc, List.singleton_append] at hoccurs

theorem trimmedBound_header : h.header.trimmedBound = h.bound :=
  Text.trim_append (fun _ hc ↦ absurd hc List.not_mem_nil) h.last_blank h.bound_ne_nil
    h.head?_bound h.getLast?_bound

theorem divides_text_append (after : List Char) :
    Divides (preamble h.first h.second) [] h.last after (h.text ++ '{' :: after) h.header where
  line_eq := by
    rw [trimmedBound_header, text_append_brace, List.nil_append, ← List.append_assoc]
  bound_eq := by
    rw [trimmedBound_header, List.nil_append]
    rfl
  brace_not_mem := h.brace_not_mem
  before_blank := fun _ hc ↦ absurd hc List.not_mem_nil
  after_blank := h.last_blank
  start_eq := rfl
  stop_eq := rfl
  trimmedStart_eq := by
    have hnone : (h.bound ++ h.last).takeWhile Text.isBlank = [] := by
      obtain ⟨x, rest, hx⟩ := List.exists_cons_of_ne_nil h.bound_ne_nil
      have hblank : Text.isBlank x = false := h.head?_bound x (by rw [hx]; rfl)
      rw [hx, List.cons_append, List.takeWhile_cons_of_neg (by simp [hblank])]
    rw [trimmedStart, header, hnone, List.append_nil]
    rfl

/-- On a line that starts with the header, it is the one that is judged. -/
theorem hasCritical_text_append (after : List Char) :
    HasCritical (h.text ++ '{' :: after) ↔ isCritical h.bound = true := by
  have hcritical : h.header.isCritical = isCritical h.bound := by
    rw [LoopHeader.isCritical, trimmedBound_header]
  rw [HasCritical, find?_text_append, ← hcritical]
  simp

theorem line_text_append (hc : isCritical h.bound = true) (after : List Char) :
    Repair.line (h.text ++ '{' :: after) =
      preamble h.first h.second ++ (adjust h.bound ++ h.last) ++ '{' :: after := by
  have hcritical : h.header.isCritical = true := by
    rwa [LoopHeader.isCritical, trimmedBound_header]
  rw [line_of_critical (h.find?_text_append after) (h.divides_text_append after) hcritical,
    trimmedBound_header, List.nil_append]

/-- A header with nothing around it is judged just where no line feed breaks it. -/
theorem holdsCritical_text : HoldsCritical (h.text ++ ['{']) ↔
    '\n' ∉ h.text ∧ isCritical h.bound = true := by
  have hfeed : '\n' ∉ h.text ↔ '\n' ∉ h.text ++ ['{'] := by simp
  have hblank (gap : List Char) (hgap : Text.IsGap gap) : 'k' ∉ gap ∧ '(' ∉ gap :=
    ⟨fun hmem ↦ absurd (hgap.blank _ hmem) (by decide),
      fun hmem ↦ absurd (hgap.blank _ hmem) (by decide)⟩
  have hlast : '(' ∉ h.last ∧ '{' ∉ h.last :=
    ⟨fun hmem ↦ absurd (h.last_blank _ hmem) (by decide),
      fun hmem ↦ absurd (h.last_blank _ hmem) (by decide)⟩
  have hnames := h.name_plain
  have hsplit : h.text ++ ['{'] =
      'k' :: ("arr".toList ++ h.first ++ "i=0 l7d".toList ++ h.second ++ h.name.toList) ++
        '(' :: (h.argument ++ ')' :: (h.tail ++ h.last) ++ ['{']) := by
    simp [text, preamble, bound, call]
  constructor
  · intro hholds
    have hnot : '\n' ∉ h.text ++ ['{'] := by
      rw [hsplit] at hholds ⊢
      refine not_mem_of_holdsCritical ?_ ?_ ?_ ?_ hholds
      · simp [hblank _ h.first_gap, hblank _ h.second_gap, hnames.2]
      · simp [hblank _ h.first_gap, hblank _ h.second_gap, hnames.1.not_open]
      · simp [h.argument_plain.not_open, h.tail_plain.not_open, hlast]
      · simp [h.argument_plain.not_brace, h.tail_plain.not_brace, hlast]
    exact ⟨hfeed.mpr hnot, (h.hasCritical_text_append []).mp
      ((holdsCritical_iff_hasCritical hnot).mp hholds)⟩
  · rintro ⟨hnot, hcritical⟩
    exact (holdsCritical_iff_hasCritical (hfeed.mp hnot)).mpr
      ((h.hasCritical_text_append []).mpr hcritical)

end CallHeader

end FlexGate
