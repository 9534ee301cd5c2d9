import FlexGate.LoopBound
import FlexGate.Proofs.Pattern.Occurrence
import FlexGate.Proofs.Text.Lines
import Mathlib.Data.List.Find

/-!
# Headers of inclusive loops

A loop header is an opening, from the keyword to the blanks before the bound, then the bound, then
a brace. The opening can be read in several ways; the bound cannot: where the opening ends, the
bound is all that stands before the next brace (`boundedFrom`). So the header at a position is
given by the first end of the opening from which a bound follows (`at?_eq`).

The opening reads neither a brace nor a closing parenthesis. What stands behind one of these may be
exchanged, as long as a brace follows, and the first header of the line keeps its place and has the
bound that stands there now (`find?_exchange`). Text without a brace adds no header at the end of a
line (`all_append`), and the headers behind a brace are the same whatever stands before it
(`allFrom_within`).
-/

set_option autoImplicit false
set_option relaxedAutoImplicit false

namespace FlexGate

namespace LoopHeader

open Pattern Shape
open Cursor (starts)

/-- A loop header up to its bound. -/
def opening : Pattern :=
  Pattern.sequence [keyword "karr", blanks1, optional (.group 1 counter), text "l7d", blanks1]

/-- The bound and the brace behind it. -/
def boundAndBrace : Pattern := Pattern.sequence [.group 2 (some1 (.allBut '{')), openBrace]

/-- The header that a match stands for. -/
def ofMatch? (m : Match) : Option LoopHeader :=
  (m.group? 2).map fun bound ↦ ⟨bound.start, bound.text, m.stop⟩

/-- The header that is read at a position. -/
def at? (c : Cursor) : Option LoopHeader := (inclusiveLoop.matchAt c).bind ofMatch?

/-- The headers from a position on that do not overlap, from left to right, after passing over a
number of characters already read. -/
def allFrom (skip : Nat) (behind ahead : List Char) : List LoopHeader :=
  (inclusiveLoop.findAllFrom skip behind ahead).filterMap ofMatch?

/-- All headers on a line that do not overlap, from left to right. -/
def all (line : List Char) : List LoopHeader := (inclusiveLoop.findAll line).filterMap ofMatch?

/-- The header whose bound starts at a position and is all that stands before the next brace. -/
def boundedFrom (c : Cursor) : LoopHeader :=
  let bound := c.ahead.takeWhile (· != '{')
  ⟨c.position, bound, c.position + bound.length + 1⟩

/-- Whether a brace follows a position, with something before it. -/
def boundFollows (c : Cursor) : Bool := c.ahead.head? != some '{' && c.ahead.contains '{'

theorem inclusiveLoop_consumes : inclusiveLoop.consumes = true := by decide

theorem opening_not_canRead_brace : opening.canRead '{' = false := by decide

theorem opening_not_canRead_closing : opening.canRead ')' = false := by decide

/-! ### The bound -/

theorem takeWhile_ne_brace {bound : List Char} (h : '{' ∉ bound) (after : List Char) :
    (bound ++ '{' :: after).takeWhile (· != '{') = bound := by
  rw [List.takeWhile_append_of_pos fun x hx ↦ bne_iff_ne.mpr (ne_of_mem_of_not_mem hx h)]
  simp

theorem dropWhile_ne_brace {bound : List Char} (h : '{' ∉ bound) (after : List Char) :
    (bound ++ '{' :: after).dropWhile (· != '{') = '{' :: after := by
  rw [List.dropWhile_append_of_pos fun x hx ↦ bne_iff_ne.mpr (ne_of_mem_of_not_mem hx h)]
  simp

theorem boundedFrom_eq {c : Cursor} {bound after : List Char}
    (h : c.ahead = bound ++ '{' :: after) (hbound : '{' ∉ bound) :
    boundedFrom c = ⟨c.position, bound, c.position + bound.length + 1⟩ := by
  simp only [boundedFrom, h, takeWhile_ne_brace hbound after]

theorem boundFollows_iff {c : Cursor} :
    boundFollows c = true ↔ ∃ bound after : List Char,
      c.ahead = bound ++ '{' :: after ∧ bound ≠ [] ∧ '{' ∉ bound := by
  rw [boundFollows, Bool.and_eq_true, bne_iff_ne, List.contains_iff_mem]
  constructor
  · rintro ⟨hhead, hmem⟩
    obtain ⟨bound, after, hahead, hbound⟩ := List.eq_append_cons_of_mem hmem
    refine ⟨bound, after, hahead, ?_, hbound⟩
    rintro rfl
    exact hhead (by rw [hahead]; rfl)
  · rintro ⟨bound, after, hahead, hne, hbound⟩
    obtain ⟨x, bound, rfl⟩ := List.exists_cons_of_ne_nil hne
    rw [hahead]
    refine ⟨fun h ↦ hbound ?_, by simp⟩
    rw [Option.some.inj h]
    exact List.mem_cons_self

theorem read_openBrace {α : Type} (rest : Cursor → Groups → Option α) (behind after : List Char)
    (g : Groups) :
    openBrace.read rest ⟨behind, '{' :: after⟩ g = rest ⟨'{' :: behind, after⟩ g := by
  have hblank : Text.isBlank '{' = false := by decide
  simp [openBrace, Pattern.sequence, blanks, token, Pattern.read, readMany, CharClass.has, hblank]

theorem read_openBrace_of_not_mem {α : Type} (rest : Cursor → Groups → Option α) {c : Cursor}
    (h : '{' ∉ c.ahead) (g : Groups) : openBrace.read rest c g = none := by
  simp only [openBrace, Pattern.sequence, blanks, token, Pattern.read, readMany_eq,
    List.findSome?_eq_none_iff]
  intro d hd
  obtain ⟨passed, hahead, -, -⟩ := leads_of_mem_runEnds hd
  dsimp only at hahead
  cases hd' : d.ahead with
  | nil => rfl
  | cons x ahead =>
    have hx : x ≠ '{' := by
      rintro rfl
      exact h (by rw [hahead, hd']; simp)
    simp [CharClass.has, hx]

theorem read_boundAndBrace {α : Type} (rest : Cursor → Groups → Option α) (d : Cursor)
    (g : Groups) :
    boundAndBrace.read rest d g =
      match d.ahead with
      | [] => none
      | x :: ahead =>
        if x = '{' then none
        else (runEnds (.allBut '{') (x :: d.behind) ahead).findSome? fun e ↦
          openBrace.read rest e ((2, ⟨d, e⟩) :: g) := by
  simp only [boundAndBrace, Pattern.sequence, some1, Pattern.read]
  cases d.ahead with
  | nil => rfl
  | cons x ahead => by_cases hx : x = '{' <;> simp [CharClass.has, hx, readMany_eq]

theorem read_boundAndBrace_of_not_boundFollows {α : Type} (rest : Cursor → Groups → Option α)
    {d : Cursor} (h : boundFollows d = false) (g : Groups) :
    boundAndBrace.read rest d g = none := by
  obtain ⟨behind, ahead⟩ := d
  rw [read_boundAndBrace]
  cases ahead with
  | nil => rfl
  | cons x ahead =>
    by_cases hx : x = '{'
    · simp [hx]
    · have hmem : '{' ∉ ahead := by
        intro hmem
        simp [boundFollows, hx, hmem] at h
      simp only [if_neg hx, List.findSome?_eq_none_iff]
      intro e he
      obtain ⟨passed, hahead, -, -⟩ := leads_of_mem_runEnds he
      dsimp only at hahead
      rw [hahead] at hmem
      exact read_openBrace_of_not_mem rest (fun h ↦ hmem (List.mem_append_right _ h)) _

theorem findSome?_of_head? {α β : Type} {l : List α} {f : α → Option β} {a : α} {b : β}
    (hl : l.head? = some a) (hf : f a = some b) : l.findSome? f = some b := by
  obtain ⟨tail, rfl⟩ := List.head?_eq_some_iff.mp hl
  simp [hf]

/-- Where the opening ends, the bound is read in one way only. -/
theorem map_read_boundAndBrace (c d : Cursor) (g : Groups) :
    (boundAndBrace.read (fun e h ↦ some (⟨⟨c, e⟩, h⟩ : Match)) d g).map ofMatch? =
      if boundFollows d then some (some (boundedFrom d)) else none := by
  cases h : boundFollows d with
  | false => rw [read_boundAndBrace_of_not_boundFollows _ h]; rfl
  | true =>
    obtain ⟨behind, ahead⟩ := d
    obtain ⟨bound, after, hahead, hne, hbound⟩ := boundFollows_iff.mp h
    rw [boundedFrom_eq hahead hbound]
    obtain ⟨x, bound, rfl⟩ := List.exists_cons_of_ne_nil hne
    dsimp only at hahead
    subst hahead
    obtain ⟨hx, hmem⟩ : '{' ≠ x ∧ '{' ∉ bound := by simpa using hbound
    have hrun : (runEnds (.allBut '{') (x :: behind) (bound ++ '{' :: after)).head? =
        some ⟨bound.reverse ++ x :: behind, '{' :: after⟩ := by
      rw [head?_runEnds]
      exact congrArg some (congrArg₂ Cursor.mk
        (congrArg (fun run ↦ run.reverse ++ x :: behind) (takeWhile_ne_brace hmem after))
        (dropWhile_ne_brace hmem after))
    rw [read_boundAndBrace]
    simp only [List.cons_append, if_neg (Ne.symm hx)]
    rw [findSome?_of_head? hrun (read_openBrace _ _ _ _)]
    have hlength : bound.length + (behind.length + 1) - behind.length = bound.length + 1 := by omega
    simp [ofMatch?, Match.group?, Span.start, Span.stop, Span.text, Span.length, Match.stop,
      Cursor.position, hlength]
    omega

/-! ### The header at a position -/

theorem findSome?_if {α β : Type} (l : List α) (p : α → Bool) (f : α → β) :
    (l.findSome? fun a ↦ if p a then some (f a) else none) = (l.find? p).map f := by
  induction l with
  | nil => rfl
  | cons a l ih => cases h : p a <;> simp [h, ih]

theorem map_ofMatch?_matchAt (c : Cursor) :
    (inclusiveLoop.matchAt c).map ofMatch? =
      ((opening.ends c).find? boundFollows).map fun d ↦ some (boundedFrom d) := by
  rw [← findSome?_if]
  exact map_read ofMatch? opening (fun d g ↦ map_read_boundAndBrace c d g) c []

/-- The header at a position is given by the first end of the opening from which a bound
follows. -/
theorem at?_eq (c : Cursor) : at? c = ((opening.ends c).find? boundFollows).map boundedFrom := by
  have h := map_ofMatch?_matchAt c
  rw [at?]
  cases hm : inclusiveLoop.matchAt c <;> cases hd : (opening.ends c).find? boundFollows <;>
    simp_all

/-- Each match of the loop pattern stands for a header. -/
theorem exists_of_matchAt {c : Cursor} {m : Match} (hm : inclusiveLoop.matchAt c = some m) :
    ∃ h, ofMatch? m = some h ∧ at? c = some h := by
  have hmap := map_ofMatch?_matchAt c
  rw [hm, Option.map_some] at hmap
  obtain ⟨d, -, hd⟩ := Option.map_eq_some_iff.mp hmap.symm
  exact ⟨boundedFrom d, hd.symm, by rw [at?, hm, Option.bind_some, hd]⟩

theorem stop_eq {m : Match} {h : LoopHeader} (hm : ofMatch? m = some h) : h.stop = m.stop := by
  obtain ⟨bound, -, rfl⟩ := Option.map_eq_some_iff.mp hm
  rfl

/-- What stands where a header is read. -/
theorem exists_of_at? {c : Cursor} {h : LoopHeader} (hc : at? c = some h) :
    ∃ lead after : List Char, c.text = lead ++ h.bound ++ '{' :: after ∧ h.bound ≠ [] ∧
      '{' ∉ h.bound ∧ h.start = lead.length ∧ h.stop = lead.length + h.bound.length + 1 ∧
      c.position ≤ lead.length := by
  rw [at?_eq] at hc
  obtain ⟨d, hd, rfl⟩ := Option.map_eq_some_iff.mp hc
  have hleads := leads_of_mem_ends (List.mem_of_find?_eq_some hd)
  obtain ⟨bound, after, hahead, hne, hbound⟩ := boundFollows_iff.mp (List.find?_some hd)
  rw [boundedFrom_eq hahead hbound]
  refine ⟨d.behind.reverse, after, ?_, hne, hbound, ?_, ?_, ?_⟩
  · rw [← hleads.text_eq, Cursor.text, hahead, List.append_assoc]
  · simp [Cursor.position]
  · simp [Cursor.position]
  · simpa [Cursor.position] using hleads.position_le

theorem at?_eq_none_of_not_mem {c : Cursor} (h : '{' ∉ c.ahead) : at? c = none := by
  rw [at?_eq, List.find?_eq_none.mpr, Option.map_none]
  intro d hd hfollows
  obtain ⟨bound, after, hahead, -, -⟩ := boundFollows_iff.mp hfollows
  obtain ⟨passed, hc, -, -⟩ := leads_of_mem_ends hd
  exact h (by rw [hc, hahead]; simp)

/-! ### The first header of a line -/

theorem find?_eq_bind (line : List Char) :
    find? line = (inclusiveLoop.find? line).bind ofMatch? := by
  rw [find?]
  cases inclusiveLoop.find? line with
  | none => rfl
  | some m => cases hm : m.group? 2 <;> simp [ofMatch?, hm]

theorem find?_eq (line : List Char) : find? line = (starts [] line).findSome? at? := by
  have hbind (l : List Cursor) :
      (l.findSome? inclusiveLoop.matchAt).bind ofMatch? = l.findSome? at? := by
    induction l with
    | nil => rfl
    | cons c l ih =>
      rw [List.findSome?_cons, List.findSome?_cons]
      cases hm : inclusiveLoop.matchAt c with
      | none => simpa [at?, hm] using ih
      | some m =>
        obtain ⟨h, hof, hat⟩ := exists_of_matchAt hm
        rw [hat, Option.bind_some, hof]
  rw [find?_eq_bind, ← hbind, ← findFrom_eq]
  rfl

/-- The header that is made of a line's text at a position. -/
def boundedAt (line : List Char) (start : Nat) : LoopHeader :=
  boundedFrom ⟨(line.take start).reverse, line.drop start⟩

theorem boundedAt_append {bound : List Char} (hbound : '{' ∉ bound) (lead rest : List Char) :
    boundedAt (lead ++ bound ++ '{' :: rest) lead.length =
      ⟨lead.length, bound, lead.length + bound.length + 1⟩ := by
  rw [boundedAt, List.append_assoc, List.take_left, List.drop_left, boundedFrom_eq rfl hbound]
  simp [Cursor.position]

theorem boundedFrom_within {d : Cursor} {text : List Char} (h : d.text = text)
    (after : List Char) :
    boundedFrom (d.within [] after) = boundedAt (text ++ after) d.position := by
  have htake : (text ++ after).take d.position = d.behind.reverse := by
    rw [← h, Cursor.text, Cursor.position, List.append_assoc, ← List.length_reverse,
      List.take_left]
  have hdrop : (text ++ after).drop d.position = d.ahead ++ after := by
    rw [← h, Cursor.text, Cursor.position, List.append_assoc, ← List.length_reverse,
      List.drop_left]
  rw [boundedAt, htake, hdrop, List.reverse_reverse]
  simp [Cursor.within]

/-- Where the opening of the first header ends, as far as it can be told from text that is followed
by a brace. -/
def boundStart? (text : List Char) : Option Cursor :=
  (starts [] text).findSome? fun c ↦ (opening.ends c).find? fun d ↦ d.ahead.head? != some '{'

/-- Behind a character that the opening cannot read, any text may stand. -/
theorem at?_within {c : Cursor} {x : Char} {after : List Char} (hx : opening.canRead x = false)
    (hc : x ∈ c.ahead) (hbrace : '{' ∈ c.ahead ++ after) :
    at? (c.within [] after) =
      ((opening.ends c).find? fun d ↦ d.ahead.head? != some '{').map fun d ↦
        boundedFrom (d.within [] after) := by
  have hends : opening.ends (c.within [] after) = (opening.ends c).map (Cursor.within [] after) :=
    ends_within ⟨.inl rfl, .inr ⟨x, hc, hx⟩⟩
  have hfollows : ∀ d ∈ opening.ends c,
      boundFollows (d.within [] after) = (d.ahead.head? != some '{') := by
    intro d hd
    have hleads := leads_of_mem_ends hd
    have hmem : (d.ahead ++ after).contains '{' = true := by
      rw [List.contains_iff_mem, List.mem_append]
      exact (List.mem_append.mp hbrace).imp (hleads.mem_ahead opening_not_canRead_brace) id
    have hhead : (d.ahead ++ after).head? = d.ahead.head? := by
      obtain ⟨y, ahead, hahead⟩ :=
        List.exists_cons_of_ne_nil (List.ne_nil_of_mem (hleads.mem_ahead hx hc))
      rw [hahead]
      rfl
    simp only [boundFollows, Cursor.within, hmem, hhead, Bool.and_true]
  rw [at?_eq, hends, List.find?_map, Option.map_map]
  exact congrArg (Option.map _) (List.find?_congr hfollows)

theorem find?_append_cons {before after : List Char} {x : Char} (hx : opening.canRead x = false)
    (hbrace : '{' ∈ x :: after) :
    find? (before ++ x :: after) =
      ((boundStart? (before ++ [x])).map fun d ↦ boundedFrom (d.within [] after)).or
        ((starts (x :: before.reverse) after).findSome? at?) := by
  have hsplit : before ++ x :: after = before ++ [x] ++ after := by
    rw [List.append_assoc, List.singleton_append]
  have hfirst : ∀ c ∈ starts [] (before ++ [x]), (at? ∘ Cursor.within [] after) c =
      ((opening.ends c).find? fun d ↦ d.ahead.head? != some '{').map fun d ↦
        boundedFrom (d.within [] after) := by
    intro c hc
    have hmem : x ∈ c.ahead := Cursor.mem_ahead_of_mem_starts hc
    refine at?_within hx hmem (List.mem_append.mpr ?_)
    rcases List.mem_cons.mp hbrace with rfl | h
    · exact .inl hmem
    · exact .inr h
  rw [find?_eq, hsplit, Cursor.starts_append, List.findSome?_append, List.findSome?_map,
    findSome?_congr hfirst, boundStart?, List.map_findSome?]
  simp [Function.comp_def]

theorem text_of_boundStart? {text : List Char} {d : Cursor} (h : boundStart? text = some d) :
    d.text = text := by
  obtain ⟨c, hc, hd⟩ := List.exists_of_findSome?_eq_some h
  obtain ⟨passed, ha, hb, -⟩ := Cursor.exists_of_mem_starts hc
  rw [(leads_of_mem_ends (List.mem_of_find?_eq_some hd)).text_eq]
  simp [Cursor.text, ha, hb]

theorem le_start_of_findSome?_starts {behind ahead : List Char} {h : LoopHeader}
    (hh : (starts behind ahead).findSome? at? = some h) : behind.length ≤ h.start := by
  obtain ⟨c, hc, hat⟩ := List.exists_of_findSome?_eq_some hh
  obtain ⟨passed, -, hb, -⟩ := Cursor.exists_of_mem_starts hc
  obtain ⟨lead, -, -, -, -, hstart, -, hle⟩ := exists_of_at? hat
  rw [hstart]
  refine Nat.le_trans ?_ hle
  simp [Cursor.position, hb]

/-- Where a text has its first header before or at a character that the opening cannot read, any
text with a brace may stand behind that character, and the bound is what stands before the brace. -/
theorem find?_exchange {before after : List Char} {x : Char} {h : LoopHeader}
    (hx : opening.canRead x = false) (hbrace : '{' ∈ x :: after)
    (hh : find? (before ++ x :: after) = some h) (hstart : h.start ≤ before.length)
    (after' : List Char) (hbrace' : '{' ∈ x :: after') :
    find? (before ++ x :: after') = some (boundedAt (before ++ x :: after') h.start) := by
  rw [find?_append_cons hx hbrace] at hh
  rw [find?_append_cons hx hbrace']
  cases hd : boundStart? (before ++ [x]) with
  | none =>
    -- Then the header would start behind `x`.
    rw [hd, Option.map_none, Option.none_or] at hh
    have hle := le_start_of_findSome?_starts hh
    simp only [List.length_cons, List.length_reverse] at hle
    omega
  | some d =>
    rw [hd, Option.map_some, Option.some_or, Option.some.injEq] at hh
    have htext := text_of_boundStart? hd
    have hposition : d.position = h.start := by
      rw [← hh]
      simp [boundedFrom, Cursor.within, Cursor.position]
    rw [Option.map_some, Option.some_or, boundedFrom_within htext, hposition, List.append_assoc,
      List.singleton_append]

theorem exists_of_find? {line : List Char} {h : LoopHeader} (hh : find? line = some h) :
    ∃ lead after : List Char, line = lead ++ h.bound ++ '{' :: after ∧ h.bound ≠ [] ∧
      '{' ∉ h.bound ∧ h.start = lead.length ∧ h.stop = lead.length + h.bound.length + 1 := by
  rw [find?_eq] at hh
  obtain ⟨c, hc, hat⟩ := List.exists_of_findSome?_eq_some hh
  obtain ⟨passed, ha, hb, -⟩ := Cursor.exists_of_mem_starts hc
  obtain ⟨lead, after, htext, hne, hbound, hstart, hstop, -⟩ := exists_of_at? hat
  refine ⟨lead, after, ?_, hne, hbound, hstart, hstop⟩
  rw [← htext, Cursor.text, ha, hb]
  simp

/-! ### All headers of a line -/

theorem head?_all (line : List Char) : (all line).head? = find? line := by
  rw [all, find?_eq_bind, ← head?_findAll]
  cases hm : inclusiveLoop.findAll line with
  | nil => rfl
  | cons m rest =>
    have hmem : m ∈ inclusiveLoop.findAll line := hm ▸ List.mem_cons_self
    obtain ⟨h, hof, -⟩ := exists_of_matchAt (exists_matchAt_of_mem_findAllFrom hmem)
    simp [hof]

@[simp] theorem allFrom_nil (skip : Nat) (behind : List Char) : allFrom skip behind [] = [] := by
  cases skip <;> rfl

theorem allFrom_of_at?_eq_none {behind ahead : List Char} {x : Char}
    (h : at? ⟨behind, x :: ahead⟩ = none) :
    allFrom 0 behind (x :: ahead) = allFrom 0 (x :: behind) ahead := by
  cases hm : inclusiveLoop.matchAt ⟨behind, x :: ahead⟩ with
  | none => simp only [allFrom, findAllFrom, hm]
  | some m =>
    obtain ⟨h', -, hat⟩ := exists_of_matchAt hm
    rw [h] at hat
    cases hat

theorem allFrom_of_at?_eq_some {behind ahead : List Char} {x : Char} {h : LoopHeader}
    (hat : at? ⟨behind, x :: ahead⟩ = some h) :
    allFrom 0 behind (x :: ahead) =
      h :: allFrom (h.stop - behind.length - 1) (x :: behind) ahead := by
  obtain ⟨m, hm, hof⟩ := Option.bind_eq_some_iff.mp hat
  have hlength : m.length = h.stop - behind.length := by
    rw [stop_eq hof, Match.length, Span.length, Span.start, (span_of_matchAt hm).1]
    rfl
  simp only [allFrom, findAllFrom, hm, List.filterMap_cons_some hof, hlength]

/-- A header that stands some characters further on. -/
def shift (n : Nat) (h : LoopHeader) : LoopHeader := ⟨h.start + n, h.bound, h.stop + n⟩

@[simp] theorem trimmedBound_shift (n : Nat) (h : LoopHeader) :
    (h.shift n).trimmedBound = h.trimmedBound := rfl

theorem boundedFrom_within_behind (before : List Char) (d : Cursor) :
    boundedFrom (d.within before []) = shift before.length (boundedFrom d) := by
  simp only [boundedFrom, shift, Cursor.within, Cursor.position, List.append_nil,
    List.length_append, LoopHeader.mk.injEq, true_and]
  omega

/-- The header at a position behind some character does not depend on the text before that. -/
theorem at?_within_behind (c : Cursor) (hc : c.behind ≠ []) (before : List Char) :
    at? (c.within before []) = (at? c).map (shift before.length) := by
  have hends : opening.ends (c.within before []) =
      (opening.ends c).map (Cursor.within before []) := ends_within ⟨.inr hc, .inl rfl⟩
  have hfollows : boundFollows ∘ Cursor.within before [] = boundFollows := by
    funext d
    simp [boundFollows, Cursor.within]
  rw [at?_eq, at?_eq, hends, List.find?_map, hfollows, Option.map_map, Option.map_map]
  congr 1
  exact funext (boundedFrom_within_behind before)

theorem allFrom_within {behind : List Char} (hb : behind ≠ []) (skip : Nat)
    (before ahead : List Char) :
    allFrom skip (behind ++ before) ahead =
      (allFrom skip behind ahead).map (shift before.length) := by
  induction ahead generalizing skip behind with
  | nil => simp
  | cons x ahead ih =>
    cases skip with
    | succ skip => exact ih (List.cons_ne_nil x behind) skip
    | zero =>
      have hat : at? ⟨behind ++ before, x :: ahead⟩ =
          (at? ⟨behind, x :: ahead⟩).map (shift before.length) := by
        simpa [Cursor.within] using at?_within_behind ⟨behind, x :: ahead⟩ hb before
      cases h : at? ⟨behind, x :: ahead⟩ with
      | none =>
        rw [h, Option.map_none] at hat
        rw [allFrom_of_at?_eq_none hat, allFrom_of_at?_eq_none h]
        exact ih (List.cons_ne_nil x behind) 0
      | some header =>
        rw [h, Option.map_some] at hat
        have hskip : (shift before.length header).stop - (behind ++ before).length - 1 =
            header.stop - behind.length - 1 := by
          simp only [shift, List.length_append]
          omega
        rw [allFrom_of_at?_eq_some hat, allFrom_of_at?_eq_some h, hskip, List.map_cons]
        exact congrArg _ (ih (List.cons_ne_nil x behind) _)

/-- The headers of a line are the first one and those behind its brace, which do not depend on what
stands before the brace. -/
theorem all_eq_cons {before after : List Char} {h : LoopHeader}
    (hh : find? (before ++ '{' :: after) = some h) (hstop : h.stop = before.length + 1) :
    all (before ++ '{' :: after) =
      h :: (allFrom 0 ['{'] after).map (shift before.length) := by
  rw [find?_eq_bind] at hh
  obtain ⟨m, hm, hof⟩ := Option.bind_eq_some_iff.mp hh
  obtain ⟨htext, hlast⟩ := exists_of_find?_eq_some hm
  have hlasttext : m.span.last.text = before ++ ['{'] ++ after := by
    rw [(leads_of_mem_ends hlast).text_eq, htext, List.append_assoc, List.singleton_append]
  have hlength : m.span.last.behind.reverse.length = (before ++ ['{']).length := by
    have hstop' : m.stop = before.length + 1 := (stop_eq hof).symm.trans hstop
    simpa [Match.stop, Span.stop, Cursor.position] using hstop'
  obtain ⟨hbehind, hahead⟩ := List.append_inj hlasttext hlength
  have hsplit : m.span.last.behind = ['{'] ++ before.reverse := by
    rw [← List.reverse_reverse m.span.last.behind, hbehind, List.reverse_append]
    rfl
  rw [all, findAll_eq_cons inclusiveLoop_consumes hm, List.filterMap_cons_some hof, hsplit, hahead,
    ← List.length_reverse, ← allFrom_within (List.cons_ne_nil '{' [])]
  rfl

/-! ### Text behind the last brace -/

theorem boundedFrom_within_ahead {d : Cursor} (h : '{' ∈ d.ahead) (tail : List Char) :
    boundedFrom (d.within [] tail) = boundedFrom d := by
  obtain ⟨bound, after, hahead, hbound⟩ := List.eq_append_cons_of_mem h
  have hwithin : (d.within [] tail).ahead = bound ++ '{' :: (after ++ tail) := by
    rw [Cursor.within, hahead, List.append_assoc, List.cons_append]
  rw [boundedFrom_eq hwithin hbound, boundedFrom_eq hahead hbound]
  simp [Cursor.within, Cursor.position]

/-- Text without a brace behind a line does not change what is read at a position of the line. -/
theorem at?_within_ahead {tail : List Char} (htail : '{' ∉ tail) (c : Cursor) :
    at? (c.within [] tail) = at? c := by
  by_cases hmem : '{' ∈ c.ahead
  · have htail' := at?_within opening_not_canRead_brace hmem (List.mem_append_left tail hmem)
    have hnil := at?_within opening_not_canRead_brace hmem (List.mem_append_left [] hmem)
    rw [Cursor.within_nil] at hnil
    rw [htail', hnil]
    cases hd : (opening.ends c).find? fun d ↦ d.ahead.head? != some '{' with
    | none => rfl
    | some d =>
      have hahead : '{' ∈ d.ahead := (leads_of_mem_ends
        (List.mem_of_find?_eq_some hd)).mem_ahead opening_not_canRead_brace hmem
      rw [Option.map_some, Option.map_some, boundedFrom_within_ahead hahead, Cursor.within_nil]
  · rw [at?_eq_none_of_not_mem hmem, at?_eq_none_of_not_mem]
    exact fun h ↦ (List.mem_append.mp h).elim hmem htail

/-- Text without a brace behind a line adds no header to it. -/
theorem allFrom_append {tail : List Char} (htail : '{' ∉ tail) (skip : Nat)
    (behind line : List Char) : allFrom skip behind (line ++ tail) = allFrom skip behind line := by
  induction line generalizing skip behind with
  | nil =>
    rw [List.nil_append, allFrom_nil]
    induction tail generalizing skip behind with
    | nil => exact allFrom_nil skip behind
    | cons x tail ih =>
      have htail' : '{' ∉ tail := fun h ↦ htail (List.mem_cons_of_mem x h)
      cases skip with
      | succ skip => exact ih htail' skip (x :: behind)
      | zero =>
        rw [allFrom_of_at?_eq_none (at?_eq_none_of_not_mem htail)]
        exact ih htail' 0 (x :: behind)
  | cons x line ih =>
    cases skip with
    | succ skip => exact ih skip (x :: behind)
    | zero =>
      have hat : at? ⟨behind, x :: (line ++ tail)⟩ = at? ⟨behind, x :: line⟩ := by
        simpa [Cursor.within] using at?_within_ahead htail ⟨behind, x :: line⟩
      rw [List.cons_append]
      cases h : at? ⟨behind, x :: line⟩ with
      | none =>
        rw [allFrom_of_at?_eq_none (hat.trans h), allFrom_of_at?_eq_none h]
        exact ih 0 (x :: behind)
      | some header =>
        rw [allFrom_of_at?_eq_some (hat.trans h), allFrom_of_at?_eq_some h]
        exact congrArg _ (ih _ (x :: behind))

theorem all_append {tail : List Char} (htail : '{' ∉ tail) (line : List Char) :
    all (line ++ tail) = all line := allFrom_append htail 0 [] line

/-- The carriage return that ends a line is part of no header. -/
theorem all_withoutReturn (line : List Char) : all (Text.withoutReturn line) = all line := by
  rcases Text.exists_concat_or_withoutReturn_eq line with ⟨front, rfl⟩ | h
  · rw [Text.withoutReturn_concat, all_append (by decide)]
  · rw [h]

theorem find?_withoutReturn (line : List Char) : find? (Text.withoutReturn line) = find? line := by
  rw [← head?_all, all_withoutReturn, head?_all]

end LoopHeader

end FlexGate
