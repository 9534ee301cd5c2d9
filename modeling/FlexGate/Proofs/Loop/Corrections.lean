import FlexGate.Proofs.Loop.Mending
import FlexGate.Proofs.Pattern.Scan

/-!
# Where corrections stand on a line

Mending a line puts a correction behind the closing parenthesis of each call in a critical bound.
On the line these are `places`, and the mended line is the line with a correction at each of them
(`line_eq_insertBehind`).

A correction is made of blanks, a sign and a one. So it adds no brace, no semicolon and no operator
(`count_line`), and since it stands behind a parenthesis it comes between no operator and its zero
(`occursIn_byZero_line`), nor between a word and its index. But its one is a word: where an index
stands behind the call, the mended line accesses an element by index that the line did not access
(`occursIn_indexedAccess_line`). A carriage return at the end of the line is out of the way of all
this, so the lines of a mended program are its lines, mended (`lines_source`).
-/

set_option autoImplicit false
set_option relaxedAutoImplicit false

namespace FlexGate

namespace LoopBound

open Pattern Shape

/-! ### Marks behind characters -/

section Marks

variable {mark : List Char} {positions : List Nat} {n : Nat} {text : List Char}

/-- Puts a mark behind each character that ends at one of the positions. The number is the position
of the first character. -/
def insertBehind (mark : List Char) (positions : List Nat) : Nat → List Char → List Char
  | _, [] => []
  | n, c :: rest =>
    c :: ((if n + 1 ∈ positions then mark else []) ++ insertBehind mark positions (n + 1) rest)

theorem insertAt_eq_append (mark : List Char) (positions : List Nat) (n : Nat)
    (text : List Char) :
    insertAt mark positions n text =
      (if n ∈ positions then mark else []) ++ insertBehind mark positions n text := by
  induction text generalizing n with
  | nil => rw [insertAt, insertBehind, List.append_nil]
  | cons c text ih => rw [insertAt, insertBehind, ih]

theorem insertAt_of_lt (h : ∀ k ∈ positions, k < n) : insertAt mark positions n text = text := by
  induction text generalizing n with
  | nil =>
    rw [insertAt, if_neg fun hmem ↦ Nat.lt_irrefl n (h n hmem)]
  | cons c text ih =>
    rw [insertAt, if_neg fun hmem ↦ Nat.lt_irrefl n (h n hmem), List.nil_append,
      ih fun k hk ↦ Nat.lt_succ_of_lt (h k hk)]

/-- Behind the last of the positions nothing is put in. -/
theorem insertAt_append_of_le {first : List Char} (h : ∀ k ∈ positions, k ≤ n + first.length)
    (second : List Char) :
    insertAt mark positions n (first ++ second) = insertAt mark positions n first ++ second := by
  induction first generalizing n with
  | nil =>
    cases second with
    | nil => rw [List.append_nil, List.append_nil]
    | cons c second =>
      have hlt : ∀ k ∈ positions, k < n + 1 := fun k hk ↦ Nat.lt_succ_of_le (h k hk)
      rw [List.nil_append, insertAt, insertAt, insertAt_of_lt hlt]
  | cons c first ih =>
    have hlength : n + (c :: first).length = n + 1 + first.length := by
      rw [List.length_cons]
      omega
    rw [hlength] at h
    rw [List.cons_append, insertAt, insertAt, ih h, List.append_assoc, List.cons_append]

/-- Marks move with the text. -/
theorem insertAt_map_add (a n : Nat) (text : List Char) :
    insertAt mark (positions.map (a + ·)) (a + n) text = insertAt mark positions n text := by
  have hmem (k : Nat) : a + k ∈ positions.map (a + ·) ↔ k ∈ positions := by
    simp
  induction text generalizing n with
  | nil => simp only [insertAt, hmem]
  | cons c text ih =>
    simp only [insertAt, hmem]
    rw [Nat.add_assoc, ih]

theorem count_insertBehind {c : Char} (hc : c ∉ mark) (n : Nat) (text : List Char) :
    (insertBehind mark positions n text).count c = text.count c := by
  have hmark : mark.count c = 0 := List.count_eq_zero.mpr hc
  induction text generalizing n with
  | nil => rfl
  | cons d text ih =>
    rw [insertBehind, List.count_cons, List.count_cons, List.count_append, ih]
    split <;> simp [hmark]

theorem insertBehind_append (mark : List Char) (positions : List Nat) (n : Nat)
    (first second : List Char) :
    insertBehind mark positions n (first ++ second) =
      insertBehind mark positions n first ++
        insertBehind mark positions (n + first.length) second := by
  induction first generalizing n with
  | nil => rfl
  | cons c first ih =>
    have hlength : n + (c :: first).length = n + 1 + first.length := by
      rw [List.length_cons]
      omega
    rw [List.cons_append, insertBehind, insertBehind, ih, hlength, List.cons_append,
      List.append_assoc]

/-- Where no character ends at one of the positions, nothing is put in. -/
theorem insertBehind_eq_self (h : ∀ k ∈ positions, n < k → n + text.length < k) :
    insertBehind mark positions n text = text := by
  induction text generalizing n with
  | nil => rfl
  | cons c text ih =>
    have hn : n + 1 ∉ positions := by
      intro hmem
      have hlt := h _ hmem (Nat.lt_succ_self n)
      rw [List.length_cons] at hlt
      omega
    have htext : insertBehind mark positions (n + 1) text = text := by
      refine ih fun k hk hlt ↦ ?_
      have hlater := h k hk (Nat.lt_of_succ_lt hlt)
      rw [List.length_cons] at hlater
      omega
    rw [insertBehind, if_neg hn, htext, List.nil_append]

/-- Every position in the text is one where a closing parenthesis ends. -/
def BehindParens (positions : List Nat) : Nat → List Char → Prop
  | _, [] => True
  | n, c :: rest => (n + 1 ∈ positions → c = ')') ∧ BehindParens positions (n + 1) rest

theorem behindParens_of_forall (h : ∀ k ∈ positions, n < k →
    ∃ before after, text = before ++ ')' :: after ∧ k = n + before.length + 1) :
    BehindParens positions n text := by
  induction text generalizing n with
  | nil => trivial
  | cons c text ih =>
    refine ⟨fun hmem ↦ ?_, ih fun k hk hlt ↦ ?_⟩
    · obtain ⟨before, after, heq, hk⟩ := h _ hmem (Nat.lt_succ_self n)
      have hnil : before = [] := List.length_eq_zero_iff.mp (by omega)
      subst hnil
      exact (List.cons.inj heq).1
    · obtain ⟨before, after, heq, hk⟩ := h k hk (Nat.lt_of_succ_lt hlt)
      cases before with
      | nil => simp only [List.length_nil] at hk; omega
      | cons d before =>
        refine ⟨before, after, (List.cons.inj heq).2, ?_⟩
        rw [hk, List.length_cons]
        omega

theorem insertBehind_cons_of_ne {c : Char} {rest : List Char}
    (h : BehindParens positions n (c :: rest)) (hc : c ≠ ')') :
    insertBehind mark positions n (c :: rest) = c :: insertBehind mark positions (n + 1) rest := by
  rw [insertBehind, if_neg fun hmem ↦ hc (h.1 hmem), List.nil_append]

theorem head?_insertBehind : (insertBehind mark positions n text).head? = text.head? := by
  cases text <;> rfl

/-- Marks behind parentheses come behind the blanks at the start of a text. -/
theorem exists_dropWhile_insertBehind (mark : List Char) (h : BehindParens positions n text) :
    ∃ k, BehindParens positions k (text.dropWhile Text.isBlank) ∧
      (insertBehind mark positions n text).dropWhile Text.isBlank =
        insertBehind mark positions k (text.dropWhile Text.isBlank) := by
  induction text generalizing n with
  | nil => exact ⟨n, trivial, rfl⟩
  | cons c text ih =>
    cases hblank : Text.isBlank c with
    | true =>
      have hc : c ≠ ')' := by
        rintro rfl
        exact absurd hblank (by decide)
      rw [insertBehind_cons_of_ne h hc, List.dropWhile_cons_of_pos hblank,
        List.dropWhile_cons_of_pos hblank]
      exact ih h.2
    | false =>
      refine ⟨n, ?_, ?_⟩
      · rw [List.dropWhile_cons_of_neg (by simp [hblank])]
        exact h
      · rw [insertBehind, List.dropWhile_cons_of_neg (by simp [hblank]),
          List.dropWhile_cons_of_neg (by simp [hblank]), insertBehind]

theorem startsIndex_insertBehind (hmark : ']' ∉ mark) (h : BehindParens positions n text) :
    Text.startsIndex (insertBehind mark positions n text) = Text.startsIndex text := by
  obtain ⟨k, hk, hdrop⟩ := exists_dropWhile_insertBehind mark h
  rw [Text.startsIndex, Text.startsIndex, hdrop]
  cases hrest : text.dropWhile Text.isBlank with
  | nil => rfl
  | cons c rest =>
    rw [hrest] at hk
    by_cases hc : c = '['
    · have hcontains (rest : List Char) (k : Nat) :
          (insertBehind mark positions k rest).contains ']' = rest.contains ']' := by
        rw [Bool.eq_iff_iff, List.contains_iff_mem, List.contains_iff_mem, ← List.count_pos_iff,
          ← List.count_pos_iff, count_insertBehind hmark]
      have hne : c ≠ ')' := by
        rw [hc]
        decide
      rw [insertBehind_cons_of_ne hk hne]
      simp only [head?_insertBehind, hcontains]
    · have hfalse : (c == '[') = false := beq_eq_false_iff_ne.mpr hc
      simp [insertBehind, hfalse]

theorem startsZero_insertBehind (h : BehindParens positions n text) :
    Text.startsZero (insertBehind mark positions n text) = Text.startsZero text := by
  obtain ⟨k, hk, hdrop⟩ := exists_dropWhile_insertBehind mark h
  rw [Text.startsZero, Text.startsZero, hdrop]
  cases hrest : text.dropWhile Text.isBlank with
  | nil => rfl
  | cons c rest =>
    rw [hrest] at hk
    by_cases hc : c = '0'
    · have hne : c ≠ ')' := by
        rw [hc]
        decide
      rw [insertBehind_cons_of_ne hk hne]
      cases rest <;> rfl
    · have hfalse : (c == '0') = false := beq_eq_false_iff_ne.mpr hc
      simp [insertBehind, hfalse]

end Marks

/-! ### Corrections -/

section Correction

variable {positions : List Nat} {n : Nat} {text : List Char} {first : Char → Bool}
  {behind : List Char → Bool}

theorem followed_correction (hblank : first ' ' = false) (hminus : first '-' = false) :
    Text.followed first behind (correction ++ text) =
      (first '1' && behind text || Text.followed first behind text) := by
  simp [correction, Text.followed, hblank, hminus]

/-- What a scan finds among corrections that stand behind parentheses: what it found before, and
what stands behind a correction, if it looks for the one that the correction ends with. -/
theorem followed_insertBehind (hblank : first ' ' = false) (hminus : first '-' = false)
    (hparen : first ')' = false) (hnil : behind [] = false)
    (hbehind : ∀ n text, BehindParens positions n text →
      behind (insertBehind correction positions n text) = behind text)
    (h : BehindParens positions n text) :
    Text.followed first behind (insertBehind correction positions n text) = true ↔
      Text.followed first behind text = true ∨
        (first '1' = true ∧ ∃ p ∈ positions, n < p ∧ behind (text.drop (p - n)) = true) := by
  induction text generalizing n with
  | nil => simp [insertBehind, Text.followed, hnil]
  | cons c text ih =>
    have hlater (p : Nat) (hp : n + 1 < p) :
        (c :: text).drop (p - n) = text.drop (p - (n + 1)) := by
      rw [show p - n = p - (n + 1) + 1 by omega, List.drop_succ_cons]
    have hnow : (c :: text).drop (n + 1 - n) = text := by
      rw [Nat.add_sub_cancel_left, List.drop_one, List.tail_cons]
    have hsplit : (∃ p ∈ positions, n < p ∧ behind ((c :: text).drop (p - n)) = true) ↔
        (n + 1 ∈ positions ∧ behind text = true) ∨
          ∃ p ∈ positions, n + 1 < p ∧ behind (text.drop (p - (n + 1))) = true := by
      constructor
      · rintro ⟨p, hp, hlt, hfound⟩
        rcases Nat.eq_or_lt_of_le (Nat.succ_le_of_lt hlt) with rfl | hlt
        · exact .inl ⟨hp, hnow ▸ hfound⟩
        · exact .inr ⟨p, hp, hlt, hlater p hlt ▸ hfound⟩
      · rintro (⟨hp, hfound⟩ | ⟨p, hp, hlt, hfound⟩)
        · exact ⟨n + 1, hp, Nat.lt_succ_self n, hnow.symm ▸ hfound⟩
        · exact ⟨p, hp, Nat.lt_of_succ_lt hlt, (hlater p hlt).symm ▸ hfound⟩
    rw [hsplit, insertBehind, Text.followed, Text.followed]
    by_cases hmem : n + 1 ∈ positions
    · obtain rfl := h.1 hmem
      rw [if_pos hmem, hparen, Bool.false_and, Bool.false_or, Bool.false_and, Bool.false_or,
        followed_correction hblank hminus, hbehind _ _ h.2, Bool.or_eq_true, Bool.and_eq_true,
        ih h.2]
      simp only [hmem, true_and, and_or_left]
      rw [or_left_comm]
    · rw [if_neg hmem, List.nil_append, hbehind _ _ h.2, Bool.or_eq_true, Bool.or_eq_true, ih h.2]
      simp only [hmem, false_and, false_or]
      rw [or_assoc]

end Correction

/-! ### The calls of a bound -/

/-- A call ends where a closing parenthesis of the bound ends. -/
theorem exists_of_mem_callEnds {bound : List Char} {k : Nat} (h : k ∈ callEnds bound) :
    ∃ before after, bound = before ++ ')' :: after ∧ k = before.length + 1 := by
  obtain ⟨m, hm, rfl⟩ := List.mem_map.mp h
  have hlast := last_mem_ends (exists_matchAt_of_mem_findAllFrom hm)
  obtain ⟨behind, hbehind⟩ := exists_behind_of_closesWith lengthCall_closesWith hlast
  refine ⟨behind.reverse, m.span.last.ahead, ?_, ?_⟩
  · have htext : m.span.first.text = bound := text_of_mem_findAllFrom hm
    rw [← htext, ← (leads_of_mem_ends hlast).text_eq, Cursor.text, hbehind]
    simp
  · simp [Match.stop, Span.stop, Cursor.position, hbehind]

/-- A bound that was mended still gives a number of elements, less one. -/
theorem callsLength_adjust {bound : List Char} (h : callsLength bound = true) :
    callsLength (adjust bound) = true := by
  obtain ⟨m, hm⟩ := Option.isSome_iff_exists.mp h
  obtain ⟨before, after', hbehind, -, hadjust⟩ := adjust_of_find? hm
  have hoccurs := occursIn_of_find? lengthCall_closesWith hm (correction ++ after')
  rw [hbehind] at hoccurs
  rw [callsLength, hadjust]
  simpa using hoccurs

end LoopBound

namespace Repair

open LoopHeader LoopBound Shape

variable {line : List Char}

/-! ### The places on a line -/

/-- The positions on a line behind which mending puts a correction. -/
def places (line : List Char) : List Nat :=
  match find? line with
  | none => []
  | some h => if h.isCritical then (callEnds h.trimmedBound).map (h.trimmedStart + ·) else []

theorem places_of_critical {h : LoopHeader} (hh : find? line = some h)
    (hc : h.isCritical = true) :
    places line = (callEnds h.trimmedBound).map (h.trimmedStart + ·) := by
  simp [places, hh, hc]

theorem mem_places_iff {p : Nat} :
    p ∈ places line ↔ ∃ h, find? line = some h ∧ h.isCritical = true ∧
      ∃ k ∈ callEnds h.trimmedBound, h.trimmedStart + k = p := by
  cases hh : find? line with
  | none => simp [places, hh]
  | some h => cases hc : h.isCritical <;> simp [places, hh, hc]

/-- Each place is behind a closing parenthesis. -/
theorem exists_of_mem_places {p : Nat} (hp : p ∈ places line) :
    ∃ before after, line = before ++ ')' :: after ∧ p = before.length + 1 := by
  obtain ⟨h, hh, -, k, hk, rfl⟩ := mem_places_iff.mp hp
  obtain ⟨lead, before, after, rest, hd⟩ := exists_divides hh
  obtain ⟨first, second, hbound, rfl⟩ := exists_of_mem_callEnds hk
  refine ⟨lead ++ before ++ first, second ++ after ++ '{' :: rest, ?_, ?_⟩
  · rw [hd.line_eq, hbound]
    simp
  · simp only [hd.trimmedStart_eq, List.length_append]
    omega

theorem behindParens_places (line : List Char) : BehindParens (places line) 0 line := by
  refine behindParens_of_forall fun p hp _ ↦ ?_
  obtain ⟨before, after, hline, hp⟩ := exists_of_mem_places hp
  exact ⟨before, after, hline, by omega⟩

/-- A mended line is the line with corrections at its places. -/
theorem line_eq_insertAt (line : List Char) :
    Repair.line line = insertAt correction (places line) 0 line := by
  cases hh : find? line with
  | none => simp [line_of_no_header hh, places, hh]
  | some h =>
    cases hc : h.isCritical with
    | false => simp [line_of_not_critical hh hc, places, hh, hc]
    | true =>
      obtain ⟨lead, before, after, rest, hd⟩ := exists_divides hh
      have hstart : 0 + (lead ++ before).length = h.trimmedStart := by
        rw [hd.trimmedStart_eq, Nat.zero_add]
      have hle : ∀ p ∈ places line, 0 + (lead ++ before).length ≤ p := by
        intro p hp
        rw [places_of_critical hh hc] at hp
        obtain ⟨k, -, rfl⟩ := List.mem_map.mp hp
        rw [hstart]
        exact Nat.le_add_right _ k
      have hge : ∀ p ∈ places line, p ≤ h.trimmedStart + h.trimmedBound.length := by
        intro p hp
        rw [places_of_critical hh hc] at hp
        obtain ⟨k, hk, rfl⟩ := List.mem_map.mp hp
        obtain ⟨first, second, hbound, rfl⟩ := exists_of_mem_callEnds hk
        rw [hbound, List.length_append, List.length_cons]
        omega
      have hsplit : line = lead ++ before ++ (h.trimmedBound ++ (after ++ '{' :: rest)) := by
        rw [hd.line_eq]
        simp only [List.append_assoc]
      have hmoved : insertAt correction (places line) (0 + (lead ++ before).length) h.trimmedBound =
          adjust h.trimmedBound := by
        rw [places_of_critical hh hc, hstart]
        exact insertAt_map_add h.trimmedStart 0 h.trimmedBound
      calc Repair.line line
          = lead ++ before ++ (adjust h.trimmedBound ++ (after ++ '{' :: rest)) := by
            rw [line_of_critical hh hd hc]
            simp only [List.append_assoc]
        _ = lead ++ before ++ insertAt correction (places line) (0 + (lead ++ before).length)
              (h.trimmedBound ++ (after ++ '{' :: rest)) := by
            rw [insertAt_append_of_le (hstart ▸ hge), hmoved]
        _ = insertAt correction (places line) 0 line := by
            rw [← insertAt_append hle, ← hsplit]

theorem line_eq_insertBehind (line : List Char) :
    Repair.line line = insertBehind correction (places line) 0 line := by
  have hzero : 0 ∉ places line := by
    intro hmem
    obtain ⟨before, after, -, heq⟩ := exists_of_mem_places hmem
    exact absurd heq (Nat.succ_ne_zero _).symm
  rw [line_eq_insertAt, insertAt_eq_append, if_neg hzero, List.nil_append]

/-! ### What a mended line holds -/

theorem count_line {c : Char} (hc : c ∉ correction) (line : List Char) :
    (Repair.line line).count c = line.count c := by
  rw [line_eq_insertBehind, count_insertBehind hc]

/-- Mending a line makes an index stand behind a correction. -/
def ExposesIndex (line : List Char) : Prop :=
  ∃ p ∈ places line, Text.startsIndex (line.drop p) = true

/-- A mended line accesses an element by index if it did so before, or if an index stands behind one
of the corrections. -/
theorem occursIn_indexedAccess_line (line : List Char) :
    indexedAccess.occursIn (Repair.line line) = true ↔
      indexedAccess.occursIn line = true ∨ ExposesIndex line := by
  have hpos : ∀ p ∈ places line, 0 < p := by
    intro p hp
    obtain ⟨before, -, -, rfl⟩ := exists_of_mem_places hp
    exact Nat.succ_pos _
  rw [Pattern.occursIn_indexedAccess, Pattern.occursIn_indexedAccess, line_eq_insertBehind,
    followed_insertBehind (by decide) (by decide) (by decide) (by decide)
      (fun _ _ ↦ startsIndex_insertBehind (by decide)) (behindParens_places line), ExposesIndex]
  refine or_congr_right ?_
  constructor
  · rintro ⟨-, p, hp, -, hindex⟩
    exact ⟨p, hp, hindex⟩
  · rintro ⟨p, hp, hindex⟩
    exact ⟨by decide, p, hp, hpos p hp, hindex⟩

theorem occursIn_byZero_line {operator : Char} (h : operator ∉ ')' :: correction)
    (line : List Char) :
    (byZero operator).occursIn (Repair.line line) = (byZero operator).occursIn line := by
  have hne : ∀ c ∈ ')' :: correction, (c == operator) = false := fun c hc ↦
    beq_eq_false_iff_ne.mpr (ne_of_mem_of_not_mem hc h)
  rw [Bool.eq_iff_iff, Pattern.occursIn_byZero, Pattern.occursIn_byZero, line_eq_insertBehind,
    followed_insertBehind (hne ' ' (by decide)) (hne '-' (by decide)) (hne ')' (by decide))
      (by decide) (fun _ _ ↦ startsZero_insertBehind) (behindParens_places line),
    or_iff_left]
  rintro ⟨hone, -⟩
  rw [hne '1' (by decide)] at hone
  cases hone

/-! ### The lines of a mended program -/

theorem find?_append {tail : List Char} (htail : '{' ∉ tail) (line : List Char) :
    find? (line ++ tail) = find? line := by
  rw [← head?_all, all_append htail, head?_all]

/-- Text without a brace at the end of a line is left there. -/
theorem line_append {tail : List Char} (htail : '{' ∉ tail) (line : List Char) :
    Repair.line (line ++ tail) = Repair.line line ++ tail := by
  have hplaces : places (line ++ tail) = places line := by
    rw [places, places, find?_append htail]
  have hle : ∀ p ∈ places line, p ≤ 0 + line.length := by
    intro p hp
    obtain ⟨before, after, hline, rfl⟩ := exists_of_mem_places hp
    rw [hline, List.length_append, List.length_cons]
    omega
  rw [line_eq_insertAt, line_eq_insertAt, hplaces, insertAt_append_of_le hle]

theorem withoutReturn_line (line : List Char) :
    Text.withoutReturn (Repair.line line) = Repair.line (Text.withoutReturn line) := by
  by_cases hlast : line.getLast? = some '\r'
  · obtain ⟨first, rfl⟩ := List.getLast?_eq_some_iff.mp hlast
    rw [line_append (by decide), Text.withoutReturn_concat, Text.withoutReturn_concat]
  · have hmended : (Repair.line line).getLast? ≠ some '\r' := by
      intro h
      cases line with
      | nil =>
        rw [line_of_no_header rfl] at h
        exact hlast h
      | cons c rest =>
        rw [line_eq_insertAt] at h
        exact (getLast?_insertAt (List.cons_ne_nil c rest) h).elim hlast (by decide)
    rw [Text.withoutReturn_of_getLast?_ne hmended, Text.withoutReturn_of_getLast?_ne hlast]

/-- The lines of a mended program are its lines, mended. -/
theorem lines_source (text : List Char) :
    Text.lines (source text) = (Text.lines text).map Repair.line := by
  rw [Text.lines, splitLines_source, Text.lines, List.map_map, List.map_map]
  exact List.map_congr_left fun line _ ↦ withoutReturn_line line

end Repair

end FlexGate
