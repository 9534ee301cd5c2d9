import FlexGate.Proofs.Loop.Corrections
import FlexGate.Proofs.Text.Returns

/-!
# Mending as insertions into a program

The places of corrections on the lines of a program are positions of the program: those on a line
stand behind the start of the line (`sourcePlaces`, `mem_sourcePlaces_iff`), in ascending order
(`pairwise_sourcePlaces`). The mended program is the program with a correction at each of them
(`source_eq_insertAt`). So if the program is cut into pieces at these positions, the pieces joined
by corrections are the mended program (`exists_pieces`), and to take the corrections out is to put
the pieces together again.

A line feed separates what is mended (`source_append_cons`), and a carriage return at the end of a
line is left there (`source_withReturns`).
-/

set_option autoImplicit false
set_option relaxedAutoImplicit false

namespace FlexGate

namespace Text

theorem joinLines_append {first second : List (List Char)} (hfirst : first ≠ [])
    (hsecond : second ≠ []) :
    joinLines (first ++ second) = joinLines first ++ '\n' :: joinLines second := by
  induction first with
  | nil => exact absurd rfl hfirst
  | cons line first ih =>
    obtain ⟨later, second, rfl⟩ := List.exists_cons_of_ne_nil hsecond
    cases first with
    | nil =>
      rw [List.singleton_append, joinLines_cons_cons, joinLines, joinLines,
        List.intercalate_singleton]
    | cons next first =>
      rw [List.cons_append, List.cons_append, joinLines_cons_cons, ← List.cons_append,
        ih (List.cons_ne_nil next first), joinLines_cons_cons, List.append_assoc,
        List.cons_append]

/-- Where pieces of a text meet when they are joined. The number is the position of the first
piece. -/
def cuts : Nat → List (List Char) → List Nat
  | n, piece :: next :: pieces => (n + piece.length) :: cuts (n + piece.length) (next :: pieces)
  | _, _ => []

end Text

namespace LoopBound

/-! ### Pieces of a text -/

section Pieces

variable {mark : List Char} {positions others : List Nat} {n : Nat} {text : List Char}

/-- Only the positions behind characters of the text count. -/
theorem insertBehind_congr
    (h : ∀ k, n < k → k ≤ n + text.length → (k ∈ positions ↔ k ∈ others)) :
    insertBehind mark positions n text = insertBehind mark others n text := by
  induction text generalizing n with
  | nil => rfl
  | cons c text ih =>
    rw [List.length_cons] at h
    have hhere : n + 1 ∈ positions ↔ n + 1 ∈ others := h (n + 1) (by omega) (by omega)
    have hlater : insertBehind mark positions (n + 1) text =
        insertBehind mark others (n + 1) text :=
      ih fun k hlt hle ↦ h k (by omega) (by omega)
    rw [insertBehind, insertBehind, hlater]
    simp only [hhere]

theorem insertBehind_map_add (a n : Nat) (text : List Char) :
    insertBehind mark (positions.map (a + ·)) (a + n) text =
      insertBehind mark positions n text := by
  have hmem (k : Nat) : a + k ∈ positions.map (a + ·) ↔ k ∈ positions := by
    simp
  induction text generalizing n with
  | nil => rfl
  | cons c text ih =>
    rw [insertBehind, insertBehind, Nat.add_assoc, ih]
    simp only [hmem]

/-- At the first of some ascending positions the mark comes first, then the text with marks at the
others. -/
theorem insertAt_cons_self (hlater : ∀ k ∈ positions, n < k) :
    insertAt mark (n :: positions) n text = mark ++ insertAt mark positions n text := by
  have hn : n ∉ positions := fun hmem ↦ Nat.lt_irrefl n (hlater n hmem)
  rw [insertAt_eq_append, insertAt_eq_append, if_pos List.mem_cons_self, if_neg hn,
    List.nil_append]
  refine congrArg (mark ++ ·) (insertBehind_congr fun k hlt _ ↦ ?_)
  rw [List.mem_cons, or_iff_right (by omega)]

/-- A text with marks at ascending positions is made of pieces of the text, which meet at these
positions, with the mark in between. -/
theorem exists_pieces (hsorted : positions.Pairwise (· < ·))
    (hrange : ∀ p ∈ positions, n ≤ p ∧ p ≤ n + text.length) :
    ∃ pieces : List (List Char), pieces ≠ [] ∧ text = pieces.flatten ∧
      insertAt mark positions n text = mark.intercalate pieces ∧
      Text.cuts n pieces = positions := by
  induction positions generalizing n text with
  | nil =>
    refine ⟨[text], List.cons_ne_nil _ _, by simp, ?_, rfl⟩
    rw [insertAt_nil, List.intercalate_singleton]
  | cons p positions ih =>
    rw [List.pairwise_cons] at hsorted
    obtain ⟨hlow, hhigh⟩ := hrange p List.mem_cons_self
    obtain ⟨piece, rest, rfl, hp⟩ : ∃ piece rest, text = piece ++ rest ∧ n + piece.length = p := by
      refine ⟨text.take (p - n), text.drop (p - n), (List.take_append_drop _ _).symm, ?_⟩
      rw [List.length_take]
      omega
    subst hp
    have hrest : ∀ q ∈ positions, n + piece.length ≤ q ∧
        q ≤ n + piece.length + rest.length := by
      intro q hq
      have hle := (hrange q (List.mem_cons_of_mem _ hq)).2
      rw [List.length_append] at hle
      exact ⟨Nat.le_of_lt (hsorted.1 q hq), by omega⟩
    obtain ⟨pieces, hne, hflatten, hmarked, hcuts⟩ := ih hsorted.2 hrest
    obtain ⟨next, pieces, rfl⟩ := List.exists_cons_of_ne_nil hne
    refine ⟨piece :: next :: pieces, List.cons_ne_nil _ _, ?_, ?_, ?_⟩
    · rw [List.flatten_cons, ← hflatten]
    · have hbefore : ∀ k ∈ (n + piece.length) :: positions, n + piece.length ≤ k := by
        intro k hk
        rcases List.mem_cons.mp hk with rfl | hk
        · exact Nat.le_refl _
        · exact (hrest k hk).1
      rw [insertAt_append hbefore, insertAt_cons_self hsorted.1, hmarked,
        List.intercalate_cons_cons, List.append_assoc]
    · rw [Text.cuts, hcuts]

end Pieces

end LoopBound

namespace Repair

open LoopHeader LoopBound

/-! ### The places in a program -/

/-- The places on some lines, as positions. The number is the position of the first line. -/
def placesFrom : Nat → List (List Char) → List Nat
  | _, [] => []
  | n, line :: lines => (places line).map (n + ·) ++ placesFrom (n + (line.length + 1)) lines

/-- The positions of a program behind which mending puts a correction. -/
def sourcePlaces (text : List Char) : List Nat := placesFrom 0 (Text.splitLines text)

theorem placesFrom_add (a n : Nat) (lines : List (List Char)) :
    placesFrom (a + n) lines = (placesFrom n lines).map (a + ·) := by
  induction lines generalizing n with
  | nil => rfl
  | cons line lines ih =>
    rw [placesFrom, placesFrom, List.map_append, List.map_map, Nat.add_assoc, ih]
    simp only [Function.comp_def, Nat.add_assoc]

theorem mem_placesFrom {n p : Nat} {lines : List (List Char)} :
    p ∈ placesFrom n lines ↔ ∃ i line, lines[i]? = some line ∧
      ∃ q ∈ places line, n + (Text.lineStart lines i + q) = p := by
  induction lines generalizing n with
  | nil => simp [placesFrom]
  | cons first lines ih =>
    rw [placesFrom, List.mem_append, List.mem_map, ih]
    constructor
    · rintro (⟨q, hq, rfl⟩ | ⟨i, line, hi, q, hq, rfl⟩)
      · exact ⟨0, first, rfl, q, hq, by rw [Text.lineStart_zero, Nat.zero_add]⟩
      · refine ⟨i + 1, line, hi, q, hq, ?_⟩
        rw [Text.lineStart_cons_succ]
        omega
    · rintro ⟨i, line, hi, q, hq, rfl⟩
      cases i with
      | zero =>
        obtain rfl : first = line := Option.some.inj hi
        exact .inl ⟨q, hq, by rw [Text.lineStart_zero, Nat.zero_add]⟩
      | succ i =>
        refine .inr ⟨i, line, hi, q, hq, ?_⟩
        rw [Text.lineStart_cons_succ]
        omega

/-- A place is where a call ends in the critical bound of the first header of a line. -/
theorem mem_sourcePlaces_iff {text : List Char} {p : Nat} :
    p ∈ sourcePlaces text ↔ ∃ i line h k, (Text.splitLines text)[i]? = some line ∧
      find? line = some h ∧ h.isCritical = true ∧ k ∈ callEnds h.trimmedBound ∧
      p = Text.lineStart (Text.splitLines text) i + (h.trimmedStart + k) := by
  rw [sourcePlaces, mem_placesFrom]
  constructor
  · rintro ⟨i, line, hi, q, hq, rfl⟩
    obtain ⟨h, hh, hc, k, hk, rfl⟩ := mem_places_iff.mp hq
    exact ⟨i, line, h, k, hi, hh, hc, hk, Nat.zero_add _⟩
  · rintro ⟨i, line, h, k, hi, hh, hc, hk, rfl⟩
    exact ⟨i, line, hi, _, mem_places_iff.mpr ⟨h, hh, hc, k, hk, rfl⟩, Nat.zero_add _⟩

theorem sourcePlaces_of_not_mem {line : List Char} (h : '\n' ∉ line) :
    sourcePlaces line = places line := by
  rw [sourcePlaces, Text.splitLines_of_not_mem h, placesFrom, placesFrom, List.append_nil]
  simp

theorem sourcePlaces_append_cons {line : List Char} (h : '\n' ∉ line) (rest : List Char) :
    sourcePlaces (line ++ '\n' :: rest) =
      places line ++ (sourcePlaces rest).map (line.length + 1 + ·) := by
  rw [sourcePlaces, Text.splitLines_append h, placesFrom, Nat.zero_add, sourcePlaces,
    ← placesFrom_add]
  simp

/-- A place on a line lies on it. -/
theorem pos_and_le_of_mem_places {line : List Char} {p : Nat} (hp : p ∈ places line) :
    0 < p ∧ p ≤ line.length := by
  obtain ⟨before, after, rfl, rfl⟩ := exists_of_mem_places hp
  rw [List.length_append, List.length_cons]
  omega

theorem pos_and_le_of_mem_sourcePlaces {text : List Char} {p : Nat} (hp : p ∈ sourcePlaces text) :
    0 < p ∧ p ≤ text.length := by
  induction text using Text.induction_lines generalizing p with
  | last line h => exact pos_and_le_of_mem_places (sourcePlaces_of_not_mem h ▸ hp)
  | cons line rest h ih =>
    rw [sourcePlaces_append_cons h, List.mem_append, List.mem_map] at hp
    rw [List.length_append, List.length_cons]
    rcases hp with hp | ⟨q, hq, rfl⟩
    · have hle := pos_and_le_of_mem_places hp
      omega
    · have hle := ih hq
      omega

/-! ### The order of the places -/

theorem pairwise_callEnds (bound : List Char) : (callEnds bound).Pairwise (· < ·) := by
  rw [callEnds, List.pairwise_map]
  refine (Pattern.pairwise_findAllFrom Shape.lengthCall 0 [] bound).imp_of_mem ?_
  intro m n hm hn hle
  exact Nat.lt_of_le_of_lt hle
    (Pattern.start_lt_stop lengthCall_consumes (Pattern.exists_matchAt_of_mem_findAllFrom hn))

theorem pairwise_places (line : List Char) : (places line).Pairwise (· < ·) := by
  rw [places]
  split
  · exact .nil
  · split
    · rw [List.pairwise_map]
      exact (pairwise_callEnds _).imp (Nat.add_lt_add_left · _)
    · exact .nil

theorem pairwise_sourcePlaces (text : List Char) : (sourcePlaces text).Pairwise (· < ·) := by
  induction text using Text.induction_lines with
  | last line h =>
    rw [sourcePlaces_of_not_mem h]
    exact pairwise_places line
  | cons line rest h ih =>
    rw [sourcePlaces_append_cons h, List.pairwise_append, List.pairwise_map]
    refine ⟨pairwise_places line, ih.imp (Nat.add_lt_add_left · _), fun p hp q hq ↦ ?_⟩
    obtain ⟨r, -, rfl⟩ := List.mem_map.mp hq
    have hle := pos_and_le_of_mem_places hp
    omega

/-! ### A program and its lines -/

/-- A line feed separates what is mended. -/
theorem source_append_cons (first second : List Char) :
    source (first ++ '\n' :: second) = source first ++ '\n' :: source second := by
  have hne (text : List Char) : (Text.splitLines text).map Repair.line ≠ [] := by
    rw [ne_eq, List.map_eq_nil_iff]
    exact Text.splitLines_ne_nil text
  rw [source, Text.splitLines_append_cons, List.map_append,
    Text.joinLines_append (hne first) (hne second)]
  rfl

theorem source_of_not_mem {line : List Char} (h : '\n' ∉ line) :
    source line = Repair.line line := by
  rw [source, Text.splitLines_of_not_mem h, List.map_singleton, Text.joinLines,
    List.intercalate_singleton]

/-- A mended program is the program with corrections at its places. -/
theorem source_eq_insertBehind (text : List Char) :
    source text = insertBehind correction (sourcePlaces text) 0 text := by
  induction text using Text.induction_lines with
  | last line h => rw [source_of_not_mem h, sourcePlaces_of_not_mem h, line_eq_insertBehind]
  | cons line rest h ih =>
    have hfirst : insertBehind correction (sourcePlaces (line ++ '\n' :: rest)) 0 line =
        insertBehind correction (places line) 0 line := by
      refine insertBehind_congr fun k _ hle ↦ ?_
      rw [sourcePlaces_append_cons h, List.mem_append, or_iff_left]
      intro hmem
      obtain ⟨q, -, rfl⟩ := List.mem_map.mp hmem
      omega
    have hfeed : 0 + line.length + 1 ∉ sourcePlaces (line ++ '\n' :: rest) := by
      rw [sourcePlaces_append_cons h, List.mem_append, List.mem_map]
      rintro (hmem | ⟨q, hq, hsum⟩)
      · have hle := pos_and_le_of_mem_places hmem
        omega
      · have hpos := pos_and_le_of_mem_sourcePlaces hq
        omega
    have hsecond : insertBehind correction (sourcePlaces (line ++ '\n' :: rest))
        (0 + line.length + 1) rest = insertBehind correction (sourcePlaces rest) 0 rest := by
      rw [← insertBehind_map_add (line.length + 1) 0, Nat.zero_add, Nat.add_zero]
      refine insertBehind_congr fun k hlt _ ↦ ?_
      rw [sourcePlaces_append_cons h, List.mem_append, or_iff_right]
      intro hmem
      have hle := pos_and_le_of_mem_places hmem
      omega
    rw [source_append_cons, source_of_not_mem h, line_eq_insertBehind, ih, insertBehind_append,
      hfirst, insertBehind, if_neg hfeed, List.nil_append, hsecond]

theorem source_eq_insertAt (text : List Char) :
    source text = insertAt correction (sourcePlaces text) 0 text := by
  have hzero : 0 ∉ sourcePlaces text := fun hmem ↦
    Nat.lt_irrefl 0 (pos_and_le_of_mem_sourcePlaces hmem).1
  rw [insertAt_eq_append, if_neg hzero, List.nil_append, source_eq_insertBehind]

/-- A mended program is made of the pieces of the program that meet at its places. -/
theorem exists_pieces_source (text : List Char) :
    ∃ pieces : List (List Char), text = pieces.flatten ∧
      source text = correction.intercalate pieces ∧ Text.cuts 0 pieces = sourcePlaces text := by
  have hrange : ∀ p ∈ sourcePlaces text, 0 ≤ p ∧ p ≤ 0 + text.length := by
    intro p hp
    have hle := pos_and_le_of_mem_sourcePlaces hp
    omega
  obtain ⟨pieces, -, hflatten, hmended, hcuts⟩ :=
    exists_pieces (pairwise_sourcePlaces text) hrange
  exact ⟨pieces, hflatten, (source_eq_insertAt text).trans hmended, hcuts⟩

/-- Mending leaves the carriage returns at the ends of lines where they are. -/
theorem source_withReturns (text : List Char) :
    source (Text.withReturns text) = Text.withReturns (source text) := by
  have hmended {line : List Char} (h : '\n' ∉ line) : '\n' ∉ Repair.line line := fun hmem ↦
    (mem_line hmem).elim h (by decide)
  induction text using Text.induction_lines with
  | last line h =>
    rw [Text.withReturns_of_not_mem h, source_of_not_mem h,
      Text.withReturns_of_not_mem (hmended h)]
  | cons line rest h ih =>
    have hreturn : '\n' ∉ line ++ ['\r'] := by
      simpa using h
    rw [Text.withReturns_append_cons h, source_append_cons, source_append_cons, ih,
      source_of_not_mem hreturn, source_of_not_mem h, line_append (by decide),
      Text.withReturns_append_cons (hmended h)]

end Repair

open LoopHeader LoopBound

/-- A mended program is made of the pieces of the program that meet at certain positions, with a
correction between each two of them; without the corrections it is the program. The positions are
the ends of the calls in the critical bounds of the first headers of lines. The program keeps its
number of lines, a line feed separates what is mended, and how the lines end makes no difference. -/
theorem mended_inserts_corrections (s : String) :
    (∃ pieces : List (List Char), s.toList = pieces.flatten ∧
      (Repair.mended s).toList = correction.intercalate pieces ∧
      Text.cuts 0 pieces = Repair.sourcePlaces s.toList) ∧
    (∀ p, p ∈ Repair.sourcePlaces s.toList ↔
      ∃ i line h k, (Text.splitLines s.toList)[i]? = some line ∧ find? line = some h ∧
        h.isCritical = true ∧ k ∈ callEnds h.trimmedBound ∧
        p = Text.lineStart (Text.splitLines s.toList) i + (h.trimmedStart + k)) ∧
    (Repair.sourcePlaces s.toList).Pairwise (· < ·) ∧
    (Text.splitLines (Repair.mended s).toList).length = (Text.splitLines s.toList).length ∧
    (∀ t, Repair.mended (s ++ "\n" ++ t) = Repair.mended s ++ "\n" ++ Repair.mended t) ∧
    Repair.mended (Text.returned s) = Text.returned (Repair.mended s) := by
  refine ⟨?_, fun p ↦ Repair.mem_sourcePlaces_iff, Repair.pairwise_sourcePlaces s.toList, ?_,
    fun t ↦ ?_, ?_⟩
  · rw [Repair.toList_mended]
    exact Repair.exists_pieces_source s.toList
  · rw [Repair.toList_mended, Repair.splitLines_source, List.length_map]
  · have hfeed : "\n".toList = ['\n'] := rfl
    rw [← String.toList_inj]
    simp only [Repair.toList_mended, String.toList_append, hfeed, List.append_assoc,
      List.singleton_append, Repair.source_append_cons]
  · rw [← String.toList_inj]
    simp only [Repair.toList_mended, Text.toList_returned, Repair.source_withReturns]

end FlexGate
