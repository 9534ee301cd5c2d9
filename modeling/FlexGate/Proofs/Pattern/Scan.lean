import FlexGate.Proofs.Pattern.Occurrence
import FlexGate.Proofs.Text.Lines
import FlexGate.Vocabulary

/-!
# Searches as scans

Where a pattern occurs in a text was said with positions and the ends of readings; here it is said
with characters. An indexed access is a word character with an index behind it
(`occursIn_indexedAccess`), and an operator applied to zero is the operator with a zero behind it
(`occursIn_byZero`), where blanks may stand in between. Both are found by one scan, `followed`,
which asks at every character of the text for something of the text behind it.

A division is a slash with no slash at either side (`occursIn_divisionOperator_iff`), and a word is
found where it stands in the text (`occursIn_exactly`).

A reading depends on no more of the text behind it than the first character, and on none of it if it
ends with a given character (`mem_ends_of_ahead`), so a match is still a match when the text behind
it is exchanged (`occursIn_of_find?`). A single character is found at the places where it stands in
the text (`map_start_findAll_token`), and as often (`count_token`).
-/

set_option autoImplicit false
set_option relaxedAutoImplicit false

namespace FlexGate

namespace Text

/-- Whether some character of a text has a property, and the text behind it another one. -/
def followed (first : Char → Bool) (behind : List Char → Bool) : List Char → Bool
  | [] => false
  | c :: text => (first c && behind text) || followed first behind text

theorem followed_iff {first : Char → Bool} {behind : List Char → Bool} {text : List Char} :
    followed first behind text = true ↔
      ∃ lead c rest, text = lead ++ c :: rest ∧ first c = true ∧ behind rest = true := by
  induction text with
  | nil => simp [followed]
  | cons x text ih =>
    rw [followed, Bool.or_eq_true, Bool.and_eq_true, ih]
    constructor
    · rintro (⟨hx, htext⟩ | ⟨lead, c, rest, rfl, hc, hrest⟩)
      · exact ⟨[], x, text, rfl, hx, htext⟩
      · exact ⟨x :: lead, c, rest, rfl, hc, hrest⟩
    · rintro ⟨lead, c, rest, heq, hc, hrest⟩
      cases lead with
      | nil =>
        obtain ⟨rfl, rfl⟩ := List.cons.inj heq
        exact .inl ⟨hc, hrest⟩
      | cons y lead => exact .inr ⟨lead, c, rest, (List.cons.inj heq).2, hc, hrest⟩

/-- Whether an index starts behind some blanks: a bracket that is closed again, with something in
between. -/
def startsIndex (text : List Char) : Bool :=
  match text.dropWhile isBlank with
  | [] => false
  | c :: rest => c == '[' && rest.head? != some ']' && rest.contains ']'

/-- Whether a zero stands behind some blanks that is not the start of a longer word. -/
def startsZero (text : List Char) : Bool :=
  match text.dropWhile isBlank with
  | [] => false
  | c :: rest => c == '0' && !Cursor.leadsWithWord rest

theorem dropWhile_isBlank_eq_cons_iff {text rest : List Char} {c : Char}
    (hc : isBlank c = false) :
    text.dropWhile isBlank = c :: rest ↔
      ∃ blanks, text = blanks ++ c :: rest ∧ ∀ x ∈ blanks, isBlank x = true := by
  constructor
  · intro h
    refine ⟨text.takeWhile isBlank, ?_, fun x hx ↦ List.mem_takeWhile_imp hx⟩
    rw [← h, List.takeWhile_append_dropWhile]
  · rintro ⟨blanks, rfl, hblanks⟩
    exact dropWhile_isBlank_append hblanks fun d hd ↦ by rwa [← Option.some.inj hd]

theorem startsIndex_iff {text : List Char} :
    startsIndex text = true ↔ ∃ blanks rest, text = blanks ++ '[' :: rest ∧
      (∀ x ∈ blanks, isBlank x = true) ∧ rest.head? ≠ some ']' ∧ ']' ∈ rest := by
  have hbracket : isBlank '[' = false := by decide
  constructor
  · intro h
    rw [startsIndex] at h
    cases hdrop : text.dropWhile isBlank with
    | nil => simp [hdrop] at h
    | cons c rest =>
      obtain ⟨⟨rfl, hhead⟩, hmem⟩ : (c = '[' ∧ rest.head? ≠ some ']') ∧ ']' ∈ rest := by
        simpa [hdrop] using h
      obtain ⟨blanks, heq, hblanks⟩ := (dropWhile_isBlank_eq_cons_iff hbracket).mp hdrop
      exact ⟨blanks, rest, heq, hblanks, hhead, hmem⟩
  · rintro ⟨blanks, rest, heq, hblanks, hhead, hmem⟩
    have hdrop := (dropWhile_isBlank_eq_cons_iff hbracket).mpr ⟨blanks, heq, hblanks⟩
    simp [startsIndex, hdrop, hhead, hmem]

theorem startsZero_iff {text : List Char} :
    startsZero text = true ↔ ∃ blanks rest, text = blanks ++ '0' :: rest ∧
      (∀ x ∈ blanks, isBlank x = true) ∧ Cursor.leadsWithWord rest = false := by
  have hzero : isBlank '0' = false := by decide
  constructor
  · intro h
    rw [startsZero] at h
    cases hdrop : text.dropWhile isBlank with
    | nil => simp [hdrop] at h
    | cons c rest =>
      obtain ⟨rfl, hrest⟩ : c = '0' ∧ Cursor.leadsWithWord rest = false := by
        simpa [hdrop] using h
      obtain ⟨blanks, heq, hblanks⟩ := (dropWhile_isBlank_eq_cons_iff hzero).mp hdrop
      exact ⟨blanks, rest, heq, hblanks, hrest⟩
  · rintro ⟨blanks, rest, heq, hblanks, hrest⟩
    have hdrop := (dropWhile_isBlank_eq_cons_iff hzero).mpr ⟨blanks, heq, hblanks⟩
    simp [startsZero, hdrop, hrest]

end Text

namespace Pattern

open Cursor (starts)
open Shape

/-! ### The ends of a reading -/

theorem mem_runEnds {s : CharClass} {run : List Char} (hrun : ∀ x ∈ run, s.has x = true)
    (behind rest : List Char) :
    (⟨run.reverse ++ behind, rest⟩ : Cursor) ∈ runEnds s behind (run ++ rest) := by
  induction run generalizing behind with
  | nil =>
    cases rest with
    | nil => exact List.mem_singleton_self _
    | cons y rest =>
      rw [List.nil_append, runEnds]
      split <;> simp
  | cons x run ih =>
    have hmem := ih (fun y hy ↦ hrun y (List.mem_cons_of_mem x hy)) (x :: behind)
    rw [List.cons_append, runEnds, if_pos (hrun x List.mem_cons_self), List.mem_append,
      List.reverse_cons, List.append_assoc]
    exact .inl hmem

theorem mem_ends_many {s : CharClass} {c d : Cursor} :
    d ∈ (Pattern.many s).ends c ↔ ∃ run rest : List Char, c.ahead = run ++ rest ∧
      (∀ x ∈ run, s.has x = true) ∧ d = ⟨run.reverse ++ c.behind, rest⟩ := by
  obtain ⟨behind, ahead⟩ := c
  constructor
  · intro h
    obtain ⟨dbehind, dahead⟩ := d
    obtain ⟨run, hahead, hbehind, hrun⟩ := leads_of_mem_runEnds h
    exact ⟨run, dahead, hahead, hrun, congrArg (Cursor.mk · dahead) hbehind⟩
  · rintro ⟨run, rest, rfl, hrun, rfl⟩
    exact mem_runEnds hrun behind rest

theorem mem_ends_char {s : CharClass} {c d : Cursor} :
    d ∈ (Pattern.char s).ends c ↔
      ∃ x ahead, c.ahead = x :: ahead ∧ s.has x = true ∧ d = ⟨x :: c.behind, ahead⟩ := by
  obtain ⟨behind, ahead⟩ := c
  cases ahead with
  | nil => simp [ends_char_nil]
  | cons y ahead => cases hy : s.has y <;> simp [ends_char_cons, hy]

theorem mem_ends_seq {p q : Pattern} {c d : Cursor} :
    d ∈ (Pattern.seq p q).ends c ↔ ∃ e ∈ p.ends c, d ∈ q.ends e :=
  List.mem_flatMap

theorem mem_ends_edge {e : Edge} {c d : Cursor} :
    d ∈ (Pattern.edge e).ends c ↔ e.holds c = true ∧ d = c := by
  cases h : e.holds c <;> simp [ends_edge, h]

theorem mem_ends_either {p q : Pattern} {c d : Cursor} :
    d ∈ (Pattern.either p q).ends c ↔ d ∈ p.ends c ∨ d ∈ q.ends c :=
  List.mem_append

theorem mem_ends_some1 {s : CharClass} {c d : Cursor} :
    d ∈ (some1 s).ends c ↔ ∃ run rest : List Char, c.ahead = run ++ rest ∧ run ≠ [] ∧
      (∀ x ∈ run, s.has x = true) ∧ d = ⟨run.reverse ++ c.behind, rest⟩ := by
  simp only [some1, mem_ends_seq, mem_ends_char, mem_ends_many]
  constructor
  · rintro ⟨_, ⟨x, _, hahead, hx, rfl⟩, run, rest, rfl, hrun, rfl⟩
    exact ⟨x :: run, rest, hahead, List.cons_ne_nil x run, List.forall_mem_cons.mpr ⟨hx, hrun⟩,
      by simp⟩
  · rintro ⟨run, rest, hahead, hne, hrun, rfl⟩
    obtain ⟨x, run, rfl⟩ := List.exists_cons_of_ne_nil hne
    obtain ⟨hx, hrun⟩ := List.forall_mem_cons.mp hrun
    exact ⟨_, ⟨x, run ++ rest, hahead, hx, rfl⟩, run, rest, rfl, hrun, by simp⟩

theorem mem_ends_exactly {word : List Char} {c d : Cursor} :
    d ∈ (exactly word).ends c ↔
      ∃ rest, c.ahead = word ++ rest ∧ d = ⟨word.reverse ++ c.behind, rest⟩ := by
  rw [ends_exactly]
  constructor
  · intro h
    split at h
    case isTrue hprefix =>
      obtain ⟨rest, hrest⟩ := List.isPrefixOf_iff_prefix.mp hprefix
      refine ⟨rest, hrest.symm, ?_⟩
      rw [List.mem_singleton.mp h, ← hrest, List.drop_left]
    case isFalse => exact absurd h List.not_mem_nil
  · rintro ⟨rest, hahead, rfl⟩
    have hprefix : word.isPrefixOf c.ahead = true :=
      List.isPrefixOf_iff_prefix.mpr ⟨rest, hahead.symm⟩
    rw [if_pos hprefix, hahead, List.drop_left]
    exact List.mem_singleton_self _

/-- A choice is read as one of its parts. -/
theorem mem_ends_oneOf {ps : List Pattern} (hne : ps ≠ []) {c d : Cursor} :
    d ∈ (oneOf ps).ends c ↔ ∃ p ∈ ps, d ∈ p.ends c := by
  induction ps with
  | nil => exact absurd rfl hne
  | cons p ps ih =>
    cases ps with
    | nil => simp [oneOf]
    | cons q ps =>
      change d ∈ (Pattern.either p (oneOf (q :: ps))).ends c ↔ _
      rw [mem_ends_either, ih (List.cons_ne_nil q ps)]
      simp only [List.mem_cons, exists_eq_or_imp]

theorem mem_ends_oneOf_text {words : List String} (hne : words ≠ []) {c d : Cursor} :
    d ∈ (oneOf (words.map Pattern.text)).ends c ↔ ∃ word ∈ words, ∃ rest,
      c.ahead = word.toList ++ rest ∧ d = ⟨word.toList.reverse ++ c.behind, rest⟩ := by
  have hmap : words.map Pattern.text ≠ [] := by simpa using hne
  simp only [mem_ends_oneOf hmap, List.mem_map, exists_exists_and_eq_and, Pattern.text,
    mem_ends_exactly]

theorem matchAt_isSome_iff {p : Pattern} {c : Cursor} :
    (p.matchAt c).isSome = true ↔ ∃ d, d ∈ p.ends c := by
  have hspan : ((p.matchAt c).map Match.span).isSome = ((p.ends c).head?.map fun d ↦
      (⟨c, d⟩ : Span)).isSome := congrArg Option.isSome (p.map_span_matchAt c)
  rw [Option.isSome_map, Option.isSome_map] at hspan
  rw [hspan]
  cases p.ends c with
  | nil => simp
  | cons d ds => simp

theorem mem_starts_iff {behind ahead : List Char} {c : Cursor} :
    c ∈ starts behind ahead ↔
      ∃ lead, ahead = lead ++ c.ahead ∧ c.behind = lead.reverse ++ behind ∧ c.ahead ≠ [] := by
  refine ⟨Cursor.exists_of_mem_starts, ?_⟩
  rintro ⟨lead, rfl, hbehind, hne⟩
  obtain ⟨cbehind, cahead⟩ := c
  obtain ⟨x, rest, rfl⟩ := List.exists_cons_of_ne_nil hne
  dsimp only at hbehind
  rw [Cursor.starts_append, List.mem_append, hbehind]
  exact .inr List.mem_cons_self

theorem occursIn_iff {p : Pattern} {text : List Char} :
    p.occursIn text = true ↔ ∃ lead x rest d, text = lead ++ x :: rest ∧
      d ∈ p.ends ⟨lead.reverse, x :: rest⟩ := by
  rw [occursIn, find?, findFrom_eq, List.findSome?_isSome_iff]
  constructor
  · rintro ⟨c, hc, hmatch⟩
    obtain ⟨cbehind, cahead⟩ := c
    obtain ⟨lead, heq, hbehind, hne⟩ := mem_starts_iff.mp hc
    obtain ⟨x, rest, rfl⟩ := List.exists_cons_of_ne_nil hne
    obtain ⟨d, hd⟩ := matchAt_isSome_iff.mp hmatch
    dsimp only at hbehind
    rw [hbehind, List.append_nil] at hd
    exact ⟨lead, x, rest, d, heq, hd⟩
  · rintro ⟨lead, x, rest, d, heq, hd⟩
    refine ⟨⟨lead.reverse, x :: rest⟩, mem_starts_iff.mpr ⟨lead, heq, ?_, ?_⟩,
      matchAt_isSome_iff.mpr ⟨d, hd⟩⟩
    · exact (List.append_nil _).symm
    · exact List.cons_ne_nil x rest

theorem occursIn_of_mem_ends {p : Pattern} {lead ahead : List Char} {d : Cursor}
    (hne : ahead ≠ []) (hd : d ∈ p.ends ⟨lead.reverse, ahead⟩) :
    p.occursIn (lead ++ ahead) = true := by
  obtain ⟨x, rest, rfl⟩ := List.exists_cons_of_ne_nil hne
  exact occursIn_iff.mpr ⟨lead, x, rest, d, rfl, hd⟩

/-! ### Accesses and divisions -/

theorem holds_word_behind {c : Char} (hc : Text.isWord c = true) (behind ahead : List Char) :
    Edge.word.holds ⟨c :: behind, ahead⟩ = !Cursor.leadsWithWord ahead := by
  simp only [Edge.holds]
  rw [Cursor.leadsWithWord, hc, Bool.true_bne]

/-- An operator that is applied to zero is read where a zero stands behind it. -/
theorem exists_mem_ends_byZero {operator x : Char} {behind ahead : List Char} :
    (∃ d, d ∈ (byZero operator).ends ⟨behind, x :: ahead⟩) ↔
      (x == operator) = true ∧ Text.startsZero ahead = true := by
  simp only [byZero, Pattern.sequence, token, blanks, mem_ends_seq, mem_ends_char, mem_ends_many,
    mem_ends_edge, Text.startsZero_iff]
  have hword : Text.isWord '0' = true := by decide
  constructor
  · rintro ⟨d, _, ⟨_, ahead, hahead, hoperator, rfl⟩, _, ⟨blanks, _, rfl, hblanks, rfl⟩, _,
      ⟨_, after, rfl, hzero, rfl⟩, hedge, rfl⟩
    obtain ⟨rfl, rfl⟩ := List.cons.inj hahead
    obtain rfl := eq_of_beq hzero
    refine ⟨hoperator, blanks, after, rfl, hblanks, ?_⟩
    simpa [holds_word_behind hword] using hedge
  · rintro ⟨hoperator, blanks, after, rfl, hblanks, hafter⟩
    refine ⟨_, _, ⟨x, _, rfl, hoperator, rfl⟩, _, ⟨blanks, _, rfl, hblanks, rfl⟩, _,
      ⟨'0', after, rfl, by decide, rfl⟩, ?_, rfl⟩
    rw [holds_word_behind hword, hafter, Bool.not_false]

/-- An operator is applied to zero where a zero stands behind it. -/
theorem occursIn_byZero (operator : Char) (text : List Char) :
    (byZero operator).occursIn text = Text.followed (· == operator) Text.startsZero text := by
  rw [Bool.eq_iff_iff, occursIn_iff, Text.followed_iff]
  refine exists_congr fun lead ↦ exists_congr fun x ↦ exists_congr fun rest ↦ ?_
  rw [exists_and_left, exists_mem_ends_byZero]

/-- An element is accessed by index where an index starts behind a word. -/
theorem occursIn_indexedAccess (text : List Char) :
    indexedAccess.occursIn text = Text.followed Text.isWord Text.startsIndex text := by
  rw [Bool.eq_iff_iff, occursIn_iff, Text.followed_iff]
  simp only [indexedAccess, Pattern.sequence, token, blanks, some1, ends_group, mem_ends_seq,
    mem_ends_char, mem_ends_many, Text.startsIndex_iff]
  constructor
  · rintro ⟨lead, x, rest, d, rfl, hd⟩
    obtain ⟨_, ⟨_, ⟨_, ahead, hahead, hx, rfl⟩, run, _, rfl, hrun, rfl⟩,
      _, ⟨blanks, _, rfl, hblanks, rfl⟩, _, ⟨_, after, rfl, hopen, rfl⟩,
      _, ⟨blanks', _, rfl, hblanks', rfl⟩, _,
      ⟨_, ⟨y, _, rfl, hy, rfl⟩, content, _, rfl, hcontent, rfl⟩,
      _, ⟨blanks'', _, rfl, hblanks'', rfl⟩, z, after', rfl, hclose, rfl⟩ := hd
    obtain ⟨rfl, rfl⟩ := List.cons.inj hahead
    obtain rfl := eq_of_beq hopen
    obtain rfl := eq_of_beq hclose
    have hhead : (blanks' ++ y :: (content ++ (blanks'' ++ ']' :: after'))).head? ≠ some ']' := by
      cases blanks' with
      | nil => simpa [CharClass.has] using hy
      | cons b blanks' =>
        have hb : Text.isBlank b = true := hblanks' b List.mem_cons_self
        rintro ⟨⟩
        exact absurd hb (by decide)
    -- The character that the index stands behind is the last one of the word.
    have hlast : ∃ lead' c, lead ++ x :: run = lead' ++ [c] ∧ Text.isWord c = true := by
      rcases List.eq_nil_or_concat run with rfl | ⟨run, c, rfl⟩
      · exact ⟨lead, x, rfl, hx⟩
      · exact ⟨lead ++ x :: run, c, by simp, hrun c (by simp)⟩
    obtain ⟨lead', c, hlead, hc⟩ := hlast
    refine ⟨lead', c, _, ?_, hc, blanks, _, rfl, hblanks, hhead, by simp⟩
    rw [List.append_cons lead', ← hlead]
    simp
  · rintro ⟨lead, c, _, rfl, hc, blanks, after, rfl, hblanks, hhead, hmem⟩
    obtain ⟨content, after', rfl, hclose⟩ := List.eq_append_cons_of_mem hmem
    cases content with
    | nil => exact absurd rfl hhead
    | cons y content =>
      obtain ⟨hy, hcontent⟩ : ']' ≠ y ∧ ']' ∉ content := by simpa using hclose
      have hnone : ∀ x ∈ ([] : List Char), Text.isBlank x = true := by simp
      refine ⟨lead, c, _, _, rfl, _, ⟨_, ⟨c, _, rfl, hc, rfl⟩, [], _, rfl, by simp, rfl⟩,
        _, ⟨blanks, _, rfl, hblanks, rfl⟩, _, ⟨'[', _, rfl, by decide, rfl⟩,
        _, ⟨[], _, rfl, hnone, rfl⟩, _, ⟨_, ⟨y, _, rfl, ?_, rfl⟩, content, _, rfl, ?_, rfl⟩,
        _, ⟨[], _, rfl, hnone, rfl⟩, ']', after', rfl, by decide, rfl⟩
      · exact bne_iff_ne.mpr (Ne.symm hy)
      · exact fun x hx ↦ bne_iff_ne.mpr (ne_of_mem_of_not_mem hx hcontent)

/-- A slash with no slash behind it is read in one way or the other, as what is behind it is a
character or the end of the text. -/
theorem exists_mem_ends_slash {c : Cursor} :
    (∃ d, d ∈ (Pattern.seq (token '/') (oneOf [.char (.allBut '/'), .edge .textEnd])).ends c) ↔
      ∃ rest, c.ahead = '/' :: rest ∧ rest.head? ≠ some '/' := by
  simp only [token, oneOf, mem_ends_seq, mem_ends_char, mem_ends_either, mem_ends_edge]
  constructor
  · rintro ⟨d, _, ⟨x, rest, hahead, hx, rfl⟩, hd⟩
    obtain rfl := eq_of_beq hx
    refine ⟨rest, hahead, ?_⟩
    rcases hd with ⟨y, _, hrest, hy, -⟩ | ⟨hend, -⟩
    · obtain rfl := hrest
      simpa [CharClass.has] using hy
    · obtain rfl := List.isEmpty_iff.mp hend
      simp
  · rintro ⟨rest, hahead, hrest⟩
    cases rest with
    | nil => exact ⟨_, _, ⟨'/', [], hahead, by decide, rfl⟩, .inr ⟨rfl, rfl⟩⟩
    | cons y rest =>
      have hy : CharClass.has (.allBut '/') y = true := by simpa [CharClass.has] using hrest
      exact ⟨_, _, ⟨'/', y :: rest, hahead, by decide, rfl⟩, .inl ⟨y, rest, rfl, hy, rfl⟩⟩

/-- A slash stands alone if neither the character before it nor the one behind it is a slash. -/
theorem occursIn_divisionOperator_iff {text : List Char} :
    divisionOperator.occursIn text = true ↔ ∃ lead rest, text = lead ++ '/' :: rest ∧
      lead.getLast? ≠ some '/' ∧ rest.head? ≠ some '/' := by
  rw [occursIn_iff]
  constructor
  · rintro ⟨lead, x, rest, d, rfl, hd⟩
    obtain ⟨e, he, hd⟩ := mem_ends_seq.mp hd
    obtain ⟨after, hahead, hafter⟩ := exists_mem_ends_slash.mp ⟨d, hd⟩
    rcases mem_ends_either.mp he with he | he
    · obtain ⟨hstart, rfl⟩ := mem_ends_edge.mp he
      obtain rfl : lead = [] := by simpa [Edge.holds] using hstart
      exact ⟨[], after, hahead, by simp, hafter⟩
    · obtain ⟨y, _, hfirst, hy, rfl⟩ := mem_ends_char.mp he
      obtain ⟨rfl, rfl⟩ := List.cons.inj hfirst
      obtain rfl := hahead
      refine ⟨lead ++ [x], after, by simp, ?_, hafter⟩
      simpa [CharClass.has] using hy
  · rintro ⟨lead, rest, rfl, hlead, hrest⟩
    have hslash (behind : List Char) := exists_mem_ends_slash.mpr
      ⟨rest, (rfl : (⟨behind, '/' :: rest⟩ : Cursor).ahead = '/' :: rest), hrest⟩
    rcases List.eq_nil_or_concat lead with rfl | ⟨lead, x, rfl⟩
    · obtain ⟨d, hd⟩ := hslash []
      refine ⟨[], '/', rest, d, rfl, mem_ends_seq.mpr ⟨_, mem_ends_either.mpr (.inl ?_), hd⟩⟩
      exact mem_ends_edge.mpr ⟨rfl, rfl⟩
    · have hx : CharClass.has (.allBut '/') x = true := by simpa [CharClass.has] using hlead
      obtain ⟨d, hd⟩ := hslash (x :: lead.reverse)
      refine ⟨lead, x, '/' :: rest, d, by simp, mem_ends_seq.mpr ⟨_, mem_ends_either.mpr
        (.inr ?_), hd⟩⟩
      exact mem_ends_char.mpr ⟨x, '/' :: rest, rfl, hx, rfl⟩

/-- A word occurs where its characters stand one after the other. -/
theorem occursIn_exactly {word : List Char} (hword : word ≠ []) (text : List Char) :
    (exactly word).occursIn text = Text.hasInfix word text := by
  rw [Bool.eq_iff_iff, Text.hasInfix_iff, occursIn_iff]
  constructor
  · rintro ⟨lead, x, rest, d, rfl, hd⟩
    obtain ⟨after, hahead, -⟩ := mem_ends_exactly.mp hd
    dsimp only at hahead
    rw [hahead]
    exact ⟨lead, after, List.append_assoc lead word after⟩
  · rintro ⟨lead, after, rfl⟩
    obtain ⟨x, word, rfl⟩ := List.exists_cons_of_ne_nil hword
    exact ⟨lead, x, word ++ after, _, List.append_assoc _ _ _,
      mem_ends_exactly.mpr ⟨after, rfl, rfl⟩⟩

/-! ### The text behind a reading -/

theorem consumes_of_closesWith {p : Pattern} {x : Char} (hp : p.closesWith x = true) :
    p.consumes = true := by
  induction p with
  | nothing => simp [closesWith] at hp
  | char s => rfl
  | many s => simp [closesWith] at hp
  | edge e => simp [closesWith] at hp
  | seq p q ihp ihq => rw [consumes, ihq hp, Bool.or_true]
  | either p q ihp ihq =>
    rw [closesWith, Bool.and_eq_true] at hp
    rw [consumes, ihp hp.1, ihq hp.2, Bool.and_true]
  | group n p ih => exact ih hp

theorem holds_of_head?_eq {e : Edge} {behind ahead ahead' : List Char}
    (hhead : ahead'.head? = ahead.head?) : e.holds ⟨behind, ahead'⟩ = e.holds ⟨behind, ahead⟩ := by
  cases ahead <;> cases ahead' <;> simp_all [Edge.holds, Cursor.leadsWithWord]

/-- A reading depends on no more of the text behind it than the first character, and not even on
that if it ends with a given character. -/
theorem mem_ends_of_ahead {p : Pattern} {c d : Cursor} (h : d ∈ p.ends c) (ahead : List Char)
    (hp : ahead.head? = d.ahead.head? ∨ ∃ x, p.closesWith x = true) :
    ∃ read, c.ahead = read ++ d.ahead ∧
      (⟨d.behind, ahead⟩ : Cursor) ∈ p.ends ⟨c.behind, read ++ ahead⟩ := by
  induction p generalizing c d ahead with
  | nothing =>
    obtain rfl := List.mem_singleton.mp h
    exact ⟨[], rfl, List.mem_singleton_self _⟩
  | char s =>
    obtain ⟨x, rest, hahead, hx, rfl⟩ := mem_ends_char.mp h
    exact ⟨[x], hahead, mem_ends_char.mpr ⟨x, ahead, rfl, hx, rfl⟩⟩
  | many s =>
    obtain ⟨run, rest, hahead, hrun, rfl⟩ := mem_ends_many.mp h
    exact ⟨run, hahead, mem_ends_many.mpr ⟨run, ahead, rfl, hrun, rfl⟩⟩
  | edge e =>
    obtain ⟨he, rfl⟩ := mem_ends_edge.mp h
    have hhead : ahead.head? = d.ahead.head? := hp.resolve_right (by simp [closesWith])
    refine ⟨[], rfl, mem_ends_edge.mpr ⟨?_, rfl⟩⟩
    rw [List.nil_append, holds_of_head?_eq hhead, he]
  | seq p q ihp ihq =>
    obtain ⟨e, he, hd⟩ := mem_ends_seq.mp h
    obtain ⟨second, hsecond, hd'⟩ := ihq hd ahead hp
    have hhead : (second ++ ahead).head? = e.ahead.head? := by
      rw [hsecond]
      cases second with
      | cons y second => rfl
      | nil =>
        refine hp.resolve_right ?_
        rintro ⟨x, hx⟩
        have hlt := position_lt_of_consumes (consumes_of_closesWith (p := q) hx) hd
        obtain ⟨read, hread, hbehind, -⟩ := leads_of_mem_ends hd
        obtain rfl : read = [] := by simpa [hsecond] using hread
        simp [Cursor.position, hbehind] at hlt
    obtain ⟨first, hfirst, he'⟩ := ihp he _ (.inl hhead)
    refine ⟨first ++ second, by rw [hfirst, hsecond, List.append_assoc], mem_ends_seq.mpr ?_⟩
    exact ⟨_, by rw [List.append_assoc]; exact he', hd'⟩
  | either p q ihp ihq =>
    have hp' : ahead.head? = d.ahead.head? ∨
        (∃ x, p.closesWith x = true) ∧ ∃ x, q.closesWith x = true := by
      refine hp.imp id ?_
      rintro ⟨x, hx⟩
      rw [closesWith, Bool.and_eq_true] at hx
      exact ⟨⟨x, hx.1⟩, x, hx.2⟩
    rcases List.mem_append.mp h with h | h
    · obtain ⟨read, hread, hd⟩ := ihp h ahead (hp'.imp id And.left)
      exact ⟨read, hread, List.mem_append_left _ hd⟩
    · obtain ⟨read, hread, hd⟩ := ihq h ahead (hp'.imp id And.right)
      exact ⟨read, hread, List.mem_append_right _ hd⟩
  | group n p ih => exact ih h ahead hp

/-- A match that ends with a given character stays one when the text behind it is exchanged. -/
theorem occursIn_of_find? {p : Pattern} {x : Char} (hp : p.closesWith x = true) {text : List Char}
    {m : Match} (h : p.find? text = some m) (after : List Char) :
    p.occursIn (m.span.last.behind.reverse ++ after) = true := by
  obtain ⟨-, hlast⟩ := exists_of_find?_eq_some h
  obtain ⟨read, hahead, hmem⟩ := mem_ends_of_ahead hlast after (.inr ⟨x, hp⟩)
  have hbehind : m.span.last.behind = read.reverse ++ m.span.first.behind := by
    obtain ⟨read', hahead', hbehind, -⟩ := leads_of_mem_ends hlast
    rw [hahead] at hahead'
    rw [hbehind, List.append_cancel_right hahead']
  have hne : read ≠ [] := by
    rintro rfl
    have hlt := position_lt_of_consumes (consumes_of_closesWith hp) hlast
    simp [Cursor.position, hbehind] at hlt
  obtain ⟨y, read, rfl⟩ := List.exists_cons_of_ne_nil hne
  refine occursIn_iff.mpr ⟨m.span.first.behind.reverse, y, read ++ after,
    ⟨m.span.last.behind, after⟩, by simp [hbehind], ?_⟩
  rw [List.reverse_reverse]
  exact hmem

/-- The matches that are found lie in the text that is searched. -/
theorem text_of_mem_findAllFrom {p : Pattern} {skip : Nat} {behind ahead : List Char} {m : Match}
    (h : m ∈ p.findAllFrom skip behind ahead) :
    m.span.first.text = behind.reverse ++ ahead := by
  induction ahead generalizing skip behind with
  | nil => cases skip <;> simp [findAllFrom] at h
  | cons x ahead ih =>
    have hsplit : behind.reverse ++ x :: ahead = (x :: behind).reverse ++ ahead := by simp
    cases skip with
    | succ skip => rw [hsplit, ih h]
    | zero =>
      rw [findAllFrom] at h
      cases hm : p.matchAt ⟨behind, x :: ahead⟩ with
      | none =>
        rw [hm] at h
        rw [hsplit, ih h]
      | some n =>
        rw [hm] at h
        rcases List.mem_cons.mp h with rfl | h
        · rw [(span_of_matchAt hm).1, Cursor.text]
        · rw [hsplit, ih h]

/-! ### Single characters -/

/-- A character is found where it stands in the text. -/
theorem map_start_findAllFrom_token (c : Char) (behind text : List Char) :
    ((token c).findAllFrom 0 behind text).map Match.start = text.idxsOf c behind.length := by
  induction text generalizing behind with
  | nil => rfl
  | cons x text ih =>
    rw [List.idxsOf_cons]
    by_cases hx : x = c
    · subst hx
      have hmatch : (token x).matchAt ⟨behind, x :: text⟩ =
          some ⟨⟨⟨behind, x :: text⟩, ⟨x :: behind, text⟩⟩, []⟩ := by
        simp [token, matchAt, Pattern.read, CharClass.has]
      rw [findAllFrom_of_matchAt rfl hmatch, List.map_cons, ih, if_pos (beq_self_eq_true x)]
      rfl
    · have hmatch : (token c).matchAt ⟨behind, x :: text⟩ = none := by
        simp [token, matchAt, Pattern.read, CharClass.has, hx]
      rw [findAllFrom, hmatch, if_neg (by simpa using hx)]
      exact ih (x :: behind)

theorem map_start_findAll_token (c : Char) (text : List Char) :
    ((token c).findAll text).map Match.start = text.idxsOf c :=
  map_start_findAllFrom_token c [] text

/-- A character is found as often as it stands in the text. -/
theorem count_token (c : Char) (text : List Char) : (token c).count text = text.count c := by
  rw [count, ← List.length_map Match.start, map_start_findAll_token, List.length_idxsOf]

end Pattern

end FlexGate
