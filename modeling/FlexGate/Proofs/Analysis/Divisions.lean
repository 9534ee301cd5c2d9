import FlexGate.Analysis
import FlexGate.Proofs.Pattern.Scan
import Mathlib.Data.List.SplitBy

/-!
# When a guard for divisions is suggested

Two patterns decide it, and each looks at the characters beside what it finds. The first finds a
slash that stands alone, with no slash beside it, wherever that is in the text
(`Pattern.occursIn_divisionOperator_iff`). It reads those characters, but a search stops at the
first match, so none that is read for one slash is missing for another. Told by the runs of equal
characters that the text falls into, a slash stands alone if it is a run
(`Text.hasAlone_iff_mem_runs`), and two or more in a row, as in the marker of a comment, never do.
The second finds one of the conditional keywords as a whole word (`Shape.occursIn_wholeWord`).

A guard is suggested if the first pattern occurs and the second does not (`division_advice_exact`).
-/

set_option autoImplicit false
set_option relaxedAutoImplicit false

namespace FlexGate

namespace Text

/-- The runs of equal characters that a text falls into. -/
def runs (text : List Char) : List (List Char) := text.splitBy (· == ·)

/-- A character stands in a text with no other one of its kind beside it. -/
def HasAlone (c : Char) (text : List Char) : Prop :=
  ∃ lead rest, text = lead ++ c :: rest ∧ lead.getLast? ≠ some c ∧ rest.head? ≠ some c

/-- A word stands in a text with no word character beside it. -/
def HasWord (word text : List Char) : Prop :=
  ∃ lead rest, text = lead ++ word ++ rest ∧ (∀ c ∈ lead.getLast?, isWord c = false) ∧
    ∀ c ∈ rest.head?, isWord c = false

/-- A character stands alone where it is a run. -/
theorem hasAlone_iff_mem_runs {c : Char} {text : List Char} :
    HasAlone c text ↔ [c] ∈ runs text := by
  constructor
  · rintro ⟨lead, rest, rfl, hlead, hrest⟩
    have hbefore : ∀ x ∈ lead.getLast?, (x == c) = false := by
      intro x hx
      rw [beq_eq_false_iff_ne]
      rintro rfl
      exact hlead hx
    have hbehind : ∀ x ∈ [c].getLast?, ∀ y ∈ rest.head?, (x == y) = false := by
      intro x hx y hy
      rw [beq_eq_false_iff_ne, ← Option.some.inj hx]
      rintro rfl
      exact hrest hy
    have hruns : runs (lead ++ c :: rest) = runs lead ++ ([c] :: runs rest) := by
      rw [runs, List.splitBy_append_cons rest hbefore, ← List.singleton_append,
        List.splitBy_append hbehind]
      rfl
    rw [hruns]
    exact List.mem_append_right _ List.mem_cons_self
  · intro h
    obtain ⟨first, second, hruns⟩ := List.append_of_mem h
    have htext : text = first.flatten ++ c :: second.flatten := by
      rw [← List.flatten_splitBy (· == ·) text, ← runs, hruns]
      simp
    -- Of two runs that follow each other, the one ends and the other starts with another character.
    have hchain := List.isChain_getLast_head_splitBy (· == ·) text
    rw [← runs, hruns, List.isChain_append, List.isChain_cons] at hchain
    obtain ⟨-, ⟨hbehind, -⟩, hbefore⟩ := hchain
    refine ⟨first.flatten, second.flatten, htext, ?_, ?_⟩
    · rcases List.eq_nil_or_concat' first with rfl | ⟨front, run, rfl⟩
      · simp
      · obtain ⟨hrun, _, hlast⟩ := hbefore run List.getLast?_concat [c] rfl
        rw [List.flatten_concat, List.getLast?_append_of_ne_nil _ hrun,
          List.getLast?_eq_some_getLast hrun]
        simpa using hlast
    · cases second with
      | nil => simp
      | cons run second =>
        obtain ⟨_, hrun, hfirst⟩ := hbehind run rfl
        rw [List.getLast_singleton, beq_eq_false_iff_ne] at hfirst
        rw [List.flatten_cons, List.head?_append_of_ne_nil _ hrun, List.head?_eq_some_head hrun]
        exact fun h ↦ hfirst (Option.some.inj h).symm

end Text

/-! ### Whole words -/

theorem Cursor.leadsWithWord_eq_false_iff {text : List Char} :
    leadsWithWord text = false ↔ ∀ c ∈ text.head?, Text.isWord c = false := by
  cases text with
  | nil => simp [leadsWithWord]
  | cons x text => simp [leadsWithWord]

namespace Shape

open Pattern
open Cursor (leadsWithWord leadsWithWord_eq_false_iff)

section WholeWord

variable {words : List String} (hne : words ≠ [])
  (hwords : ∀ word ∈ words, word.toList ≠ [] ∧ ∀ c ∈ word.toList, Text.isWord c = true)

include hne hwords

/-- A word is read where no word character is beside it. -/
theorem mem_ends_wholeWord {c d : Cursor} :
    d ∈ (wholeWord words).ends c ↔ leadsWithWord c.behind = false ∧
      ∃ word ∈ words, ∃ rest, c.ahead = word.toList ++ rest ∧ leadsWithWord rest = false ∧
        d = ⟨word.toList.reverse ++ c.behind, rest⟩ := by
  -- A word starts and ends with a word character, so the edges are told from the other side.
  have hleads {word : String} (hword : word ∈ words) (more : List Char) :
      leadsWithWord (word.toList ++ more) = true ∧
        leadsWithWord (word.toList.reverse ++ more) = true := by
    obtain ⟨hnil, hall⟩ := hwords word hword
    have hpart {part : List Char} (hpart : part ≠ []) (hsub : part ⊆ word.toList) :
        leadsWithWord (part ++ more) = true := by
      obtain ⟨x, others, rfl⟩ := List.exists_cons_of_ne_nil hpart
      exact hall x (hsub List.mem_cons_self)
    exact ⟨hpart hnil (List.Subset.refl _), hpart (by simpa using hnil)
      fun x hx ↦ List.mem_reverse.mp hx⟩
  simp only [wholeWord, Pattern.sequence, ends_group, mem_ends_seq, mem_ends_edge,
    mem_ends_oneOf_text hne, Edge.holds]
  constructor
  · rintro ⟨_, ⟨hbefore, rfl⟩, _, ⟨word, hword, rest, hahead, rfl⟩, hbehind, rfl⟩
    rw [hahead, (hleads hword rest).1] at hbefore
    rw [(hleads hword _).2] at hbehind
    exact ⟨by simpa using hbefore, word, hword, rest, hahead, by simpa using hbehind, rfl⟩
  · rintro ⟨hbefore, word, hword, rest, hahead, hbehind, rfl⟩
    refine ⟨c, ⟨?_, rfl⟩, _, ⟨word, hword, rest, hahead, rfl⟩, ?_, rfl⟩
    · rw [hbefore, hahead, (hleads hword rest).1]
      rfl
    · rw [hbehind, (hleads hword _).2]
      rfl

theorem occursIn_wholeWord {text : List Char} :
    (wholeWord words).occursIn text = true ↔ ∃ word ∈ words, Text.HasWord word.toList text := by
  rw [occursIn_iff]
  constructor
  · rintro ⟨lead, x, ahead, d, rfl, hd⟩
    obtain ⟨hbefore, word, hword, rest, hahead, hbehind, -⟩ :=
      (mem_ends_wholeWord hne hwords).mp hd
    refine ⟨word, hword, lead, rest, ?_, ?_, leadsWithWord_eq_false_iff.mp hbehind⟩
    · rw [List.append_assoc, ← hahead]
    · rw [← List.head?_reverse]
      exact leadsWithWord_eq_false_iff.mp hbefore
  · rintro ⟨word, hword, lead, rest, rfl, hbefore, hbehind⟩
    rw [← List.head?_reverse] at hbefore
    obtain ⟨x, others, hword'⟩ := List.exists_cons_of_ne_nil (hwords word hword).1
    have hends : (⟨word.toList.reverse ++ lead.reverse, rest⟩ : Cursor) ∈
        (wholeWord words).ends ⟨lead.reverse, word.toList ++ rest⟩ :=
      (mem_ends_wholeWord hne hwords).mpr ⟨leadsWithWord_eq_false_iff.mpr hbefore, word, hword,
        rest, rfl, leadsWithWord_eq_false_iff.mpr hbehind, rfl⟩
    rw [hword', List.cons_append] at hends
    exact ⟨lead, x, others ++ rest, _, by rw [hword', List.append_assoc, List.cons_append], hends⟩

end WholeWord

theorem occursIn_conditionalGuard_iff {text : List Char} :
    conditionalGuard.occursIn text = true ↔
      Text.HasWord "lw".toList text ∨ Text.HasWord "if".toList text := by
  have hwords : ∀ word ∈ ["lw", "if"],
      word.toList ≠ [] ∧ ∀ c ∈ word.toList, Text.isWord c = true := by
    intro word hword
    rcases List.mem_pair.mp hword with rfl | rfl
    · exact ⟨by decide, List.all_eq_true.mp (by decide)⟩
    · exact ⟨by decide, List.all_eq_true.mp (by decide)⟩
  rw [conditionalGuard, occursIn_wholeWord (List.cons_ne_nil _ _) hwords]
  simp only [List.mem_cons, List.not_mem_nil, or_false, exists_eq_or_imp, exists_eq_left]

end Shape

/-! ### The suggestion -/

theorem Advice.message_injective : Function.Injective Advice.message := by
  intro a b h
  cases a <;> cases b <;> first | rfl | simp [message] at h

namespace Analysis

theorem dividesUnguarded_iff {text : List Char} :
    dividesUnguarded text = true ↔ Text.HasAlone '/' text ∧
      ¬ Text.HasWord "lw".toList text ∧ ¬ Text.HasWord "if".toList text := by
  have hslash : Shape.divisionOperator.occursIn text = true ↔ Text.HasAlone '/' text :=
    Pattern.occursIn_divisionOperator_iff
  rw [dividesUnguarded, Bool.and_eq_true, hslash, Bool.not_eq_true', ← Bool.not_eq_true,
    Shape.occursIn_conditionalGuard_iff, not_or]

theorem mem_suggestions_guardDivision {dialect : Dialect} {text : List Char} :
    Advice.guardDivision ∈ suggestions dialect text ↔ dividesUnguarded text = true := by
  simp [suggestions]

end Analysis

/-- A guard for divisions is suggested exactly if a slash stands alone in the program and neither of
the conditional keywords is a word of it. A slash stands alone if it is a run of its own, so where
slashes are in runs of two or more only, nothing is suggested. -/
theorem division_advice_exact (options : AnalysisOptions) (s : String) :
    (Advice.guardDivision.message ∈ (Report.ofSource options s).suggestions.map Advice.message ↔
      Text.HasAlone '/' s.toList ∧ ¬ Text.HasWord "lw".toList s.toList ∧
        ¬ Text.HasWord "if".toList s.toList) ∧
    (Text.HasAlone '/' s.toList ↔ ['/'] ∈ Text.runs s.toList) ∧
    ((∀ run ∈ Text.runs s.toList, '/' ∈ run → 2 ≤ run.length) →
      Advice.guardDivision.message ∉
        (Report.ofSource options s).suggestions.map Advice.message) := by
  have hadvised : Advice.guardDivision.message ∈
      (Report.ofSource options s).suggestions.map Advice.message ↔
        Text.HasAlone '/' s.toList ∧ ¬ Text.HasWord "lw".toList s.toList ∧
          ¬ Text.HasWord "if".toList s.toList := by
    rw [List.mem_map_of_injective Advice.message_injective, ← Analysis.dividesUnguarded_iff]
    exact Analysis.mem_suggestions_guardDivision
  refine ⟨hadvised, Text.hasAlone_iff_mem_runs, fun hruns hmem ↦ ?_⟩
  have hrun := Text.hasAlone_iff_mem_runs.mp (hadvised.mp hmem).1
  exact absurd (hruns ['/'] hrun List.mem_cons_self) (by decide)

/-- Slashes at both ends of a text and on both sides of a line feed, none of them alone. -/
theorem division_advice_exact_comments :
    (∀ run ∈ Text.runs "// a\n/// b //".toList, '/' ∈ run → 2 ≤ run.length) ∧
      Advice.guardDivision.message ∉
        (Report.ofSource {} "// a\n/// b //").suggestions.map Advice.message :=
  ⟨by decide, (division_advice_exact {} "// a\n/// b //").2.2 (by decide)⟩

end FlexGate
