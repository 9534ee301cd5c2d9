import FlexGate.Proofs.Analysis.Levels

/-!
# Nesting of braces

The braces of a text are well nested when every part from its start has opened at least as many as
it has closed, and all are closed at the end. The check of the braces looks at the level behind
whole lines only. So nothing is found exactly when the level is nowhere negative behind a line and
zero at the end (`braces_eq_nil_iff`), which every well nested program satisfies. The level within a
line is not looked at: a line may close a brace that is not open and open another one behind it. A
program is well nested when nothing is found and no line of it dips below zero in this way
(`wellNested_iff`), and these lines alone make the check accept braces that are not nested
(`acceptance_nests_iff`).
-/

set_option autoImplicit false
set_option relaxedAutoImplicit false

namespace FlexGate

namespace Text

/-- Every part from the start of a text has opened as many braces as it has closed, or more, and the
whole text has opened as many as it has closed. -/
def WellNested (text : List Char) : Prop :=
  (∀ part, part <+: text → part.count '}' ≤ part.count '{') ∧ text.count '}' = text.count '{'

end Text

namespace Analysis

/-- From a level on, a text never opens fewer braces than it closes. -/
def Floats (reached : Int) (text : List Char) : Prop :=
  ∀ part, part <+: text → 0 ≤ reached + braceBalance part

/-! ### Levels behind lines -/

/-- The first line behind which the level is negative is one that sinks. -/
theorem exists_sinks_of_level_neg {lines : List (List Char)} {k : Nat} (h : level lines k < 0) :
    ∃ j, 1 ≤ j ∧ j ≤ k ∧ Sinks lines j := by
  induction k using Nat.strong_induction_on with
  | _ k ih =>
    by_cases hearlier : ∃ j < k, level lines j < 0
    · obtain ⟨j, hj, hneg⟩ := hearlier
      obtain ⟨i, hpos, hi, hsinks⟩ := ih j hj hneg
      exact ⟨i, hpos, hi.trans (Nat.le_of_lt hj), hsinks⟩
    · refine ⟨k, ?_, Nat.le_refl k, ?_⟩
      · by_contra hzero
        rw [Nat.lt_one_iff.mp (Nat.lt_of_not_le hzero), level_zero] at h
        exact absurd h (lt_irrefl 0)
      · intro j hj
        by_contra hle
        exact hearlier ⟨j, hj, lt_of_le_of_lt (le_of_not_gt hle) h⟩

/-- Nothing is found on the braces when the level is not negative behind any line and zero behind
the last. -/
theorem braces_eq_nil_iff {lines : List (List Char)} :
    braces lines = [] ↔ (∀ k ≤ lines.length, 0 ≤ level lines k) ∧ level lines lines.length = 0 := by
  rw [List.eq_nil_iff_forall_not_mem]
  constructor
  · intro hnone
    have hlevel : ∀ k ≤ lines.length, 0 ≤ level lines k := by
      intro k hk
      by_contra hneg
      obtain ⟨j, hpos, hj, hsinks⟩ := exists_sinks_of_level_neg (lt_of_not_ge hneg)
      exact hnone _ (mem_braces_iff.mpr (.inl ⟨j, hpos, hj.trans hk, hsinks, rfl⟩))
    refine ⟨hlevel, le_antisymm ?_ (hlevel _ (Nat.le_refl _))⟩
    by_contra hopen
    refine hnone _ (mem_braces_iff.mpr (.inr ⟨⟨0, Nat.zero_le _, ?_⟩, rfl⟩))
    rw [level_zero]
    exact lt_of_not_ge hopen
  · rintro ⟨hlevel, hend⟩ f hf
    rcases mem_braces_iff.mp hf with ⟨k, hpos, hk, hsinks, -⟩ | ⟨⟨j, hj, hlt⟩, -⟩
    · have hlt := hsinks 0 hpos
      rw [level_zero] at hlt
      exact absurd hlt (not_lt_of_ge (hlevel k hk))
    · rw [hend] at hlt
      exact absurd hlt (not_lt_of_ge (hlevel j hj))

/-! ### Levels within lines -/

theorem Floats.nonneg {reached : Int} {text : List Char} (h : Floats reached text) :
    0 ≤ reached := by
  have hnil := h [] List.nil_prefix
  rwa [braceBalance_nil, Int.add_zero] at hnil

theorem floats_nil_iff {reached : Int} : Floats reached [] ↔ 0 ≤ reached := by
  constructor
  · exact Floats.nonneg
  · intro h part hpart
    rw [List.prefix_nil.mp hpart, braceBalance_nil, Int.add_zero]
    exact h

theorem floats_cons_iff {reached : Int} {c : Char} {text : List Char} :
    Floats reached (c :: text) ↔ 0 ≤ reached ∧ Floats (reached + braceBalance [c]) text := by
  have hcons (part : List Char) : reached + braceBalance (c :: part) =
      reached + braceBalance [c] + braceBalance part := by
    rw [← List.singleton_append, braceBalance_append, Int.add_assoc]
  constructor
  · intro h
    refine ⟨h.nonneg, fun part hpart ↦ ?_⟩
    rw [← hcons]
    exact h _ (List.cons_prefix_cons.mpr ⟨rfl, hpart⟩)
  · rintro ⟨hreached, htext⟩ part hpart
    rcases List.prefix_cons_iff.mp hpart with rfl | ⟨rest, rfl, hrest⟩
    · rw [braceBalance_nil, Int.add_zero]
      exact hreached
    · rw [hcons]
      exact htext rest hrest

theorem forall_getElem?_cons {p : Nat → List Char → Prop} {first : List Char}
    {lines : List (List Char)} :
    (∀ k line, (first :: lines)[k]? = some line → p k line) ↔
      p 0 first ∧ ∀ k line, lines[k]? = some line → p (k + 1) line := by
  constructor
  · intro h
    exact ⟨h 0 first rfl, fun k line hk ↦ h (k + 1) line hk⟩
  · rintro ⟨hfirst, hlines⟩ k line hk
    cases k with
    | zero =>
      obtain rfl : first = line := Option.some.inj hk
      exact hfirst
    | succ k => exact hlines k line hk

/-- A text does not fall below zero when each of its lines does not, from the level it is reached
at. -/
theorem floats_iff_lines (reached : Int) (text : List Char) :
    Floats reached text ↔ ∀ k line, (Text.splitLines text)[k]? = some line →
      Floats (reached + level (Text.splitLines text) k) line := by
  induction text generalizing reached with
  | nil =>
    rw [Text.splitLines, forall_getElem?_cons, level_zero, Int.add_zero]
    simp
  | cons c text ih =>
    rw [floats_cons_iff, ih]
    by_cases hc : c = '\n'
    · have hbalance : braceBalance [c] = 0 := by
        rw [hc]
        decide
      rw [Text.splitLines, if_pos hc, forall_getElem?_cons, level_zero, Int.add_zero,
        floats_nil_iff, hbalance, Int.add_zero]
      simp only [level_cons_succ, braceBalance_nil, Int.zero_add]
    · obtain ⟨line, others, hlines⟩ := List.exists_cons_of_ne_nil (Text.splitLines_ne_nil text)
      have hcons : braceBalance (c :: line) = braceBalance [c] + braceBalance line :=
        braceBalance_append [c] line
      rw [Text.splitLines_cons_of_ne hc hlines, hlines, forall_getElem?_cons, forall_getElem?_cons,
        level_zero, level_zero, Int.add_zero, Int.add_zero, floats_cons_iff, and_assoc]
      simp only [level_cons_succ, hcons, Int.add_assoc]

/-- The level behind the last line is the balance of the text. -/
theorem level_splitLines (text : List Char) :
    level (Text.splitLines text) (Text.splitLines text).length = braceBalance text := by
  unfold level
  rw [List.take_length]
  induction text with
  | nil => rfl
  | cons c text ih =>
    have hcons : braceBalance (c :: text) = braceBalance [c] + braceBalance text :=
      braceBalance_append [c] text
    by_cases hc : c = '\n'
    · have hbalance : braceBalance [c] = 0 := by
        rw [hc]
        decide
      rw [Text.splitLines, if_pos hc, List.flatten_cons, List.nil_append, ih, hcons, hbalance,
        Int.zero_add]
    · obtain ⟨line, others, hlines⟩ := List.exists_cons_of_ne_nil (Text.splitLines_ne_nil text)
      rw [hlines, List.flatten_cons] at ih
      rw [Text.splitLines_cons_of_ne hc hlines, List.flatten_cons, List.cons_append, hcons, ← ih]
      exact braceBalance_append [c] _

/-- A line that opens no brace behind one that it closes does not fall below zero, if the levels at
both its ends are not below zero. -/
theorem floats_of_not_mem {reached : Int} {line : List Char} (hreached : 0 ≤ reached)
    (hend : 0 ≤ reached + braceBalance line)
    (hline : ∀ before after, line = before ++ '}' :: after → '{' ∉ after) :
    Floats reached line := by
  rintro part ⟨rest, rfl⟩
  by_cases hclose : '}' ∈ part
  · obtain ⟨before, after, rfl⟩ := List.append_of_mem hclose
    have hrest : '{' ∉ after ++ rest := hline before (after ++ rest) (by simp)
    have hnone : rest.count '{' = 0 :=
      List.count_eq_zero.mpr fun hmem ↦ hrest (List.mem_append_right after hmem)
    rw [braceBalance_append, braceBalance.eq_1 rest, hnone] at hend
    omega
  · have hnone : part.count '}' = 0 := List.count_eq_zero.mpr hclose
    unfold braceBalance
    omega

end Analysis

open Analysis

/-! ### Programs -/

theorem Text.wellNested_iff_floats {text : List Char} :
    Text.WellNested text ↔ Floats 0 text ∧ braceBalance text = 0 := by
  unfold Text.WellNested Floats braceBalance
  refine and_congr (forall₂_congr fun part _ ↦ ?_) ?_ <;> omega

theorem Report.unbalancedBlock_eq_nil_iff (options : AnalysisOptions) (s : String) :
    (Report.ofSource options s).findingsOf .unbalancedBlock = [] ↔
      (∀ k ≤ (Text.splitLines s.toList).length, 0 ≤ level (Text.splitLines s.toList) k) ∧
        level (Text.splitLines s.toList) (Text.splitLines s.toList).length = 0 := by
  rw [Report.ofSource, findingsOf_unbalancedBlock, braces_eq_nil_iff]
  simp only [level_lines, length_lines]

/-- A program is well nested when nothing is found on its braces and no line of it falls below zero
from the level it is reached at. -/
theorem Text.wellNested_iff (options : AnalysisOptions) (s : String) :
    Text.WellNested s.toList ↔ (Report.ofSource options s).findingsOf .unbalancedBlock = [] ∧
      ∀ k line, (Text.splitLines s.toList)[k]? = some line →
        Floats (level (Text.splitLines s.toList) k) line := by
  have hlines := floats_iff_lines 0 s.toList
  simp only [Int.zero_add] at hlines
  rw [Text.wellNested_iff_floats, hlines, Report.unbalancedBlock_eq_nil_iff, level_splitLines]
  constructor
  · rintro ⟨hfloats, hbalance⟩
    refine ⟨⟨fun k hk ↦ ?_, hbalance⟩, hfloats⟩
    rcases Nat.lt_or_eq_of_le hk with hk | rfl
    · exact (hfloats k _ (List.getElem?_eq_getElem hk)).nonneg
    · rw [level_splitLines, hbalance]
  · rintro ⟨⟨-, hbalance⟩, hfloats⟩
    exact ⟨hfloats, hbalance⟩

/-- A program in which nothing is found on the braces has them well nested. -/
def AcceptanceNests (options : AnalysisOptions) (s : String) : Prop :=
  (Report.ofSource options s).findingsOf .unbalancedBlock = [] → Text.WellNested s.toList

/-- When nothing is found on the braces of a program, when they are well nested, and when the first
gives the second: if something is found or no line falls below zero in between, and so whenever no
line opens a brace behind one that it closes. -/
theorem acceptance_nests_iff (options : AnalysisOptions) (s : String) :
    ((Report.ofSource options s).findingsOf .unbalancedBlock = [] ↔
      (∀ k ≤ (Text.splitLines s.toList).length, 0 ≤ level (Text.splitLines s.toList) k) ∧
        level (Text.splitLines s.toList) (Text.splitLines s.toList).length = 0) ∧
    (Text.WellNested s.toList → (Report.ofSource options s).findingsOf .unbalancedBlock = []) ∧
    (AcceptanceNests options s ↔
      (Report.ofSource options s).findingsOf .unbalancedBlock ≠ [] ∨
        ∀ k line, (Text.splitLines s.toList)[k]? = some line →
          Floats (level (Text.splitLines s.toList) k) line) ∧
    ((∀ line ∈ Text.splitLines s.toList, ∀ before after, line = before ++ '}' :: after →
      '{' ∉ after) → AcceptanceNests options s) := by
  refine ⟨Report.unbalancedBlock_eq_nil_iff options s, fun h ↦ ?_, ?_, ?_⟩
  · exact ((Text.wellNested_iff options s).mp h).1
  · unfold AcceptanceNests
    rw [Text.wellNested_iff options s]
    constructor
    · intro h
      by_cases hnone : (Report.ofSource options s).findingsOf .unbalancedBlock = []
      · exact .inr (h hnone).2
      · exact .inl hnone
    · rintro (hsome | hfloats) hnone
      · exact absurd hnone hsome
      · exact ⟨hnone, hfloats⟩
  · intro hlines hnone
    obtain ⟨hlevel, -⟩ := (Report.unbalancedBlock_eq_nil_iff options s).mp hnone
    refine (Text.wellNested_iff options s).mpr ⟨hnone, fun k line hk ↦ ?_⟩
    obtain ⟨hlt, -⟩ := List.getElem?_eq_some_iff.mp hk
    refine floats_of_not_mem (hlevel k (Nat.le_of_lt hlt)) ?_
      (hlines line (List.mem_of_getElem? hk))
    rw [← level_succ hk]
    exact hlevel (k + 1) hlt

/-- The branch of a condition that no line above it opens. -/
def lonelyElse : String := (String.singleton '}' ++ " gher ").push '{'

/-- Its first brace closes nothing and its last one is not closed, and nothing is found. -/
theorem lonelyElse_not_nested :
    (Report.ofSource {} lonelyElse).findingsOf .unbalancedBlock = [] ∧
    ¬ Text.WellNested lonelyElse.toList ∧ ¬ AcceptanceNests {} lonelyElse := by
  have hlines : Text.splitLines lonelyElse.toList = [lonelyElse.toList] := by decide
  have hnone : (Report.ofSource {} lonelyElse).findingsOf .unbalancedBlock = [] := by
    rw [Report.unbalancedBlock_eq_nil_iff, hlines]
    decide
  have hnot : ¬ Text.WellNested lonelyElse.toList := by
    intro h
    have hcount := h.1 ['}'] (by decide)
    revert hcount
    decide
  exact ⟨hnone, hnot, fun h ↦ hnot (h hnone)⟩

end FlexGate
