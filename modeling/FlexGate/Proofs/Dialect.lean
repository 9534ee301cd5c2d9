import FlexGate.Dialect
import FlexGate.Proofs.Pattern.Surroundings

/-!
# The dialect of joined texts

The dialect of a text tells which of the two vocabularies have a construct in it, and nothing else
(`classify_uses_iff`). No construct asks for the start or the end of the text, and a line feed is no
word character. So a construct of one of two texts is found again when the two are joined by a line
feed, be it that a header left open in the first reads on into the second, and the dialect of the
joined text has the vocabularies of both (`classify_join`).
-/

set_option autoImplicit false
set_option relaxedAutoImplicit false

namespace FlexGate

open Pattern

namespace Vocabulary

/-- A vocabulary counts if one of its constructs occurs. -/
theorem count_pos_iff_exists {v : Vocabulary} {text : List Char} :
    0 < v.count text ↔ ∃ construct, (v.pattern construct).occursIn text = true := by
  have hfold (l : List (Construct × Nat)) (n : Nat) :
      0 < l.foldl (fun n entry ↦ n + entry.2) n ↔ 0 < n ∨ ∃ entry ∈ l, 0 < entry.2 := by
    induction l generalizing n with
    | nil => simp
    | cons entry l ih =>
      rw [List.foldl_cons, ih, Nat.add_pos_iff_pos_or_pos, List.exists_mem_cons_iff, or_assoc]
  rw [count, hfold, constructCounts]
  constructor
  · rintro (h | ⟨entry, hentry, hpos⟩)
    · exact absurd h (Nat.lt_irrefl 0)
    · obtain ⟨construct, -, rfl⟩ := List.mem_map.mp hentry
      exact ⟨construct, (count_pos_iff _ text).mp hpos⟩
  · rintro ⟨construct, h⟩
    exact .inr ⟨_, List.mem_map.mpr ⟨construct, construct.mem_all, rfl⟩,
      (count_pos_iff _ text).mpr h⟩

theorem occursIn_join (v : Vocabulary) (construct : Construct) {first second : List Char}
    (h : (v.pattern construct).occursIn first = true ∨
      (v.pattern construct).occursIn second = true) :
    (v.pattern construct).occursIn (first ++ '\n' :: second) = true := by
  have hfloats : (v.pattern construct).floats = true := by
    cases v <;> cases construct <;> decide
  exact Pattern.occursIn_join hfloats h

end Vocabulary

namespace Dialect

/-- Whether a text of a dialect has constructs of a vocabulary. -/
def uses : Dialect → Vocabulary → Bool
  | .franco, v => v == .franco
  | .english, v => v == .english
  | .mixed, _ => true
  | .undetermined, _ => false

theorem ofCounts_uses_iff {franco english : Nat} (v : Vocabulary) :
    (ofCounts franco english).uses v = true ↔
      (v = .franco ∧ 0 < franco) ∨ (v = .english ∧ 0 < english) := by
  unfold ofCounts
  split_ifs <;> cases v <;> simp [uses] <;> omega

theorem classify_uses_iff {text : List Char} {v : Vocabulary} :
    (classify text).uses v = true ↔
      ∃ construct, (v.pattern construct).occursIn text = true := by
  rw [← Vocabulary.count_pos_iff_exists, classify, ofCounts_uses_iff]
  cases v <;> simp

theorem eq_undetermined_iff {dialect : Dialect} :
    dialect = .undetermined ↔ ∀ v, dialect.uses v = false := by
  constructor
  · rintro rfl v
    rfl
  · intro h
    cases dialect with
    | franco => exact absurd (h .franco) (by decide)
    | english => exact absurd (h .english) (by decide)
    | mixed => exact absurd (h .franco) (by decide)
    | undetermined => rfl

theorem eq_mixed_iff {dialect : Dialect} :
    dialect = .mixed ↔ dialect.uses .franco = true ∧ dialect.uses .english = true := by
  cases dialect <;> decide

theorem uses_classify_join {first second : List Char} {v : Vocabulary}
    (h : (classify first).uses v = true ∨ (classify second).uses v = true) :
    (classify (first ++ '\n' :: second)).uses v = true := by
  rw [classify_uses_iff, classify_uses_iff, ← exists_or] at h
  obtain ⟨construct, hoccurs⟩ := h
  exact classify_uses_iff.mpr ⟨construct, Vocabulary.occursIn_join v construct hoccurs⟩

theorem classify_eq_undetermined_iff {text : List Char} :
    classify text = .undetermined ↔
      ∀ (v : Vocabulary) (construct : Construct), (v.pattern construct).occursIn text = false := by
  rw [eq_undetermined_iff]
  refine forall_congr' fun v ↦ ?_
  rw [← Bool.not_eq_true, classify_uses_iff, not_exists]
  simp only [Bool.not_eq_true]

theorem classify_join_eq_mixed {first second : List Char}
    (h : classify first = .mixed ∨ classify second = .mixed ∨
      (classify first = .franco ∧ classify second = .english) ∨
      (classify first = .english ∧ classify second = .franco)) :
    classify (first ++ '\n' :: second) = .mixed := by
  have huses : ∀ v, (classify first).uses v = true ∨ (classify second).uses v = true := by
    intro v
    rcases h with h | h | ⟨h, h'⟩ | ⟨h, h'⟩
    · exact .inl (by rw [h, uses])
    · exact .inr (by rw [h, uses])
    · rw [h, h']
      cases v <;> decide
    · rw [h, h']
      cases v <;> decide
  exact eq_mixed_iff.mpr ⟨uses_classify_join (huses .franco), uses_classify_join (huses .english)⟩

theorem undetermined_of_classify_join {first second : List Char}
    (h : classify (first ++ '\n' :: second) = .undetermined) :
    classify first = .undetermined ∧ classify second = .undetermined := by
  have hnone : ∀ v, ¬ ((classify first).uses v = true ∨ (classify second).uses v = true) := by
    intro v huses
    have hjoined := uses_classify_join huses
    rw [h] at hjoined
    exact absurd hjoined Bool.false_ne_true
  constructor
  · exact eq_undetermined_iff.mpr fun v ↦ Bool.eq_false_iff.mpr fun huses ↦ hnone v (.inl huses)
  · exact eq_undetermined_iff.mpr fun v ↦ Bool.eq_false_iff.mpr fun huses ↦ hnone v (.inr huses)

/-- When two texts are joined by a line feed, each construct of a vocabulary that occurs in one of
them occurs in the joined text. So that is mixed if one of the two is or if they are of the two
languages, and it is undetermined only if both are, which means that no construct of either
vocabulary occurs in them. -/
theorem classify_join (first second : List Char) :
    (∀ (v : Vocabulary) (construct : Construct),
      (v.pattern construct).occursIn first = true ∨
          (v.pattern construct).occursIn second = true →
        (v.pattern construct).occursIn (first ++ '\n' :: second) = true) ∧
    (classify first = .mixed ∨ classify second = .mixed ∨
        (classify first = .franco ∧ classify second = .english) ∨
        (classify first = .english ∧ classify second = .franco) →
      classify (first ++ '\n' :: second) = .mixed) ∧
    (classify (first ++ '\n' :: second) = .undetermined →
      classify first = .undetermined ∧ classify second = .undetermined) ∧
    ∀ text, classify text = .undetermined ↔
      ∀ (v : Vocabulary) (construct : Construct), (v.pattern construct).occursIn text = false :=
  ⟨fun v construct ↦ Vocabulary.occursIn_join v construct, classify_join_eq_mixed,
    undetermined_of_classify_join, fun _ ↦ classify_eq_undetermined_iff⟩

end Dialect

end FlexGate
