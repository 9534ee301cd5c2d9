import FlexGate.Proofs.Pattern.Scan

/-!
# Readings between blanks

Text around a reading can only be seen by a condition on a position: a word edge looks at one
character to each side, and the edges of the text are where nothing is around. So a pattern without
edges of the text keeps each of its readings when text is put around it that does not touch with a
word character (`mem_ends_within`). It may get new readings, which go on into the text around, and
what is found first may be another one, but a pattern that occurs in one of two texts occurs in the
two joined by a line feed (`occursIn_join`).
-/

set_option autoImplicit false
set_option relaxedAutoImplicit false

namespace FlexGate

namespace Cursor

theorem leadsWithWord_append_of_not {more : List Char} (h : leadsWithWord more = false)
    (text : List Char) : leadsWithWord (text ++ more) = leadsWithWord text := by
  by_cases hne : text = []
  · rw [hne, List.nil_append, h]
    rfl
  · exact leadsWithWord_append hne more

end Cursor

open Cursor (leadsWithWord)

namespace Pattern

/-- Whether no part of a pattern asks for the start or the end of the text. -/
def floats : Pattern → Bool
  | .nothing => true
  | .char _ => true
  | .many _ => true
  | .edge e => e == .word
  | .seq p q => p.floats && q.floats
  | .either p q => p.floats && q.floats
  | .group _ p => p.floats

theorem mem_ends_within {p : Pattern} (hp : p.floats = true) {before after : List Char}
    (hbefore : leadsWithWord before = false) (hafter : leadsWithWord after = false)
    {c d : Cursor} (h : d ∈ p.ends c) :
    d.within before after ∈ p.ends (c.within before after) := by
  induction p generalizing c d with
  | nothing =>
    rw [ends_nothing, List.mem_singleton] at h ⊢
    rw [h]
  | char s =>
    obtain ⟨x, rest, hahead, hx, rfl⟩ := mem_ends_char.mp h
    exact mem_ends_char.mpr ⟨x, rest ++ after, congrArg (· ++ after) hahead, hx, rfl⟩
  | many s =>
    obtain ⟨run, rest, hahead, hrun, rfl⟩ := mem_ends_many.mp h
    refine mem_ends_many.mpr ⟨run, rest ++ after, ?_, hrun, ?_⟩
    · show c.ahead ++ after = run ++ (rest ++ after)
      rw [hahead, List.append_assoc]
    · show (⟨run.reverse ++ c.behind ++ before, rest ++ after⟩ : Cursor) = _
      rw [List.append_assoc]
      rfl
  | edge e =>
    obtain rfl : e = .word := eq_of_beq hp
    obtain ⟨he, rfl⟩ := mem_ends_edge.mp h
    refine mem_ends_edge.mpr ⟨?_, rfl⟩
    show (leadsWithWord (d.behind ++ before) != leadsWithWord (d.ahead ++ after)) = true
    rw [Cursor.leadsWithWord_append_of_not hbefore, Cursor.leadsWithWord_append_of_not hafter]
    exact he
  | seq p q ihp ihq =>
    have hparts : p.floats = true ∧ q.floats = true := (Bool.and_eq_true _ _).mp hp
    obtain ⟨e, he, hd⟩ := mem_ends_seq.mp h
    exact mem_ends_seq.mpr ⟨e.within before after, ihp hparts.1 he, ihq hparts.2 hd⟩
  | either p q ihp ihq =>
    have hparts : p.floats = true ∧ q.floats = true := (Bool.and_eq_true _ _).mp hp
    rcases mem_ends_either.mp h with h | h
    · exact mem_ends_either.mpr (.inl (ihp hparts.1 h))
    · exact mem_ends_either.mpr (.inr (ihq hparts.2 h))
  | group n p ih => exact ih hp h

/-- A pattern that occurs in a text occurs in it when more text is around. -/
theorem occursIn_surrounded {p : Pattern} (hp : p.floats = true) {text : List Char}
    (before after : List Char) (hbefore : leadsWithWord before.reverse = false)
    (hafter : leadsWithWord after = false) (h : p.occursIn text = true) :
    p.occursIn (before ++ text ++ after) = true := by
  obtain ⟨lead, x, rest, d, rfl, hd⟩ := occursIn_iff.mp h
  have hwithin := mem_ends_within hp hbefore hafter hd
  have hcursor : Cursor.within before.reverse after ⟨lead.reverse, x :: rest⟩ =
      ⟨(before ++ lead).reverse, x :: rest ++ after⟩ := by
    rw [List.reverse_append]
    rfl
  rw [hcursor] at hwithin
  have hoccurs := occursIn_of_mem_ends (List.cons_ne_nil x (rest ++ after)) hwithin
  simpa only [List.append_assoc, List.cons_append] using hoccurs

theorem occursIn_join {p : Pattern} (hp : p.floats = true) {first second : List Char}
    (h : p.occursIn first = true ∨ p.occursIn second = true) :
    p.occursIn (first ++ '\n' :: second) = true := by
  have hfeed (text : List Char) : leadsWithWord ('\n' :: text) = false :=
    (by decide : Text.isWord '\n' = false)
  rcases h with h | h
  · have hoccurs := occursIn_surrounded hp [] ('\n' :: second) rfl (hfeed second) h
    rwa [List.nil_append] at hoccurs
  · have hbefore : leadsWithWord (first ++ ['\n']).reverse = false := by
      rw [List.reverse_append]
      exact hfeed first.reverse
    have hoccurs := occursIn_surrounded hp (first ++ ['\n']) [] hbefore rfl h
    rwa [List.append_nil, List.append_assoc] at hoccurs

end Pattern

end FlexGate
