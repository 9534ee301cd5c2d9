import Mathlib.Data.List.Basic

/-!
# Parentheses that belong together

The depth of a text is the number of parentheses that are open behind it. A text is balanced when no
parenthesis is closed that is not open and none stays open. In a balanced text an opening
parenthesis has one that closes it, with balanced text in between (`Balanced.exists_closing`). The
first closing parenthesis behind it is that one exactly when no other is opened in between
(`Balanced.first_closing`).
-/

set_option autoImplicit false
set_option relaxedAutoImplicit false

namespace FlexGate.Text

/-- The number of parentheses that are open behind a text, where some are open before it; none if
one is closed that is not open. -/
def depthBehind : Nat → List Char → Option Nat
  | depth, [] => some depth
  | depth, c :: text =>
    if c = '(' then depthBehind (depth + 1) text
    else if c = ')' then
      if depth = 0 then none else depthBehind (depth - 1) text
    else depthBehind depth text

/-- Each parenthesis of a text that is closed was opened, and each that is opened is closed. -/
def Balanced (text : List Char) : Prop := depthBehind 0 text = some 0

instance (text : List Char) : Decidable (Balanced text) :=
  inferInstanceAs (Decidable (depthBehind 0 text = some 0))

/-! ### The depth of a text -/

section Depth

variable (depth : Nat) (text : List Char)

@[simp] theorem depthBehind_open :
    depthBehind depth ('(' :: text) = depthBehind (depth + 1) text := by
  rw [depthBehind, if_pos rfl]

@[simp] theorem depthBehind_close :
    depthBehind (depth + 1) (')' :: text) = depthBehind depth text := by
  simp [depthBehind]

@[simp] theorem depthBehind_close_zero : depthBehind 0 (')' :: text) = none := by
  simp [depthBehind]

theorem depthBehind_of_ne {c : Char} (hopen : c ≠ '(') (hclose : c ≠ ')') :
    depthBehind depth (c :: text) = depthBehind depth text := by
  rw [depthBehind, if_neg hopen, if_neg hclose]

end Depth

theorem depthBehind_append (depth : Nat) (first second : List Char) :
    depthBehind depth (first ++ second) =
      (depthBehind depth first).bind fun inner ↦ depthBehind inner second := by
  induction first generalizing depth with
  | nil => rfl
  | cons c first ih =>
    rw [List.cons_append, depthBehind, depthBehind]
    split
    · exact ih (depth + 1)
    · split
      · split
        · rfl
        · exact ih (depth - 1)
      · exact ih depth

/-- Text without a closing parenthesis adds those that it opens. -/
theorem depthBehind_of_not_mem {text : List Char} (h : ')' ∉ text) (depth : Nat) :
    depthBehind depth text = some (depth + text.count '(') := by
  induction text generalizing depth with
  | nil => rfl
  | cons c text ih =>
    have htext : ')' ∉ text := fun hmem ↦ h (List.mem_cons_of_mem c hmem)
    have hclose : c ≠ ')' := fun hc ↦ h (hc ▸ List.mem_cons_self)
    by_cases hopen : c = '('
    · subst hopen
      rw [depthBehind_open, ih htext, List.count_cons_self]
      congr 1
      omega
    · rw [depthBehind_of_ne depth text hopen hclose, ih htext, List.count_cons_of_ne hopen]

/-! ### Balanced texts -/

theorem balanced_iff_of_not_mem {text : List Char} (h : ')' ∉ text) :
    Balanced text ↔ '(' ∉ text := by
  rw [Balanced, depthBehind_of_not_mem h, Nat.zero_add, Option.some.injEq, List.count_eq_zero]

theorem Balanced.head?_ne {text : List Char} (h : Balanced text) : text.head? ≠ some ')' := by
  intro hhead
  obtain ⟨rest, rfl⟩ := List.head?_eq_some_iff.mp hhead
  unfold Balanced at h
  rw [depthBehind_close_zero] at h
  cases h

/-- In balanced text that opens no parenthesis none is closed. -/
theorem Balanced.not_mem_close {text : List Char} (h : Balanced text) (hopen : '(' ∉ text) :
    ')' ∉ text := by
  intro hmem
  obtain ⟨before, after, rfl, hbefore⟩ := List.eq_append_cons_of_mem hmem
  have hnone : '(' ∉ before := fun h ↦ hopen (List.mem_append_left _ h)
  unfold Balanced at h
  rw [depthBehind_append, depthBehind_of_not_mem hbefore, List.count_eq_zero.mpr hnone,
    Option.bind_some, depthBehind_close_zero] at h
  cases h

/-- Of the parentheses that are open before a text, the innermost is closed in it if fewer are open
behind it. -/
theorem exists_closing_of_depthBehind {inner outer last : Nat} {text : List Char}
    (h : depthBehind (inner + outer + 1) text = some last) (hlast : last ≤ outer) :
    ∃ before after, text = before ++ ')' :: after ∧ depthBehind inner before = some 0 ∧
      depthBehind outer after = some last := by
  induction text generalizing inner with
  | nil =>
    have hdepth : inner + outer + 1 = last := Option.some.inj h
    omega
  | cons c text ih =>
    by_cases hopen : c = '('
    · subst hopen
      rw [depthBehind_open, show inner + outer + 1 + 1 = inner + 1 + outer + 1 by omega] at h
      obtain ⟨before, after, htext, hbefore, hafter⟩ := ih h
      exact ⟨'(' :: before, after, by rw [htext, List.cons_append], by simpa using hbefore, hafter⟩
    · by_cases hclose : c = ')'
      · subst hclose
        rw [depthBehind_close] at h
        cases inner with
        | zero => exact ⟨[], text, rfl, rfl, by simpa using h⟩
        | succ inner =>
          rw [show inner + 1 + outer = inner + outer + 1 by omega] at h
          obtain ⟨before, after, htext, hbefore, hafter⟩ := ih h
          exact ⟨')' :: before, after, by rw [htext, List.cons_append], by simpa using hbefore,
            hafter⟩
      · rw [depthBehind_of_ne _ _ hopen hclose] at h
        obtain ⟨before, after, htext, hbefore, hafter⟩ := ih h
        refine ⟨c :: before, after, by rw [htext, List.cons_append], ?_, hafter⟩
        rw [depthBehind_of_ne _ _ hopen hclose, hbefore]

/-- A parenthesis that is opened in balanced text is closed again, with balanced text in between. -/
theorem Balanced.exists_closing {lead rest : List Char} (h : Balanced (lead ++ '(' :: rest)) :
    ∃ inner after, rest = inner ++ ')' :: after ∧ Balanced inner := by
  unfold Balanced at h
  rw [depthBehind_append] at h
  obtain ⟨depth, -, hrest⟩ := Option.bind_eq_some_iff.mp h
  rw [depthBehind_open, ← Nat.zero_add depth] at hrest
  obtain ⟨inner, after, heq, hinner, -⟩ := exists_closing_of_depthBehind hrest (Nat.zero_le depth)
  exact ⟨inner, after, heq, hinner⟩

/-- Two ways to cut a text before the first of a character are the same. -/
theorem eq_of_append_cons {c : Char} {first second rest rest' : List Char} (hfirst : c ∉ first)
    (hsecond : c ∉ second) (h : first ++ c :: rest = second ++ c :: rest') :
    first = second ∧ rest = rest' := by
  induction first generalizing second with
  | nil =>
    cases second with
    | nil => exact ⟨rfl, (List.cons.inj h).2⟩
    | cons d second => exact absurd ((List.cons.inj h).1 ▸ List.mem_cons_self) hsecond
  | cons d first ih =>
    cases second with
    | nil => exact absurd ((List.cons.inj h).1 ▸ List.mem_cons_self) hfirst
    | cons e second =>
      obtain ⟨rfl, htail⟩ := List.cons.inj h
      have hfirst' : c ∉ first := fun hmem ↦ hfirst (List.mem_cons_of_mem d hmem)
      have hsecond' : c ∉ second := fun hmem ↦ hsecond (List.mem_cons_of_mem d hmem)
      obtain ⟨rfl, hrest⟩ := ih hfirst' hsecond' htail
      exact ⟨rfl, hrest⟩

/-- A text is cut in one way only at a character that it holds once. -/
theorem eq_of_append_cons_of_not_mem {c : Char} {first second rest rest' : List Char}
    (hfirst : c ∉ first) (hrest : c ∉ rest) (h : first ++ c :: rest = second ++ c :: rest') :
    first = second ∧ rest = rest' := by
  have hone : (first ++ c :: rest).count c = 1 := by
    rw [List.count_append, List.count_cons_self, List.count_eq_zero.mpr hfirst,
      List.count_eq_zero.mpr hrest]
  have hsecond : c ∉ second := by
    rw [h, List.count_append, List.count_cons_self] at hone
    rw [← List.count_eq_zero]
    omega
  exact eq_of_append_cons hfirst hsecond h

/-- Behind an opened parenthesis, text up to the first closing one is either all that stands between
it and the one that closes it, or it ends before that, and then a parenthesis is opened in
between. -/
theorem Balanced.first_closing {inner after first rest : List Char} (h : Balanced inner)
    (heq : inner ++ ')' :: after = first ++ ')' :: rest) (hfirst : ')' ∉ first) :
    ('(' ∉ inner ∧ first = inner ∧ rest = after) ∨ ('(' ∈ inner ∧ first.length < inner.length) := by
  by_cases hopen : '(' ∈ inner
  · refine .inr ⟨hopen, ?_⟩
    by_contra hle
    -- Then `inner` would be part of `first`, and so close nothing.
    obtain ⟨more, hmore⟩ : inner <+: first := by
      refine List.prefix_of_prefix_length_le (List.prefix_append inner (')' :: after)) ?_
        (Nat.le_of_not_lt hle)
      rw [heq]
      exact List.prefix_append first (')' :: rest)
    have hclose : ')' ∉ inner := fun hmem ↦ hfirst (hmore ▸ List.mem_append_left more hmem)
    exact (balanced_iff_of_not_mem hclose).mp h hopen
  · have hclose : ')' ∉ inner := h.not_mem_close hopen
    obtain ⟨hinner, hafter⟩ := eq_of_append_cons hclose hfirst heq
    exact .inl ⟨hopen, hinner.symm, hafter.symm⟩

end FlexGate.Text
