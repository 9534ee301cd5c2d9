import FlexGate.Proofs.Text.Positions

/-!
# Line ends with carriage returns

A line ends with a line feed, or with a carriage return and a line feed. A text that ends its lines
in the first way is brought into the second by a carriage return before each line feed
(`withReturns`). The lines that are read are the same in both ways (`lines_withReturns`), as long as
the text has no carriage returns of its own; the last line, behind which there is no line feed, is
left as it is.
-/

set_option autoImplicit false
set_option relaxedAutoImplicit false

namespace FlexGate.Text

/-- The text with a carriage return before each line feed. -/
def withReturns (text : List Char) : List Char :=
  text.flatMap fun c ↦ if c = '\n' then ['\r', '\n'] else [c]

/-- The string with a carriage return before each line feed. -/
def returned (s : String) : String := String.ofList (withReturns s.toList)

@[simp] theorem toList_returned (s : String) : (returned s).toList = withReturns s.toList :=
  String.toList_ofList

@[simp] theorem withReturns_nil : withReturns [] = [] := rfl

theorem withReturns_append (first second : List Char) :
    withReturns (first ++ second) = withReturns first ++ withReturns second :=
  List.flatMap_append

theorem withReturns_cons_of_ne {c : Char} (h : c ≠ '\n') (text : List Char) :
    withReturns (c :: text) = c :: withReturns text := by
  rw [withReturns, List.flatMap_cons, if_neg h]
  rfl

@[simp] theorem withReturns_feed (text : List Char) :
    withReturns ('\n' :: text) = '\r' :: '\n' :: withReturns text := by
  rw [withReturns, List.flatMap_cons, if_pos rfl]
  rfl

theorem withReturns_of_not_mem {line : List Char} (h : '\n' ∉ line) : withReturns line = line := by
  induction line with
  | nil => rfl
  | cons c line ih =>
    rw [List.mem_cons, not_or] at h
    rw [withReturns_cons_of_ne (Ne.symm h.1), ih h.2]

/-- Up to its first line feed a text stays as it is. -/
theorem withReturns_append_cons {line : List Char} (h : '\n' ∉ line) (rest : List Char) :
    withReturns (line ++ '\n' :: rest) = (line ++ ['\r']) ++ '\n' :: withReturns rest := by
  rw [withReturns_append, withReturns_of_not_mem h, withReturns_feed, List.append_assoc,
    List.singleton_append]

theorem isEmpty_withReturns (text : List Char) :
    (withReturns text).isEmpty = text.isEmpty := by
  cases text with
  | nil => rfl
  | cons x text =>
    by_cases hx : x = '\n'
    · subst hx
      rw [withReturns_feed]
      rfl
    · rw [withReturns_cons_of_ne hx]
      rfl

theorem mem_withReturns_of_mem {x : Char} {text : List Char} (h : x ∈ text) :
    x ∈ withReturns text := by
  refine List.mem_flatMap.mpr ⟨x, h, ?_⟩
  split_ifs with hx <;> simp [hx]

/-- What is in the text with carriage returns was there before, or is one of them. -/
theorem mem_or_of_mem_withReturns {x : Char} {text : List Char} (h : x ∈ withReturns text) :
    x ∈ text ∨ x = '\r' ∧ '\n' ∈ text := by
  obtain ⟨c, hc, hx⟩ := List.mem_flatMap.mp h
  split_ifs at hx with hfeed
  · subst hfeed
    rcases List.mem_pair.mp hx with rfl | rfl
    · exact .inr ⟨rfl, hc⟩
    · exact .inl hc
  · exact .inl (List.mem_singleton.mp hx ▸ hc)

theorem mem_withReturns_iff {x : Char} (hreturn : x ≠ '\r') {text : List Char} :
    x ∈ withReturns text ↔ x ∈ text := by
  refine ⟨fun h ↦ ?_, mem_withReturns_of_mem⟩
  exact (mem_or_of_mem_withReturns h).resolve_right fun h ↦ hreturn h.1

/-- A cut of the text with carriage returns is one of the text without, or it is between the two
characters of a line end. -/
theorem eq_of_withReturns_eq_append {text first second : List Char}
    (h : withReturns text = first ++ second) :
    (∃ lead rest, text = lead ++ rest ∧ first = withReturns lead ∧ second = withReturns rest) ∨
      ∃ lead rest, text = lead ++ '\n' :: rest ∧ first = withReturns lead ++ ['\r'] ∧
        second = '\n' :: withReturns rest := by
  induction text generalizing first with
  | nil =>
    obtain ⟨rfl, rfl⟩ := List.append_eq_nil_iff.mp h.symm
    exact .inl ⟨[], [], rfl, rfl, rfl⟩
  | cons c text ih =>
    cases first with
    | nil => exact .inl ⟨[], c :: text, rfl, rfl, h.symm⟩
    | cons x first =>
      by_cases hc : c = '\n'
      · subst hc
        rw [withReturns_feed, List.cons_append, List.cons_eq_cons] at h
        obtain ⟨rfl, h⟩ := h
        cases first with
        | nil => exact .inr ⟨[], text, rfl, rfl, h.symm⟩
        | cons y first =>
          rw [List.cons_append, List.cons_eq_cons] at h
          obtain ⟨rfl, h⟩ := h
          rcases ih h with ⟨lead, rest, rfl, rfl, rfl⟩ | ⟨lead, rest, rfl, rfl, rfl⟩
          · exact .inl ⟨'\n' :: lead, rest, rfl, (withReturns_feed lead).symm, rfl⟩
          · exact .inr ⟨'\n' :: lead, rest, rfl, by rw [withReturns_feed]; rfl, rfl⟩
      · rw [withReturns_cons_of_ne hc, List.cons_append, List.cons_eq_cons] at h
        obtain ⟨rfl, h⟩ := h
        rcases ih h with ⟨lead, rest, rfl, rfl, rfl⟩ | ⟨lead, rest, rfl, rfl, rfl⟩
        · exact .inl ⟨c :: lead, rest, rfl, (withReturns_cons_of_ne hc lead).symm, rfl⟩
        · exact .inr ⟨c :: lead, rest, rfl, by rw [withReturns_cons_of_ne hc]; rfl, rfl⟩

/-- A character that is neither of a line end stands in the text with carriage returns where it
stands in the text without. -/
theorem withReturns_eq_append_cons_iff {text first rest : List Char} {x : Char} (hreturn : x ≠ '\r')
    (hfeed : x ≠ '\n') :
    withReturns text = first ++ x :: rest ↔ ∃ lead after, text = lead ++ x :: after ∧
      first = withReturns lead ∧ rest = withReturns after := by
  constructor
  · intro h
    rcases eq_of_withReturns_eq_append h with
      ⟨lead, ahead, rfl, rfl, hahead⟩ | ⟨lead, ahead, rfl, -, hahead⟩
    · cases ahead with
      | nil => cases hahead
      | cons y after =>
        by_cases hy : y = '\n'
        · subst hy
          rw [withReturns_feed, List.cons_eq_cons] at hahead
          exact absurd hahead.1 hreturn
        · rw [withReturns_cons_of_ne hy, List.cons_eq_cons] at hahead
          obtain ⟨rfl, rfl⟩ := hahead
          exact ⟨lead, after, rfl, rfl, rfl⟩
    · exact absurd (List.cons.inj hahead).1 hfeed
  · rintro ⟨lead, after, rfl, rfl, rfl⟩
    rw [withReturns_append, withReturns_cons_of_ne hfeed]

theorem head?_withReturns_eq_iff {text : List Char} {x : Char} (hreturn : x ≠ '\r')
    (hfeed : x ≠ '\n') : (withReturns text).head? = some x ↔ text.head? = some x := by
  cases text with
  | nil => exact Iff.rfl
  | cons c text =>
    by_cases hc : c = '\n'
    · subst hc
      simp [Ne.symm hreturn, Ne.symm hfeed]
    · simp [withReturns_cons_of_ne hc]

theorem getLast?_withReturns (text : List Char) : (withReturns text).getLast? = text.getLast? := by
  rcases List.eq_nil_or_concat text with rfl | ⟨text, x, rfl⟩
  · rfl
  · rw [List.concat_eq_append, withReturns_append]
    by_cases hx : x = '\n'
    · subst hx
      simp
    · simp [withReturns_cons_of_ne hx]

/-- The lines that are read do not tell how they end. -/
theorem lines_withReturns {text : List Char} (h : '\r' ∉ text) :
    lines (withReturns text) = lines text := by
  induction text using induction_lines with
  | last line hline => rw [withReturns_of_not_mem hline]
  | cons line rest hline ih =>
    simp only [List.mem_append, List.mem_cons, not_or] at h
    have hreturn : '\n' ∉ line ++ ['\r'] := by
      simpa using hline
    rw [withReturns_append_cons hline, lines_append_cons, lines_append_cons, ih h.2.2,
      lines_of_not_mem hreturn, lines_of_not_mem hline, withoutReturn_concat,
      withoutReturn_of_getLast?_ne (mt List.mem_of_getLast? h.1)]

end FlexGate.Text
