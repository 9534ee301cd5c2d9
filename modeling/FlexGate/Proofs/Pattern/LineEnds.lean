import FlexGate.Proofs.Pattern.Scan
import FlexGate.Proofs.Text.Returns

/-!
# Readings across line ends

With a carriage return before each line feed, a text has one position more for each of its line
ends, the one between the two characters. The other positions are those of the text without carriage
returns (`Cursor.returned`); the position in between stands for the one behind the line feed
(`Cursor.StandsFor`).

For most patterns the two texts have the same readings. Two conditions on a pattern say so, one for
each direction, and both can be evaluated: `carriesIn` for readings that are carried over to the
text with carriage returns (`exists_mem_ends_of_carriesIn`), `carriesOut` for those that are carried
back (`exists_mem_ends_of_carriesOut`). They go through the pattern with what is known of the
position at which the reading has arrived: whether it may be between the two characters of a line
end. A pattern that meets both occurs in both texts or in neither (`occursIn_withReturns`).
-/

set_option autoImplicit false
set_option relaxedAutoImplicit false

namespace FlexGate

open Text (withReturns)

namespace Cursor

/-- The same position in the text with a carriage return before each line feed. -/
def returned (c : Cursor) : Cursor :=
  ⟨(withReturns c.behind.reverse).reverse, withReturns c.ahead⟩

/-- A position of the text with carriage returns stands for one of the text without: for that of
which it is the image or, if it may be between the two characters of a line end, for the one behind
the line feed. -/
inductive StandsFor : Bool → Cursor → Cursor → Prop
  | whole (between : Bool) (c : Cursor) : StandsFor between c.returned c
  | between (behind ahead : List Char) :
    StandsFor true ⟨'\r' :: (withReturns behind.reverse).reverse, '\n' :: withReturns ahead⟩
      ⟨'\n' :: behind, ahead⟩

theorem returned_cons_of_ne {x : Char} (hx : x ≠ '\n') (behind ahead : List Char) :
    returned ⟨x :: behind, ahead⟩ =
      ⟨x :: (withReturns behind.reverse).reverse, withReturns ahead⟩ := by
  simp [returned, Text.withReturns_append, Text.withReturns_cons_of_ne hx]

theorem returned_feed (behind ahead : List Char) : returned ⟨'\n' :: behind, ahead⟩ =
    ⟨'\n' :: '\r' :: (withReturns behind.reverse).reverse, withReturns ahead⟩ := by
  simp [returned, Text.withReturns_append]

theorem returned_run (run behind ahead : List Char) : returned ⟨run.reverse ++ behind, ahead⟩ =
    ⟨(withReturns run).reverse ++ (withReturns behind.reverse).reverse, withReturns ahead⟩ := by
  simp [returned, Text.withReturns_append]

theorem StandsFor.mono {between other : Bool} (h : between = true → other = true) {c' c : Cursor}
    (hc : StandsFor between c' c) : StandsFor other c' c := by
  cases hc with
  | whole c => exact .whole other c
  | between behind ahead =>
    obtain rfl := h rfl
    exact .between behind ahead

theorem leadsWithWord_withReturns (text : List Char) :
    leadsWithWord (withReturns text) = leadsWithWord text := by
  cases text with
  | nil => rfl
  | cons x text =>
    by_cases hx : x = '\n'
    · subst hx
      rw [Text.withReturns_feed]
      exact (by decide : Text.isWord '\r' = Text.isWord '\n')
    · rw [Text.withReturns_cons_of_ne hx]
      rfl

theorem leadsWithWord_behind_returned (c : Cursor) :
    leadsWithWord c.returned.behind = leadsWithWord c.behind := by
  obtain ⟨behind, ahead⟩ := c
  cases behind with
  | nil => rfl
  | cons x behind =>
    by_cases hx : x = '\n'
    · subst hx
      rw [returned_feed]
      rfl
    · rw [returned_cons_of_ne hx]
      rfl

end Cursor

open Cursor (StandsFor)

namespace Edge

theorem holds_returned (e : Edge) (c : Cursor) : e.holds c.returned = e.holds c := by
  cases e with
  | word =>
    have hahead : Cursor.leadsWithWord c.returned.ahead = Cursor.leadsWithWord c.ahead :=
      Cursor.leadsWithWord_withReturns c.ahead
    simp only [holds, Cursor.leadsWithWord_behind_returned, hahead]
  | textStart =>
    simp only [holds, Cursor.returned, List.isEmpty_reverse, Text.isEmpty_withReturns]
  | textEnd => simp only [holds, Cursor.returned, Text.isEmpty_withReturns]

/-- No condition on a position holds between the two characters of a line end. -/
theorem holds_between (e : Edge) (behind ahead : List Char) :
    e.holds ⟨'\r' :: behind, '\n' :: ahead⟩ = false := by
  cases e with
  | word => exact (by decide : (Text.isWord '\r' != Text.isWord '\n') = false)
  | textStart => rfl
  | textEnd => rfl

end Edge

/-- Whether a class has both characters of a line end or neither. -/
def CharClass.even (s : CharClass) : Bool := s.has '\r' == s.has '\n'

theorem CharClass.has_return {s : CharClass} (h : s.even = true) : s.has '\r' = s.has '\n' :=
  eq_of_beq h

namespace Pattern

/-! ### Readings that are carried over -/

/-- Whether the readings of a pattern can be carried over to the text with carriage returns. The
Boolean tells whether they may start between the two characters of a line end there, and the result
whether they may end there. -/
def carriesIn : Pattern → Bool → Option Bool
  | .nothing, between => some between
  | .char s, between => if s.even && !between then some (s.has '\n') else none
  | .many s, between => if s.even && (!between || s.has '\n') then some false else none
  | .edge _, between => if between then none else some false
  | .seq p q, between => (p.carriesIn between).bind q.carriesIn
  | .either p q, between =>
    (p.carriesIn between).bind fun a ↦ (q.carriesIn between).map fun b ↦ a || b
  | .group _ p, between => p.carriesIn between

/-- As `carriesIn`, for the readings in the text with carriage returns that are carried back. -/
def carriesOut : Pattern → Bool → Option Bool
  | .nothing, between => some between
  | .char s, between => if s.even && !(between && s.has '\n') then some (s.has '\n') else none
  | .many s, between => if s.even then some (between || s.has '\n') else none
  | .edge _, _ => some false
  | .seq p q, between => (p.carriesOut between).bind q.carriesOut
  | .either p q, between =>
    (p.carriesOut between).bind fun a ↦ (q.carriesOut between).map fun b ↦ a || b
  | .group _ p, between => p.carriesOut between

/-! ### Characters and runs -/

section CharClass

variable {s : CharClass} {run : List Char}

theorem has_withReturns (heven : s.even = true) (hrun : ∀ x ∈ run, s.has x = true) :
    ∀ x ∈ withReturns run, s.has x = true := by
  intro x hx
  rcases Text.mem_or_of_mem_withReturns hx with hx | ⟨rfl, hfeed⟩
  · exact hrun x hx
  · rw [CharClass.has_return heven]
    exact hrun '\n' hfeed

/-- A character is carried over. Where it is a line feed, the carriage return before it is read. -/
theorem exists_mem_ends_char_returned (heven : s.even = true) {c d : Cursor}
    (hd : d ∈ (Pattern.char s).ends c) :
    ∃ d' ∈ (Pattern.char s).ends c.returned, StandsFor (s.has '\n') d' d := by
  obtain ⟨behind, ahead⟩ := c
  obtain ⟨x, rest, rfl, hx, rfl⟩ := mem_ends_char.mp hd
  by_cases hfeed : x = '\n'
  · subst hfeed
    rw [hx]
    refine ⟨_, mem_ends_char.mpr ⟨'\r', _, Text.withReturns_feed rest, ?_, rfl⟩,
      .between behind rest⟩
    rw [CharClass.has_return heven, hx]
  · refine ⟨_, mem_ends_char.mpr ⟨x, _, Text.withReturns_cons_of_ne hfeed rest, hx, rfl⟩, ?_⟩
    have hwhole := StandsFor.whole (s.has '\n') ⟨x :: behind, rest⟩
    rwa [Cursor.returned_cons_of_ne hfeed] at hwhole

/-- A character is carried back. Where it is a carriage return, the line feed behind it is read. -/
theorem exists_mem_ends_char_of_returned (heven : s.even = true) {c d' : Cursor}
    (hd' : d' ∈ (Pattern.char s).ends c.returned) :
    ∃ d ∈ (Pattern.char s).ends c, StandsFor (s.has '\n') d' d := by
  obtain ⟨behind, ahead⟩ := c
  obtain ⟨x, rest', hahead, hx, rfl⟩ := mem_ends_char.mp hd'
  cases ahead with
  | nil => cases hahead
  | cons y rest =>
    by_cases hfeed : y = '\n'
    · subst hfeed
      rw [Cursor.returned, Text.withReturns_feed, List.cons_eq_cons] at hahead
      obtain ⟨rfl, rfl⟩ := hahead
      rw [CharClass.has_return heven] at hx
      rw [hx]
      exact ⟨_, mem_ends_char.mpr ⟨'\n', rest, rfl, hx, rfl⟩, .between behind rest⟩
    · rw [Cursor.returned, Text.withReturns_cons_of_ne hfeed, List.cons_eq_cons] at hahead
      obtain ⟨rfl, rfl⟩ := hahead
      refine ⟨_, mem_ends_char.mpr ⟨y, rest, rfl, hx, rfl⟩, ?_⟩
      have hwhole := StandsFor.whole (s.has '\n') ⟨y :: behind, rest⟩
      rwa [Cursor.returned_cons_of_ne hfeed] at hwhole

/-- A run is carried over as a whole, whatever line ends it goes over. -/
theorem mem_ends_many_returned (heven : s.even = true) {c d : Cursor}
    (hd : d ∈ (Pattern.many s).ends c) : d.returned ∈ (Pattern.many s).ends c.returned := by
  obtain ⟨behind, ahead⟩ := c
  obtain ⟨run, rest, rfl, hrun, rfl⟩ := mem_ends_many.mp hd
  refine mem_ends_many.mpr ⟨withReturns run, withReturns rest, ?_, has_withReturns heven hrun, ?_⟩
  · exact Text.withReturns_append run rest
  · exact Cursor.returned_run run behind rest

/-- A run that is carried back may end between the two characters of a line end, if it can read
them. -/
theorem exists_mem_ends_many_of_returned (heven : s.even = true) {c d' : Cursor}
    (hd' : d' ∈ (Pattern.many s).ends c.returned) :
    ∃ d ∈ (Pattern.many s).ends c, StandsFor (s.has '\n') d' d := by
  obtain ⟨behind, ahead⟩ := c
  obtain ⟨run', rest', hahead, hrun', rfl⟩ := mem_ends_many.mp hd'
  rcases Text.eq_of_withReturns_eq_append hahead with
    ⟨run, rest, rfl, rfl, rfl⟩ | ⟨run, rest, rfl, rfl, rfl⟩
  · refine ⟨⟨run.reverse ++ behind, rest⟩, mem_ends_many.mpr ⟨run, rest, rfl, ?_, rfl⟩, ?_⟩
    · exact fun x hx ↦ hrun' x (Text.mem_withReturns_of_mem hx)
    · have hwhole := StandsFor.whole (s.has '\n') ⟨run.reverse ++ behind, rest⟩
      rwa [Cursor.returned_run] at hwhole
  · have hfeed : s.has '\n' = true := by
      rw [← CharClass.has_return heven]
      exact hrun' '\r' (by simp)
    refine ⟨⟨'\n' :: (run.reverse ++ behind), rest⟩,
      mem_ends_many.mpr ⟨run ++ ['\n'], rest, by simp, ?_, by simp⟩, ?_⟩
    · intro x hx
      rcases List.mem_append.mp hx with hx | hx
      · exact hrun' x (List.mem_append_left _ (Text.mem_withReturns_of_mem hx))
      · exact List.mem_singleton.mp hx ▸ hfeed
    · rw [hfeed]
      have hbetween := StandsFor.between (run.reverse ++ behind) rest
      simpa [Cursor.returned, Text.withReturns_append] using hbetween

variable {behind ahead : List Char}

/-- From between the two characters of a line end, a run is carried over if it can read the line
feed first. -/
theorem exists_mem_ends_many_between (heven : s.even = true) (hfeed : s.has '\n' = true)
    {d : Cursor} (hd : d ∈ (Pattern.many s).ends ⟨'\n' :: behind, ahead⟩) :
    ∃ d' ∈ (Pattern.many s).ends
      ⟨'\r' :: (withReturns behind.reverse).reverse, '\n' :: withReturns ahead⟩,
      StandsFor false d' d := by
  obtain ⟨run, rest, hahead, hrun, rfl⟩ := mem_ends_many.mp hd
  obtain rfl : ahead = run ++ rest := hahead
  refine ⟨_, mem_ends_many.mpr ⟨'\n' :: withReturns run, withReturns rest, ?_, ?_, rfl⟩, ?_⟩
  · rw [Text.withReturns_append, List.cons_append]
  · exact List.forall_mem_cons.mpr ⟨hfeed, has_withReturns heven hrun⟩
  · have hwhole := StandsFor.whole false ⟨run.reverse ++ '\n' :: behind, rest⟩
    simpa [Cursor.returned, Text.withReturns_append] using hwhole

/-- From between the two characters of a line end, a run is carried back. -/
theorem exists_mem_ends_many_of_between (heven : s.even = true) {d' : Cursor}
    (hd' : d' ∈ (Pattern.many s).ends
      ⟨'\r' :: (withReturns behind.reverse).reverse, '\n' :: withReturns ahead⟩) :
    ∃ d ∈ (Pattern.many s).ends ⟨'\n' :: behind, ahead⟩, StandsFor true d' d := by
  obtain ⟨run', rest', hahead, hrun', rfl⟩ := mem_ends_many.mp hd'
  cases run' with
  | nil =>
    obtain rfl := hahead
    exact ⟨_, mem_ends_many.mpr ⟨[], ahead, rfl, by simp, rfl⟩, .between behind ahead⟩
  | cons x run' =>
    -- Behind the line feed the run goes on as one from the position that is stood for.
    dsimp only at hahead
    rw [List.cons_append, List.cons_eq_cons] at hahead
    obtain ⟨rfl, hahead⟩ := hahead
    obtain ⟨-, hrun'⟩ := List.forall_mem_cons.mp hrun'
    have hmem : (⟨run'.reverse ++ (Cursor.returned ⟨'\n' :: behind, ahead⟩).behind,
        rest'⟩ : Cursor) ∈ (Pattern.many s).ends (Cursor.returned ⟨'\n' :: behind, ahead⟩) :=
      mem_ends_many.mpr ⟨run', rest', hahead, hrun', rfl⟩
    obtain ⟨d, hd, hdd⟩ := exists_mem_ends_many_of_returned heven hmem
    refine ⟨d, hd, ?_⟩
    rw [Cursor.returned_feed] at hdd
    simpa using hdd.mono (by simp)

end CharClass

/-! ### Patterns -/

section Carried

variable {p : Pattern} {between after : Bool} {c c' : Cursor}

/-- The readings of a pattern are found again in the text with carriage returns. -/
theorem exists_mem_ends_of_carriesIn (hp : p.carriesIn between = some after)
    (hc : StandsFor between c' c) {d : Cursor} (hd : d ∈ p.ends c) :
    ∃ d' ∈ p.ends c', StandsFor after d' d := by
  induction p generalizing between after c c' d with
  | nothing =>
    obtain rfl := Option.some.inj hp
    obtain rfl := List.mem_singleton.mp hd
    exact ⟨c', List.mem_singleton_self c', hc⟩
  | char s =>
    obtain ⟨⟨heven, hbetween⟩, hafter⟩ : (s.even = true ∧ between = false) ∧
        s.has '\n' = after := by simpa [carriesIn] using hp
    subst hbetween hafter
    cases hc with
    | whole c => exact exists_mem_ends_char_returned heven hd
  | many s =>
    obtain ⟨⟨heven, hreads⟩, hafter⟩ :
        (s.even = true ∧ (between = false ∨ s.has '\n' = true)) ∧ false = after := by
      simpa [carriesIn] using hp
    subst hafter
    cases hc with
    | whole c => exact ⟨d.returned, mem_ends_many_returned heven hd, .whole false d⟩
    | between behind ahead =>
      exact exists_mem_ends_many_between heven (hreads.resolve_left Bool.noConfusion) hd
  | edge e =>
    obtain ⟨rfl, rfl⟩ : between = false ∧ false = after := by simpa [carriesIn] using hp
    cases hc with
    | whole c =>
      obtain ⟨he, rfl⟩ := mem_ends_edge.mp hd
      exact ⟨_, mem_ends_edge.mpr ⟨(e.holds_returned d).trans he, rfl⟩, .whole false d⟩
  | seq p q ihp ihq =>
    obtain ⟨middle, hp, hq⟩ := Option.bind_eq_some_iff.mp hp
    obtain ⟨e, he, hd⟩ := mem_ends_seq.mp hd
    obtain ⟨e', he', hee⟩ := ihp hp hc he
    obtain ⟨d', hd', hdd⟩ := ihq hq hee hd
    exact ⟨d', mem_ends_seq.mpr ⟨e', he', hd'⟩, hdd⟩
  | either p q ihp ihq =>
    obtain ⟨left, hleft, hp⟩ := Option.bind_eq_some_iff.mp hp
    obtain ⟨right, hright, rfl⟩ := Option.map_eq_some_iff.mp hp
    rcases mem_ends_either.mp hd with hd | hd
    · obtain ⟨d', hd', hdd⟩ := ihp hleft hc hd
      exact ⟨d', mem_ends_either.mpr (.inl hd'), hdd.mono (by simp +contextual)⟩
    · obtain ⟨d', hd', hdd⟩ := ihq hright hc hd
      exact ⟨d', mem_ends_either.mpr (.inr hd'), hdd.mono (by simp +contextual)⟩
  | group n p ih => exact ih hp hc hd

/-- The readings of a pattern in the text with carriage returns are found again in the text
without. -/
theorem exists_mem_ends_of_carriesOut (hp : p.carriesOut between = some after)
    (hc : StandsFor between c' c) {d' : Cursor} (hd' : d' ∈ p.ends c') :
    ∃ d ∈ p.ends c, StandsFor after d' d := by
  induction p generalizing between after c c' d' with
  | nothing =>
    obtain rfl := Option.some.inj hp
    obtain rfl := List.mem_singleton.mp hd'
    exact ⟨c, List.mem_singleton_self c, hc⟩
  | char s =>
    obtain ⟨⟨heven, hbetween⟩, hafter⟩ :
        (s.even = true ∧ (between = false ∨ s.has '\n' = false)) ∧ s.has '\n' = after := by
      simpa [carriesOut] using hp
    subst hafter
    cases hc with
    | whole c => exact exists_mem_ends_char_of_returned heven hd'
    | between behind ahead =>
      obtain ⟨x, rest', hahead, hx, -⟩ := mem_ends_char.mp hd'
      obtain ⟨rfl, -⟩ := List.cons.inj hahead
      rw [hbetween.resolve_left Bool.noConfusion] at hx
      cases hx
  | many s =>
    obtain ⟨heven, hafter⟩ : s.even = true ∧ (between || s.has '\n') = after := by
      simpa [carriesOut] using hp
    subst hafter
    cases hc with
    | whole c =>
      obtain ⟨d, hd, hdd⟩ := exists_mem_ends_many_of_returned heven hd'
      exact ⟨d, hd, hdd.mono (by simp +contextual)⟩
    | between behind ahead => exact exists_mem_ends_many_of_between heven hd'
  | edge e =>
    obtain rfl := Option.some.inj hp
    obtain ⟨he, rfl⟩ := mem_ends_edge.mp hd'
    cases hc with
    | whole c =>
      rw [e.holds_returned] at he
      exact ⟨c, mem_ends_edge.mpr ⟨he, rfl⟩, .whole false c⟩
    | between behind ahead =>
      rw [e.holds_between] at he
      cases he
  | seq p q ihp ihq =>
    obtain ⟨middle, hp, hq⟩ := Option.bind_eq_some_iff.mp hp
    obtain ⟨e', he', hd'⟩ := mem_ends_seq.mp hd'
    obtain ⟨e, he, hee⟩ := ihp hp hc he'
    obtain ⟨d, hd, hdd⟩ := ihq hq hee hd'
    exact ⟨d, mem_ends_seq.mpr ⟨e, he, hd⟩, hdd⟩
  | either p q ihp ihq =>
    obtain ⟨left, hleft, hp⟩ := Option.bind_eq_some_iff.mp hp
    obtain ⟨right, hright, rfl⟩ := Option.map_eq_some_iff.mp hp
    rcases mem_ends_either.mp hd' with hd' | hd'
    · obtain ⟨d, hd, hdd⟩ := ihp hleft hc hd'
      exact ⟨d, mem_ends_either.mpr (.inl hd), hdd.mono (by simp +contextual)⟩
    · obtain ⟨d, hd, hdd⟩ := ihq hright hc hd'
      exact ⟨d, mem_ends_either.mpr (.inr hd), hdd.mono (by simp +contextual)⟩
  | group n p ih => exact ih hp hc hd'

end Carried

/-! ### Where a pattern is read -/

/-- Whether the pattern can be read from before some character of the text up to a position of the
given kind. -/
def ReadsUpTo (p : Pattern) (kind : Cursor → Prop) (text : List Char) : Prop :=
  ∃ lead x rest, text = lead ++ x :: rest ∧ ∃ d ∈ p.ends ⟨lead.reverse, x :: rest⟩, kind d

theorem occursIn_iff_readsUpTo {p : Pattern} {text : List Char} :
    p.occursIn text = true ↔ p.ReadsUpTo (fun _ ↦ True) text := by
  rw [occursIn_iff]
  constructor
  · rintro ⟨lead, x, rest, d, heq, hd⟩
    exact ⟨lead, x, rest, heq, d, hd, trivial⟩
  · rintro ⟨lead, x, rest, heq, d, hd, -⟩
    exact ⟨lead, x, rest, d, heq, hd⟩

/-- A sequence occurs where the first pattern is read up to a position from which the second is. -/
theorem occursIn_seq_iff {p q : Pattern} {text : List Char} :
    (Pattern.seq p q).occursIn text = true ↔
      p.ReadsUpTo (fun e ↦ ∃ d, d ∈ q.ends e) text := by
  rw [occursIn_iff]
  constructor
  · rintro ⟨lead, x, rest, d, heq, hd⟩
    obtain ⟨e, he, hd⟩ := mem_ends_seq.mp hd
    exact ⟨lead, x, rest, heq, e, he, d, hd⟩
  · rintro ⟨lead, x, rest, heq, e, he, d, hd⟩
    exact ⟨lead, x, rest, d, heq, mem_ends_seq.mpr ⟨e, he, hd⟩⟩

theorem readsUpTo_or {p : Pattern} {kind other : Cursor → Prop} {text : List Char} :
    p.ReadsUpTo (fun d ↦ kind d ∨ other d) text ↔
      p.ReadsUpTo kind text ∨ p.ReadsUpTo other text := by
  constructor
  · rintro ⟨lead, x, rest, heq, d, hd, hkind | hother⟩
    · exact .inl ⟨lead, x, rest, heq, d, hd, hkind⟩
    · exact .inr ⟨lead, x, rest, heq, d, hd, hother⟩
  · rintro (⟨lead, x, rest, heq, d, hd, hkind⟩ | ⟨lead, x, rest, heq, d, hd, hother⟩)
    · exact ⟨lead, x, rest, heq, d, hd, .inl hkind⟩
    · exact ⟨lead, x, rest, heq, d, hd, .inr hother⟩

theorem ahead_ne_nil_of_consumes {p : Pattern} (hp : p.consumes = true) {c d : Cursor}
    (hd : d ∈ p.ends c) : c.ahead ≠ [] := by
  intro hnil
  obtain ⟨read, hahead, hbehind, -⟩ := leads_of_mem_ends hd
  rw [hnil] at hahead
  obtain ⟨rfl, -⟩ := List.append_eq_nil_iff.mp hahead.symm
  have hlt : c.behind.length < d.behind.length := position_lt_of_consumes hp hd
  rw [hbehind] at hlt
  exact Nat.lt_irrefl _ hlt

/-- A pattern whose readings are carried over in both directions is read up to the positions of a
kind in one text if it is read up to the positions that they stand for in the other. -/
theorem readsUpTo_withReturns {p : Pattern} {within out : Bool}
    (hin : p.carriesIn false = some within) (hout : p.carriesOut true = some out)
    (hp : p.consumes = true) {kind' kind : Cursor → Prop}
    (hkind : ∀ {d' d}, StandsFor (within || out) d' d → (kind' d' ↔ kind d)) (text : List Char) :
    p.ReadsUpTo kind' (withReturns text) ↔ p.ReadsUpTo kind text := by
  constructor
  · rintro ⟨lead', x', rest', heq, d', hd', hkind'⟩
    have hback : ∃ lead ahead, text = lead ++ ahead ∧
        StandsFor true ⟨lead'.reverse, x' :: rest'⟩ ⟨lead.reverse, ahead⟩ := by
      rcases Text.eq_of_withReturns_eq_append heq with
        ⟨lead, ahead, rfl, rfl, hahead⟩ | ⟨lead, ahead, rfl, rfl, hahead⟩
      · refine ⟨lead, ahead, rfl, ?_⟩
        have hwhole := StandsFor.whole true ⟨lead.reverse, ahead⟩
        rwa [Cursor.returned, List.reverse_reverse, ← hahead] at hwhole
      · refine ⟨lead ++ ['\n'], ahead, List.append_cons lead '\n' ahead, ?_⟩
        have hbetween := StandsFor.between lead.reverse ahead
        rw [List.reverse_reverse, ← hahead] at hbetween
        simpa using hbetween
    obtain ⟨lead, ahead, rfl, hc⟩ := hback
    obtain ⟨d, hd, hdd⟩ := exists_mem_ends_of_carriesOut hout hc hd'
    obtain ⟨x, rest, rfl⟩ := List.exists_cons_of_ne_nil (ahead_ne_nil_of_consumes hp hd)
    exact ⟨lead, x, rest, rfl, d, hd, (hkind (hdd.mono (by simp +contextual))).mp hkind'⟩
  · rintro ⟨lead, x, rest, rfl, d, hd, hd'⟩
    obtain ⟨d', hmem, hdd⟩ := exists_mem_ends_of_carriesIn hin (.whole false _) hd
    have hne : withReturns (x :: rest) ≠ [] := ahead_ne_nil_of_consumes hp hmem
    obtain ⟨x', rest', hahead⟩ := List.exists_cons_of_ne_nil hne
    refine ⟨withReturns lead, x', rest', ?_, d', ?_,
      (hkind (hdd.mono (by simp +contextual))).mpr hd'⟩
    · rw [Text.withReturns_append, hahead]
    · rw [Cursor.returned, List.reverse_reverse] at hmem
      exact hahead ▸ hmem

/-- A pattern whose readings are carried over in both directions occurs in both texts or in
neither. -/
theorem occursIn_withReturns {p : Pattern} (hin : (p.carriesIn false).isSome = true)
    (hout : (p.carriesOut true).isSome = true) (hp : p.consumes = true) (text : List Char) :
    p.occursIn (withReturns text) = p.occursIn text := by
  obtain ⟨within, hin⟩ := Option.isSome_iff_exists.mp hin
  obtain ⟨out, hout⟩ := Option.isSome_iff_exists.mp hout
  rw [Bool.eq_iff_iff, occursIn_iff_readsUpTo, occursIn_iff_readsUpTo]
  exact readsUpTo_withReturns hin hout hp (fun _ ↦ Iff.rfl) text

end Pattern

end FlexGate
