import FlexGate.Proofs.Pattern.Ends
import Mathlib.Data.List.Pairwise

/-!
# Where a pattern occurs

A search tries the positions of a text from left to right (`findFrom_eq`), and after a match that
reads a character it goes on where that match ends (`findAllFrom_of_matchAt`). So all matches are
the leftmost one followed by the matches in the text that is left (`findAll_eq_cons`), and they
stand one behind the other (`pairwise_findAllFrom`). No position from which the pattern can be read
is missed: a match starts there or reaches over it (`exists_mem_findAllFrom`).
-/

set_option autoImplicit false
set_option relaxedAutoImplicit false

namespace FlexGate

namespace Cursor

/-- The positions before the characters of a text, from left to right. -/
def starts : List Char → List Char → List Cursor
  | _, [] => []
  | behind, x :: ahead => ⟨behind, x :: ahead⟩ :: starts (x :: behind) ahead

theorem starts_append (behind first second : List Char) :
    starts behind (first ++ second) =
      (starts behind first).map (within [] second) ++ starts (first.reverse ++ behind) second := by
  induction first generalizing behind with
  | nil => rfl
  | cons x first ih => simp [starts, ih, within]

/-- A start lies in the text, before one of its characters. -/
theorem exists_of_mem_starts {behind ahead : List Char} {c : Cursor} (h : c ∈ starts behind ahead) :
    ∃ passed, ahead = passed ++ c.ahead ∧ c.behind = passed.reverse ++ behind ∧ c.ahead ≠ [] := by
  induction ahead generalizing behind with
  | nil => simp [starts] at h
  | cons x ahead ih =>
    rcases List.mem_cons.mp h with rfl | h
    · exact ⟨[], rfl, rfl, List.cons_ne_nil _ _⟩
    · obtain ⟨passed, ha, hb, hne⟩ := ih h
      exact ⟨x :: passed, by rw [ha, List.cons_append], by simp [hb], hne⟩

/-- The last character of a text is ahead of all its starts. -/
theorem mem_ahead_of_mem_starts {behind text : List Char} {x : Char} {c : Cursor}
    (h : c ∈ starts behind (text ++ [x])) : x ∈ c.ahead := by
  induction text generalizing behind with
  | nil =>
    rw [List.mem_singleton.mp h]
    exact List.mem_cons_self
  | cons y text ih =>
    rcases List.mem_cons.mp h with rfl | h
    · exact List.mem_cons_of_mem _ (List.mem_append_right _ List.mem_cons_self)
    · exact ih h

end Cursor

namespace Pattern

open Cursor (starts)

/-! ### One match -/

theorem span_of_matchAt {p : Pattern} {c : Cursor} {m : Match} (h : p.matchAt c = some m) :
    m.span.first = c ∧ (p.ends c).head? = some m.span.last := by
  have hspan := p.map_span_matchAt c
  rw [h, Option.map_some] at hspan
  obtain ⟨d, hd, hs⟩ := Option.map_eq_some_iff.mp hspan.symm
  rw [← hs]
  exact ⟨rfl, hd⟩

theorem last_mem_ends {p : Pattern} {c : Cursor} {m : Match} (h : p.matchAt c = some m) :
    m.span.last ∈ p.ends c :=
  List.mem_of_mem_head? (span_of_matchAt h).2

theorem findFrom_eq (p : Pattern) (behind ahead : List Char) :
    p.findFrom behind ahead = (starts behind ahead).findSome? p.matchAt := by
  induction ahead generalizing behind with
  | nil => rfl
  | cons x ahead ih =>
    rw [findFrom, starts, List.findSome?_cons, ih]
    cases p.matchAt ⟨behind, x :: ahead⟩ <;> rfl

/-- A match that was found lies in the text that was searched. -/
theorem exists_of_find?_eq_some {p : Pattern} {text : List Char} {m : Match}
    (h : p.find? text = some m) :
    m.span.first.text = text ∧ m.span.last ∈ p.ends m.span.first := by
  rw [find?, findFrom_eq] at h
  obtain ⟨c, hc, hm⟩ := List.exists_of_findSome?_eq_some h
  obtain ⟨passed, ha, hb, -⟩ := Cursor.exists_of_mem_starts hc
  have hfirst : m.span.first = c := (span_of_matchAt hm).1
  rw [hfirst]
  exact ⟨by simp [Cursor.text, ha, hb], last_mem_ends hm⟩

/-! ### Patterns that read something -/

/-- Whether every reading of the pattern reads a character. -/
def consumes : Pattern → Bool
  | .char _ => true
  | .seq p q => p.consumes || q.consumes
  | .either p q => p.consumes && q.consumes
  | .group _ p => p.consumes
  | _ => false

theorem position_lt_of_consumes {p : Pattern} (hp : p.consumes = true) {c d : Cursor}
    (h : d ∈ p.ends c) : c.position < d.position := by
  induction p generalizing c d with
  | nothing => simp [consumes] at hp
  | char s =>
    obtain ⟨behind, ahead⟩ := c
    cases ahead with
    | nil => simp [ends_char_nil] at h
    | cons x ahead =>
      rw [ends_char_cons] at h
      split at h
      · rw [List.mem_singleton.mp h]
        exact Nat.lt_succ_self _
      · simp at h
  | many s => simp [consumes] at hp
  | edge e => simp [consumes] at hp
  | seq p q ihp ihq =>
    obtain ⟨e, he, hd⟩ := List.mem_flatMap.mp h
    have hce : c.position ≤ e.position := (leads_of_mem_ends he).position_le
    have hed : e.position ≤ d.position := (leads_of_mem_ends hd).position_le
    rw [consumes, Bool.or_eq_true] at hp
    rcases hp with hp | hq
    · exact Nat.lt_of_lt_of_le (ihp hp he) hed
    · exact Nat.lt_of_le_of_lt hce (ihq hq hd)
  | either p q ihp ihq =>
    rw [consumes, Bool.and_eq_true] at hp
    rcases List.mem_append.mp h with h | h
    · exact ihp hp.1 h
    · exact ihq hp.2 h
  | group n p ih => exact ih hp h

theorem start_lt_stop {p : Pattern} (hp : p.consumes = true) {c : Cursor} {m : Match}
    (h : p.matchAt c = some m) : m.start < m.stop := by
  have hlt := position_lt_of_consumes hp (last_mem_ends h)
  rwa [← (span_of_matchAt h).1] at hlt

theorem stop_eq_of_matchAt {p : Pattern} {c : Cursor} {m : Match} (h : p.matchAt c = some m) :
    m.stop = m.start + m.length := by
  have hle : c.position ≤ m.span.last.position := (leads_of_mem_ends (last_mem_ends h)).position_le
  rw [← (span_of_matchAt h).1] at hle
  exact (Nat.add_sub_cancel' hle).symm

/-- Whether the last character that the pattern reads is always the given one. -/
def closesWith (x : Char) : Pattern → Bool
  | .char s => s = .only x
  | .seq _ q => q.closesWith x
  | .either p q => p.closesWith x && q.closesWith x
  | .group _ p => p.closesWith x
  | _ => false

theorem exists_behind_of_closesWith {p : Pattern} {x : Char} (hp : p.closesWith x = true)
    {c d : Cursor} (h : d ∈ p.ends c) : ∃ behind, d.behind = x :: behind := by
  induction p generalizing c d with
  | nothing => simp [closesWith] at hp
  | char s =>
    have hs : s = .only x := by simpa [closesWith] using hp
    obtain ⟨behind, ahead⟩ := c
    cases ahead with
    | nil => simp [ends_char_nil] at h
    | cons y ahead =>
      rw [ends_char_cons] at h
      split at h
      case isTrue hy =>
        rw [hs] at hy
        rw [List.mem_singleton.mp h, eq_of_beq hy]
        exact ⟨behind, rfl⟩
      case isFalse => simp at h
  | many s => simp [closesWith] at hp
  | edge e => simp [closesWith] at hp
  | seq p q ihp ihq =>
    obtain ⟨e, -, hd⟩ := List.mem_flatMap.mp h
    exact ihq hp hd
  | either p q ihp ihq =>
    rw [closesWith, Bool.and_eq_true] at hp
    rcases List.mem_append.mp h with h | h
    · exact ihp hp.1 h
    · exact ihq hp.2 h
  | group n p ih => exact ih hp h

/-! ### All matches -/

/-- To pass over some characters is to go on behind them. -/
theorem findAllFrom_append (p : Pattern) (passed behind ahead : List Char) :
    p.findAllFrom passed.length behind (passed ++ ahead) =
      p.findAllFrom 0 (passed.reverse ++ behind) ahead := by
  induction passed generalizing behind with
  | nil => rfl
  | cons x passed ih =>
    rw [List.length_cons, List.cons_append, findAllFrom, ih, List.reverse_cons,
      List.append_assoc, List.singleton_append]

theorem findAllFrom_of_matchAt {p : Pattern} (hp : p.consumes = true) {behind ahead : List Char}
    {x : Char} {m : Match} (h : p.matchAt ⟨behind, x :: ahead⟩ = some m) :
    p.findAllFrom 0 behind (x :: ahead) =
      m :: p.findAllFrom 0 m.span.last.behind m.span.last.ahead := by
  have hfirst : m.span.first = ⟨behind, x :: ahead⟩ := (span_of_matchAt h).1
  have hlt := position_lt_of_consumes hp (last_mem_ends h)
  obtain ⟨read, hahead, hbehind, -⟩ := leads_of_mem_ends (last_mem_ends h)
  dsimp only at hahead hbehind
  cases read with
  | nil => simp [Cursor.position, hbehind] at hlt
  | cons y read =>
    obtain ⟨rfl, rfl⟩ := List.cons.inj hahead
    have hlength : m.length - 1 = read.length := by
      simp only [Match.length, Span.length, Span.start, Span.stop, Cursor.position, hfirst, hbehind,
        List.length_append, List.length_reverse, List.length_cons]
      omega
    simp only [findAllFrom, h]
    congr 1
    calc p.findAllFrom (m.length - 1) (x :: behind) (read ++ m.span.last.ahead)
        = p.findAllFrom 0 (read.reverse ++ x :: behind) m.span.last.ahead := by
          rw [hlength, findAllFrom_append]
      _ = p.findAllFrom 0 m.span.last.behind m.span.last.ahead := by
          rw [hbehind, List.reverse_cons, List.append_assoc, List.singleton_append]

/-- All matches are the leftmost one and the matches in the text that is left behind it. -/
theorem findAll_eq_cons {p : Pattern} (hp : p.consumes = true) {text : List Char} {m : Match}
    (h : p.find? text = some m) :
    p.findAll text = m :: p.findAllFrom 0 m.span.last.behind m.span.last.ahead := by
  have hfrom (behind ahead : List Char) (h : p.findFrom behind ahead = some m) :
      p.findAllFrom 0 behind ahead =
        m :: p.findAllFrom 0 m.span.last.behind m.span.last.ahead := by
    induction ahead generalizing behind with
    | nil => simp [findFrom] at h
    | cons x ahead ih =>
      rw [findFrom] at h
      cases hm : p.matchAt ⟨behind, x :: ahead⟩ with
      | none =>
        rw [hm] at h
        rw [findAllFrom, hm]
        exact ih _ h
      | some n =>
        rw [hm] at h
        obtain rfl : n = m := Option.some.inj h
        exact findAllFrom_of_matchAt hp hm
  exact hfrom [] text h

/-- A match lies behind the characters that were passed over. -/
theorem le_start_of_mem_findAllFrom {p : Pattern} {skip : Nat} {behind ahead : List Char}
    {m : Match} (h : m ∈ p.findAllFrom skip behind ahead) : behind.length + skip ≤ m.start := by
  induction ahead generalizing skip behind with
  | nil => cases skip <;> simp [findAllFrom] at h
  | cons x ahead ih =>
    cases skip with
    | succ skip =>
      have hle := ih h
      rw [List.length_cons] at hle
      omega
    | zero =>
      rw [findAllFrom] at h
      cases hm : p.matchAt ⟨behind, x :: ahead⟩ with
      | none =>
        rw [hm] at h
        have hle := ih h
        rw [List.length_cons] at hle
        omega
      | some n =>
        rw [hm] at h
        rcases List.mem_cons.mp h with rfl | h
        · simp [Match.start, Span.start, Cursor.position, (span_of_matchAt hm).1]
        · have hle := ih h
          rw [List.length_cons] at hle
          omega

theorem exists_matchAt_of_mem_findAllFrom {p : Pattern} {skip : Nat} {behind ahead : List Char}
    {m : Match} (h : m ∈ p.findAllFrom skip behind ahead) : p.matchAt m.span.first = some m := by
  induction ahead generalizing skip behind with
  | nil => cases skip <;> simp [findAllFrom] at h
  | cons x ahead ih =>
    cases skip with
    | succ skip => exact ih h
    | zero =>
      rw [findAllFrom] at h
      cases hm : p.matchAt ⟨behind, x :: ahead⟩ with
      | none =>
        rw [hm] at h
        exact ih h
      | some n =>
        rw [hm] at h
        rcases List.mem_cons.mp h with rfl | h
        · rw [(span_of_matchAt hm).1, hm]
        · exact ih h

/-- The later matches end behind the end of the first. -/
theorem stop_lt_of_mem_findAllFrom {p : Pattern} (hp : p.consumes = true) {c : Cursor} {m : Match}
    (h : m ∈ p.findAllFrom 0 c.behind c.ahead) : c.position < m.stop := by
  have hstart : c.behind.length + 0 ≤ m.start := le_start_of_mem_findAllFrom h
  have hread := position_lt_of_consumes hp (last_mem_ends (exists_matchAt_of_mem_findAllFrom h))
  exact Nat.lt_of_le_of_lt hstart hread

/-- The matches stand one behind the other. -/
theorem pairwise_findAllFrom (p : Pattern) (skip : Nat) (behind ahead : List Char) :
    (p.findAllFrom skip behind ahead).Pairwise fun m n ↦ m.stop ≤ n.start := by
  induction ahead generalizing skip behind with
  | nil => cases skip <;> exact .nil
  | cons x ahead ih =>
    cases skip with
    | succ skip => exact ih skip (x :: behind)
    | zero =>
      rw [findAllFrom]
      cases hm : p.matchAt ⟨behind, x :: ahead⟩ with
      | none => exact ih 0 (x :: behind)
      | some m =>
        refine List.pairwise_cons.mpr ⟨fun n hn ↦ ?_, ih _ (x :: behind)⟩
        have hstart : m.start = behind.length := congrArg Cursor.position (span_of_matchAt hm).1
        have hstop : m.stop = m.start + m.length := stop_eq_of_matchAt hm
        have hle := le_start_of_mem_findAllFrom hn
        rw [List.length_cons] at hle
        omega

/-- Of two matches, one ends before the other starts. -/
theorem apart_of_mem_findAllFrom {p : Pattern} {skip : Nat} {behind ahead : List Char}
    {m n : Match} (hm : m ∈ p.findAllFrom skip behind ahead)
    (hn : n ∈ p.findAllFrom skip behind ahead) (hne : m ≠ n) :
    m.stop ≤ n.start ∨ n.stop ≤ m.start := by
  have hsymm : Std.Symm fun a b : Match ↦ a.stop ≤ b.start ∨ b.stop ≤ a.start :=
    ⟨fun _ _ ↦ Or.symm⟩
  have hapart : (p.findAllFrom skip behind ahead).Pairwise fun a b ↦
      a.stop ≤ b.start ∨ b.stop ≤ a.start := (pairwise_findAllFrom p skip behind ahead).imp .inl
  exact hapart.forall hm hn hne

/-- Where the pattern can be read, the search finds a match there or has one that reaches over the
position. -/
theorem exists_mem_findAllFrom {p : Pattern} (hp : p.consumes = true) {skip : Nat}
    {behind ahead : List Char} {c : Cursor} (hc : c ∈ starts behind ahead)
    (hskip : behind.length + skip ≤ c.position) (hm : (p.matchAt c).isSome = true) :
    ∃ m ∈ p.findAllFrom skip behind ahead, m.start ≤ c.position ∧ c.position < m.stop := by
  induction ahead generalizing skip behind with
  | nil => exact absurd hc List.not_mem_nil
  | cons x ahead ih =>
    have hposition : c = ⟨behind, x :: ahead⟩ ∨
        c ∈ starts (x :: behind) ahead ∧ behind.length < c.position := by
      rcases List.mem_cons.mp hc with hc | hc
      · exact .inl hc
      · obtain ⟨passed, -, hbehind, -⟩ := Cursor.exists_of_mem_starts hc
        refine .inr ⟨hc, ?_⟩
        rw [Cursor.position, hbehind, List.length_append, List.length_cons]
        omega
    cases skip with
    | succ skip =>
      rcases hposition with rfl | ⟨hc, -⟩
      · simp only [Cursor.position] at hskip
        omega
      · exact ih hc (by rw [List.length_cons]; omega)
    | zero =>
      rw [findAllFrom]
      cases hfirst : p.matchAt ⟨behind, x :: ahead⟩ with
      | none =>
        rcases hposition with rfl | ⟨hc, hlt⟩
        · rw [hfirst] at hm
          cases hm
        · exact ih hc (by rw [List.length_cons]; omega)
      | some m =>
        have hstart : m.start = behind.length := congrArg Cursor.position (span_of_matchAt hfirst).1
        have hstop : m.stop = m.start + m.length := stop_eq_of_matchAt hfirst
        have hread : m.start < m.stop := start_lt_stop hp hfirst
        by_cases hlt : c.position < m.stop
        · exact ⟨m, List.mem_cons_self, by omega, hlt⟩
        · rcases hposition with rfl | ⟨hc, -⟩
          · simp only [Cursor.position] at hlt
            omega
          · have hskip' : (x :: behind).length + (m.length - 1) ≤ c.position := by
              rw [List.length_cons]
              omega
            obtain ⟨n, hn, hfound⟩ := ih hc hskip'
            exact ⟨n, List.mem_cons_of_mem m hn, hfound⟩

/-! ### Groups -/

/-- A span from one position on to one that is reached from it holds what is read in between. -/
theorem ahead_eq_of_leads {has : Char → Bool} {s : Span} (h : s.first.Leads has s.last) :
    s.first.ahead = s.text ++ s.last.ahead := by
  obtain ⟨read, hahead, hbehind, -⟩ := h
  have hlength : s.length = read.length := by
    simp [Span.length, Span.start, Span.stop, Cursor.position, hbehind]
  rw [Span.text, hlength, hahead, List.take_left]

/-- A reading leads from one position to another, and what its groups read stands on the way. -/
structure Passes (can : Char → Bool) (c d : Cursor) (read : Groups) : Prop where
  leads : c.Leads can d
  groups : ∀ entry ∈ read, c.Leads can entry.2.first ∧ entry.2.first.Leads can entry.2.last

namespace Passes

variable {can other : Char → Bool} {c d e : Cursor} {first second : Groups}

theorem of_leads (h : c.Leads can d) : Passes can c d [] := ⟨h, List.forall_mem_nil _⟩

theorem mono (hcan : ∀ x, can x = true → other x = true) (h : Passes can c d first) :
    Passes other c d first := by
  refine ⟨.mono hcan h.leads, fun entry hentry ↦ ?_⟩
  exact (h.groups entry hentry).imp (.mono hcan) (.mono hcan)

theorem trans (h : Passes can c d first) (h' : Passes can d e second) :
    Passes can c e (second ++ first) := by
  refine ⟨.trans h.leads h'.leads, fun entry hentry ↦ ?_⟩
  rcases List.mem_append.mp hentry with hentry | hentry
  · obtain ⟨hstart, hstop⟩ := h'.groups entry hentry
    exact ⟨.trans h.leads hstart, hstop⟩
  · exact h.groups entry hentry

/-- A group around the reading is read on the way too. -/
theorem group (h : Passes can c d first) (n : Nat) : Passes can c d ((n, ⟨c, d⟩) :: first) :=
  ⟨h.leads, List.forall_mem_cons.mpr ⟨⟨.refl _ _, h.leads⟩, h.groups⟩⟩

end Passes

/-- A reading moves forward, and what its groups read stands one after the other on the way. -/
theorem exists_of_read_eq_some {α : Type} {p : Pattern} {rest : Cursor → Groups → Option α}
    {c : Cursor} {g : Groups} {a : α} (h : p.read rest c g = some a) :
    ∃ d read, rest d (read ++ g) = some a ∧ Passes p.canRead c d read := by
  induction p generalizing rest c g with
  | nothing => exact ⟨c, [], h, .of_leads (.refl _ _)⟩
  | char s =>
    obtain ⟨behind, ahead⟩ := c
    cases ahead with
    | nil => cases h
    | cons x ahead =>
      simp only [read] at h
      split at h
      case isTrue hx => exact ⟨_, [], h, .of_leads (.step hx)⟩
      case isFalse => cases h
  | many s =>
    rw [read, readMany_eq] at h
    obtain ⟨d, hd, hrest⟩ := List.exists_of_findSome?_eq_some h
    exact ⟨d, [], hrest, .of_leads (leads_of_mem_runEnds hd)⟩
  | edge e =>
    rw [read] at h
    split at h
    · exact ⟨c, [], h, .of_leads (.refl _ _)⟩
    · cases h
  | seq p q ihp ihq =>
    rw [read] at h
    obtain ⟨d, first, hrest, hfirst⟩ := ihp h
    obtain ⟨e, second, hrest, hsecond⟩ := ihq hrest
    refine ⟨e, second ++ first, by rw [List.append_assoc, hrest], .trans (hfirst.mono ?_)
      (hsecond.mono ?_)⟩ <;> simp +contextual [canRead]
  | either p q ihp ihq =>
    rw [read] at h
    split at h
    case h_1 b hb =>
      rw [h] at hb
      obtain ⟨d, first, hrest, hfirst⟩ := ihp hb
      exact ⟨d, first, hrest, hfirst.mono (by simp +contextual [canRead])⟩
    case h_2 =>
      obtain ⟨d, second, hrest, hsecond⟩ := ihq h
      exact ⟨d, second, hrest, hsecond.mono (by simp +contextual [canRead])⟩
  | group n p ih =>
    rw [read] at h
    obtain ⟨d, inner, hrest, hinner⟩ := ih h
    exact ⟨d, (n, ⟨c, d⟩) :: inner, hrest, hinner.group n⟩

/-- A group of a match goes from one position in the text that is searched to another. -/
theorem leads_of_group?_eq_some {p : Pattern} {text : List Char} {m : Match}
    (hm : p.find? text = some m) {number : Nat} {span : Span}
    (hspan : m.group? number = some span) :
    span.first.text = text ∧ span.first.Leads p.canRead span.last := by
  rw [find?, findFrom_eq] at hm
  obtain ⟨c, hc, hm⟩ := List.exists_of_findSome?_eq_some hm
  obtain ⟨passed, hahead, hbehind, -⟩ := Cursor.exists_of_mem_starts hc
  have htext : c.text = text := by simp [Cursor.text, hahead, hbehind]
  obtain ⟨d, read, hread, hpasses⟩ := exists_of_read_eq_some hm
  obtain ⟨entry, hentry, rfl⟩ := Option.map_eq_some_iff.mp hspan
  have hmem : entry ∈ read := by
    have hgroups : m.groups = read := by
      rw [← Option.some.inj hread, List.append_nil]
    rw [← hgroups]
    exact List.mem_of_find?_eq_some hentry
  obtain ⟨hstart, hstop⟩ := hpasses.groups entry hmem
  exact ⟨hstart.text_eq.trans htext, hstop⟩

/-- What a group of a match read lies in the text that is searched. -/
theorem exists_of_group?_eq_some {p : Pattern} {text : List Char} {m : Match}
    (hm : p.find? text = some m) {number : Nat} {span : Span}
    (hspan : m.group? number = some span) :
    span.first.text = text ∧ span.first.ahead = span.text ++ span.last.ahead := by
  obtain ⟨htext, hleads⟩ := leads_of_group?_eq_some hm hspan
  exact ⟨htext, ahead_eq_of_leads hleads⟩

end Pattern

end FlexGate
