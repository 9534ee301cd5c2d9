import FlexGate.Pattern.Search
import Mathlib.Data.List.Basic

/-!
# Where the readings of a pattern end

`Pattern.read` hands each reading of a pattern to what follows it, and takes the first that is
accepted. Here the readings stand in a list: `ends` holds the positions at which they end, in order
of preference, and `map_read` says that reading takes the first end from which the rest can go on.
A match therefore ends at the first of the ends (`map_span_matchAt`), and what can be said of a
match is said of ends, without continuations. The end that is preferred is found one part of the
pattern after the other (`head?_ends_seq`).

A reading moves forward over characters that the pattern can read (`leads_of_mem_ends`). It does
not depend on what lies beyond a character that the pattern cannot read, nor on what lies behind
the character before its start (`ends_within`): the text around a match may be exchanged.
-/

set_option autoImplicit false
set_option relaxedAutoImplicit false

namespace FlexGate

namespace Pattern

/-! ### Ends in order of preference -/

/-- The positions behind a run of characters of a set, the farthest first. -/
def runEnds (s : CharClass) : List Char → List Char → List Cursor
  | behind, [] => [⟨behind, []⟩]
  | behind, x :: ahead =>
    if s.has x then runEnds s (x :: behind) ahead ++ [⟨behind, x :: ahead⟩]
    else [⟨behind, x :: ahead⟩]

/-- The positions at which the readings of a pattern end, in order of preference. -/
def ends : Pattern → Cursor → List Cursor
  | .nothing, c => [c]
  | .char s, c =>
    match c.ahead with
    | [] => []
    | x :: ahead => if s.has x then [⟨x :: c.behind, ahead⟩] else []
  | .many s, c => runEnds s c.behind c.ahead
  | .edge e, c => if e.holds c then [c] else []
  | .seq p q, c => (p.ends c).flatMap q.ends
  | .either p q, c => p.ends c ++ q.ends c
  | .group _ p, c => p.ends c

theorem ends_nothing (c : Cursor) : nothing.ends c = [c] := rfl

theorem ends_char_nil (s : CharClass) (behind : List Char) :
    (char s).ends ⟨behind, []⟩ = [] := rfl

theorem ends_char_cons (s : CharClass) (behind : List Char) (x : Char) (ahead : List Char) :
    (char s).ends ⟨behind, x :: ahead⟩ = if s.has x then [⟨x :: behind, ahead⟩] else [] := rfl

theorem ends_many (s : CharClass) (c : Cursor) :
    (many s).ends c = runEnds s c.behind c.ahead := rfl

theorem ends_edge (e : Edge) (c : Cursor) : (edge e).ends c = if e.holds c then [c] else [] := rfl

theorem ends_seq (p q : Pattern) (c : Cursor) :
    (seq p q).ends c = (p.ends c).flatMap q.ends := rfl

theorem ends_either (p q : Pattern) (c : Cursor) :
    (either p q).ends c = p.ends c ++ q.ends c := rfl

theorem ends_group (n : Nat) (p : Pattern) : (group n p).ends = p.ends := rfl

theorem readMany_eq {α : Type} (s : CharClass) (rest : Cursor → Option α)
    (behind ahead : List Char) :
    readMany s rest behind ahead = (runEnds s behind ahead).findSome? rest := by
  induction ahead generalizing behind with
  | nil => simp [readMany, runEnds]
  | cons x ahead ih =>
    rw [readMany, runEnds]
    split
    · rw [ih, List.findSome?_append, List.findSome?_singleton]
      cases (runEnds s (x :: behind) ahead).findSome? rest <;> rfl
    · rw [List.findSome?_singleton]

theorem findSome?_flatMap {α β γ : Type} (l : List α) (f : α → List β) (k : β → Option γ) :
    (l.flatMap f).findSome? k = l.findSome? fun a ↦ (f a).findSome? k := by
  induction l with
  | nil => rfl
  | cons a l ih =>
    rw [List.flatMap_cons, List.findSome?_append, ih, List.findSome?_cons]
    cases (f a).findSome? k <;> rfl

theorem findSome?_congr {α β : Type} {l : List α} {f k : α → Option β}
    (h : ∀ a ∈ l, f a = k a) : l.findSome? f = l.findSome? k := by
  induction l with
  | nil => rfl
  | cons a l ih =>
    rw [List.findSome?_cons, List.findSome?_cons, h a List.mem_cons_self,
      ih fun b hb ↦ h b (List.mem_cons_of_mem a hb)]

/-- Reading takes the first end from which the rest can go on. What the rest gives may hold the
groups that were read; `f` keeps the part of it that does not depend on them. -/
theorem map_read {α β : Type} (f : α → β) (p : Pattern) {rest : Cursor → Groups → Option α}
    {k : Cursor → Option β} (hrest : ∀ d g, (rest d g).map f = k d) (c : Cursor) (g : Groups) :
    (p.read rest c g).map f = (p.ends c).findSome? k := by
  induction p generalizing rest k c g with
  | nothing => simp [read, ends_nothing, hrest]
  | char s =>
    obtain ⟨behind, ahead⟩ := c
    cases ahead with
    | nil => rfl
    | cons x ahead =>
      rw [read, ends_char_cons]
      dsimp only
      split
      · rw [hrest, List.findSome?_singleton]
      · rfl
  | many s =>
    rw [read, readMany_eq, List.map_findSome?, ends_many]
    congr 1
    exact funext fun d ↦ hrest d g
  | edge e =>
    rw [read, ends_edge]
    split
    · rw [hrest, List.findSome?_singleton]
    · rfl
  | seq p q ihp ihq =>
    rw [read, ends_seq, findSome?_flatMap]
    exact ihp (fun d h ↦ ihq hrest d h) c g
  | either p q ihp ihq =>
    rw [ends_either, List.findSome?_append, ← ihp hrest c g, ← ihq hrest c g, read]
    cases p.read rest c g <;> rfl
  | group n p ih =>
    rw [read, ends_group]
    exact ih (fun d h ↦ hrest d _) c g

/-- A match starts where it is looked for and ends at the first of the ends. -/
theorem map_span_matchAt (p : Pattern) (c : Cursor) :
    (p.matchAt c).map Match.span = (p.ends c).head?.map fun d ↦ ⟨c, d⟩ := by
  have hspan (d : Cursor) (g : Groups) :
      (some (⟨⟨c, d⟩, g⟩ : Match)).map Match.span = some ⟨c, d⟩ := rfl
  rw [matchAt, map_read Match.span p hspan]
  cases p.ends c <;> rfl

/-! ### What is read -/

end Pattern

/-- A position that is reached from another by reading characters that have a property. -/
def Cursor.Leads (has : Char → Bool) (c d : Cursor) : Prop :=
  ∃ read : List Char, c.ahead = read ++ d.ahead ∧ d.behind = read.reverse ++ c.behind ∧
    ∀ x ∈ read, has x = true

namespace Cursor.Leads

variable {has other : Char → Bool} {b c d : Cursor}

theorem refl (has : Char → Bool) (c : Cursor) : c.Leads has c :=
  ⟨[], rfl, rfl, fun _ h ↦ absurd h List.not_mem_nil⟩

theorem step {x : Char} {behind ahead : List Char} (h : has x = true) :
    Cursor.Leads has ⟨behind, x :: ahead⟩ ⟨x :: behind, ahead⟩ :=
  ⟨[x], rfl, rfl, by simpa using h⟩

theorem trans (hbc : b.Leads has c) (hcd : c.Leads has d) : b.Leads has d := by
  obtain ⟨first, hb, hc, hfirst⟩ := hbc
  obtain ⟨second, hc', hd, hsecond⟩ := hcd
  refine ⟨first ++ second, ?_, ?_, ?_⟩
  · rw [hb, hc', List.append_assoc]
  · rw [hd, hc, List.reverse_append, List.append_assoc]
  · intro x hx
    rcases List.mem_append.mp hx with hx | hx
    · exact hfirst x hx
    · exact hsecond x hx

theorem mono (h : ∀ x, has x = true → other x = true) (hcd : c.Leads has d) :
    c.Leads other d := by
  obtain ⟨read, ha, hb, hr⟩ := hcd
  exact ⟨read, ha, hb, fun x hx ↦ h x (hr x hx)⟩

theorem text_eq (h : c.Leads has d) : d.text = c.text := by
  obtain ⟨read, ha, hb, -⟩ := h
  simp [Cursor.text, ha, hb]

theorem position_le (h : c.Leads has d) : c.position ≤ d.position := by
  obtain ⟨read, -, hb, -⟩ := h
  simp [Cursor.position, hb]

/-- A character that cannot be read is still ahead. -/
theorem mem_ahead {x : Char} (h : c.Leads has d) (hx : has x = false) (hc : x ∈ c.ahead) :
    x ∈ d.ahead := by
  obtain ⟨read, ha, -, hr⟩ := h
  rw [ha] at hc
  rcases List.mem_append.mp hc with hc | hc
  · exact absurd (hr x hc) (by simp [hx])
  · exact hc

/-- The character behind a position that has one does not go away. -/
theorem behind_ne_nil (h : c.Leads has d) (hc : c.behind ≠ []) : d.behind ≠ [] := by
  obtain ⟨read, -, hb, -⟩ := h
  simp [hb, hc]

end Cursor.Leads

namespace Pattern

/-- The characters that a pattern has a use for. -/
def canRead : Pattern → Char → Bool
  | .nothing, _ => false
  | .char s, x => s.has x
  | .many s, x => s.has x
  | .edge _, _ => false
  | .seq p q, x => p.canRead x || q.canRead x
  | .either p q, x => p.canRead x || q.canRead x
  | .group _ p, x => p.canRead x

theorem leads_of_mem_runEnds {s : CharClass} {behind ahead : List Char} {d : Cursor}
    (h : d ∈ runEnds s behind ahead) : Cursor.Leads s.has ⟨behind, ahead⟩ d := by
  induction ahead generalizing behind with
  | nil =>
    rw [runEnds, List.mem_singleton] at h
    exact h ▸ .refl _ _
  | cons x ahead ih =>
    rw [runEnds] at h
    split at h
    case isTrue hx =>
      rcases List.mem_append.mp h with h | h
      · exact .trans (.step hx) (ih h)
      · exact List.mem_singleton.mp h ▸ .refl _ _
    case isFalse => exact List.mem_singleton.mp h ▸ .refl _ _

/-- A run that is preferred to all others is the longest. -/
theorem head?_runEnds (s : CharClass) (behind ahead : List Char) :
    (runEnds s behind ahead).head? =
      some ⟨(ahead.takeWhile s.has).reverse ++ behind, ahead.dropWhile s.has⟩ := by
  induction ahead generalizing behind with
  | nil => rfl
  | cons x ahead ih =>
    rw [runEnds]
    split
    case isTrue hx => simp [List.head?_append, ih, hx]
    case isFalse hx => simp [hx]

/-- The characters of a word are read in one way only. -/
theorem ends_exactly (word : List Char) (c : Cursor) :
    (exactly word).ends c =
      if word.isPrefixOf c.ahead then [⟨word.reverse ++ c.behind, c.ahead.drop word.length⟩]
      else [] := by
  induction word generalizing c with
  | nil =>
    obtain ⟨behind, ahead⟩ := c
    simp [exactly, ends_nothing]
  | cons x word ih =>
    obtain ⟨behind, ahead⟩ := c
    have hseq : (exactly (x :: word)).ends ⟨behind, ahead⟩ =
        ((Pattern.char (.only x)).ends ⟨behind, ahead⟩).flatMap (exactly word).ends := by
      cases word with
      | nil =>
        rw [exactly, exactly]
        exact (List.flatMap_singleton' _).symm
      | cons y word => rfl
    rw [hseq]
    cases ahead with
    | nil => simp [ends_char_nil]
    | cons y ahead =>
      rw [ends_char_cons]
      by_cases hy : y = x
      · simp [CharClass.has, hy, ih, List.isPrefixOf]
      · have hne : (x == y) = false := beq_eq_false_iff_ne.mpr (Ne.symm hy)
        simp [CharClass.has, hy, hne, List.isPrefixOf]

/-- A reading moves forward over characters that the pattern can read. -/
theorem leads_of_mem_ends {p : Pattern} {c d : Cursor} (h : d ∈ p.ends c) :
    c.Leads p.canRead d := by
  induction p generalizing c d with
  | nothing =>
    rw [ends_nothing, List.mem_singleton] at h
    exact h ▸ .refl _ _
  | char s =>
    obtain ⟨behind, ahead⟩ := c
    cases ahead with
    | nil => simp [ends_char_nil] at h
    | cons x ahead =>
      rw [ends_char_cons] at h
      split at h
      case isTrue hx => exact List.mem_singleton.mp h ▸ .step hx
      case isFalse => simp at h
  | many s => exact leads_of_mem_runEnds h
  | edge e =>
    rw [ends_edge] at h
    split at h
    · exact List.mem_singleton.mp h ▸ .refl _ _
    · simp at h
  | seq p q ihp ihq =>
    obtain ⟨e, hp, hq⟩ := List.mem_flatMap.mp h
    exact .trans (.mono (fun x hx ↦ by simp [canRead, hx]) (ihp hp))
      (.mono (fun x hx ↦ by simp [canRead, hx]) (ihq hq))
  | either p q ihp ihq =>
    rcases List.mem_append.mp h with h | h
    · exact .mono (fun x hx ↦ by simp [canRead, hx]) (ihp h)
    · exact .mono (fun x hx ↦ by simp [canRead, hx]) (ihq h)
  | group n p ih => exact ih h

/-! ### The end that is preferred -/

section Preferred

variable {p q : Pattern} {c d e : Cursor} {behind rest : List Char}

theorem head?_ends_seq (hp : (p.ends c).head? = some d) (hq : (q.ends d).head? = some e) :
    ((Pattern.seq p q).ends c).head? = some e := by
  obtain ⟨others, hends⟩ := List.head?_eq_some_iff.mp hp
  rw [ends_seq, hends, List.flatMap_cons, List.head?_append, hq, Option.some_or]

theorem head?_ends_either (hp : (p.ends c).head? = some d) :
    ((Pattern.either p q).ends c).head? = some d := by
  rw [ends_either, List.head?_append, hp, Option.some_or]

theorem head?_ends_char {s : CharClass} {x : Char} (hx : s.has x = true) :
    ((Pattern.char s).ends ⟨behind, x :: rest⟩).head? = some ⟨x :: behind, rest⟩ := by
  simp [ends_char_cons, hx]

/-- The preferred run ends where it has to. -/
theorem head?_ends_many {s : CharClass} {run : List Char} (hrun : ∀ x ∈ run, s.has x = true)
    (hrest : ∀ x ∈ rest.head?, s.has x = false) :
    ((Pattern.many s).ends ⟨behind, run ++ rest⟩).head? = some ⟨run.reverse ++ behind, rest⟩ := by
  have hstop : rest.takeWhile s.has = [] ∧ rest.dropWhile s.has = rest := by
    cases rest with
    | nil => exact ⟨rfl, rfl⟩
    | cons x rest =>
      have hx : s.has x = false := hrest x rfl
      exact ⟨by simp [hx], by simp [hx]⟩
  rw [ends_many, head?_runEnds, List.takeWhile_append_of_pos hrun,
    List.dropWhile_append_of_pos hrun, hstop.1, hstop.2, List.append_nil]

theorem head?_ends_some1 {s : CharClass} {run : List Char} (hne : run ≠ [])
    (hrun : ∀ x ∈ run, s.has x = true) (hrest : ∀ x ∈ rest.head?, s.has x = false) :
    ((some1 s).ends ⟨behind, run ++ rest⟩).head? = some ⟨run.reverse ++ behind, rest⟩ := by
  obtain ⟨x, run, rfl⟩ := List.exists_cons_of_ne_nil hne
  have hmany : ((Pattern.many s).ends ⟨x :: behind, run ++ rest⟩).head? =
      some ⟨run.reverse ++ x :: behind, rest⟩ :=
    head?_ends_many (fun y hy ↦ hrun y (List.mem_cons_of_mem x hy)) hrest
  rw [List.reverse_cons, List.append_assoc]
  exact head?_ends_seq (head?_ends_char (hrun x List.mem_cons_self)) hmany

theorem head?_ends_exactly (word : List Char) :
    ((exactly word).ends ⟨behind, word ++ rest⟩).head? = some ⟨word.reverse ++ behind, rest⟩ := by
  simp [ends_exactly]

theorem head?_ends_edge {edge : Edge} (h : edge.holds c = true) :
    ((Pattern.edge edge).ends c).head? = some c := by
  simp [ends_edge, h]

end Preferred

end Pattern

/-! ### The text around a reading -/

namespace Cursor

/-- The same position when more text stands around: more characters behind those behind it, the
nearest first, and more ahead of those ahead of it. -/
def within (before after : List Char) (c : Cursor) : Cursor :=
  ⟨c.behind ++ before, c.ahead ++ after⟩

@[simp] theorem within_nil (c : Cursor) : c.within [] [] = c := by simp [within]

/-- More text around a position is out of sight of a pattern that can read certain characters: if
there is more of it behind, then some character stands between, and if there is more of it ahead,
then some character stands between that the pattern cannot read. -/
structure Encloses (has : Char → Bool) (before after : List Char) (c : Cursor) : Prop where
  behind : before = [] ∨ c.behind ≠ []
  ahead : after = [] ∨ ∃ x ∈ c.ahead, has x = false

namespace Encloses

variable {has other : Char → Bool} {before after : List Char} {c d : Cursor}

theorem mono (h : ∀ x, other x = true → has x = true) (hc : c.Encloses has before after) :
    c.Encloses other before after where
  behind := hc.behind
  ahead := hc.ahead.imp id fun ⟨x, hx, hn⟩ ↦
    ⟨x, hx, Bool.eq_false_iff.mpr fun ho ↦ by simp [h x ho] at hn⟩

theorem of_leads (hc : c.Encloses has before after) (h : c.Leads has d) :
    d.Encloses has before after where
  behind := hc.behind.imp id h.behind_ne_nil
  ahead := hc.ahead.imp id fun ⟨x, hx, hn⟩ ↦ ⟨x, h.mem_ahead hn hx, hn⟩

end Encloses

theorem leadsWithWord_append {text : List Char} (h : text ≠ []) (more : List Char) :
    leadsWithWord (text ++ more) = leadsWithWord text := by
  cases text with
  | nil => exact absurd rfl h
  | cons x text => rfl

theorem Encloses.ahead_ne_nil {has : Char → Bool} {before after : List Char} {c : Cursor}
    (h : c.Encloses has before after) : after = [] ∨ c.ahead ≠ [] :=
  h.ahead.imp id fun ⟨_, hx, _⟩ ↦ List.ne_nil_of_mem hx

end Cursor

theorem Edge.holds_within {has : Char → Bool} {before after : List Char} {c : Cursor}
    (h : c.Encloses has before after) (e : Edge) : e.holds (c.within before after) = e.holds c := by
  have hbehind : before = [] ∨ c.behind ≠ [] := h.behind
  have hahead : after = [] ∨ c.ahead ≠ [] := h.ahead_ne_nil
  cases e with
  | word =>
    have hb : Cursor.leadsWithWord (c.behind ++ before) = Cursor.leadsWithWord c.behind := by
      rcases hbehind with rfl | hne
      · rw [List.append_nil]
      · exact Cursor.leadsWithWord_append hne before
    have ha : Cursor.leadsWithWord (c.ahead ++ after) = Cursor.leadsWithWord c.ahead := by
      rcases hahead with rfl | hne
      · rw [List.append_nil]
      · exact Cursor.leadsWithWord_append hne after
    simp only [holds, Cursor.within, hb, ha]
  | textStart =>
    rcases hbehind with rfl | hne
    · simp [holds, Cursor.within]
    · obtain ⟨x, behind, hc⟩ := List.exists_cons_of_ne_nil hne
      simp [holds, Cursor.within, hc]
  | textEnd =>
    rcases hahead with rfl | hne
    · simp [holds, Cursor.within]
    · obtain ⟨x, ahead, hc⟩ := List.exists_cons_of_ne_nil hne
      simp [holds, Cursor.within, hc]

namespace Pattern

open Cursor (Encloses)

theorem runEnds_within {s : CharClass} {before after behind ahead : List Char}
    (h : Encloses s.has before after ⟨behind, ahead⟩) :
    runEnds s (behind ++ before) (ahead ++ after) =
      (runEnds s behind ahead).map (Cursor.within before after) := by
  induction ahead generalizing behind with
  | nil =>
    have hafter : after = [] := h.ahead_ne_nil.resolve_right (absurd rfl)
    simp [hafter, runEnds, Cursor.within]
  | cons x ahead ih =>
    rw [List.cons_append, runEnds, runEnds]
    split
    case isTrue hx =>
      rw [List.map_append, ← ih (h.of_leads (.step hx))]
      rfl
    case isFalse => rfl

/-- The readings of a pattern do not depend on text that is out of its sight. -/
theorem ends_within {p : Pattern} {before after : List Char} {c : Cursor}
    (h : c.Encloses p.canRead before after) :
    p.ends (c.within before after) = (p.ends c).map (Cursor.within before after) := by
  induction p generalizing c with
  | nothing => rfl
  | char s =>
    obtain ⟨behind, ahead⟩ := c
    cases ahead with
    | nil =>
      have hafter : after = [] := h.ahead_ne_nil.resolve_right (absurd rfl)
      simp [hafter, ends_char_nil, Cursor.within]
    | cons x ahead =>
      simp only [Cursor.within, List.cons_append, ends_char_cons]
      split <;> rfl
  | many s => exact runEnds_within h
  | edge e =>
    rw [ends_edge, ends_edge, Edge.holds_within h]
    split <;> rfl
  | seq p q ihp ihq =>
    have hp : c.Encloses p.canRead before after := h.mono fun x hx ↦ by simp [canRead, hx]
    rw [ends_seq, ends_seq, ihp hp, List.flatMap_map, List.map_flatMap]
    refine List.flatMap_congr fun d hd ↦ ihq ?_
    have hd' : c.Leads (canRead (.seq p q)) d :=
      (leads_of_mem_ends hd).mono fun x hx ↦ by simp [canRead, hx]
    exact (h.of_leads hd').mono fun x hx ↦ by simp [canRead, hx]
  | either p q ihp ihq =>
    rw [ends_either, ends_either, List.map_append, ihp (h.mono fun x hx ↦ by simp [canRead, hx]),
      ihq (h.mono fun x hx ↦ by simp [canRead, hx])]
  | group n p ih => exact ih h

end Pattern

end FlexGate
