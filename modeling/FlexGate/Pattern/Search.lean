import FlexGate.Pattern.Basic

/-!
Searching a text for a pattern. A search walks the text from left to right and takes the match at
the first position that has one; all matches are found by resuming the walk where the last match
ended, so they do not overlap. A match starts at a character of the text.
-/

set_option autoImplicit false
set_option relaxedAutoImplicit false

namespace FlexGate

structure Match where
  span : Span
  groups : Groups
  deriving DecidableEq

namespace Match

def start (m : Match) : Nat := m.span.start

def stop (m : Match) : Nat := m.span.stop

def length (m : Match) : Nat := m.span.length

def text (m : Match) : List Char := m.span.text

/-- What a numbered group read, if the match went through it. -/
def group? (m : Match) (number : Nat) : Option Span :=
  (m.groups.find? fun g ↦ g.1 == number).map Prod.snd

end Match

namespace Pattern

def matchAt (p : Pattern) (c : Cursor) : Option Match :=
  p.read (fun d g ↦ some ⟨⟨c, d⟩, g⟩) c []

def findFrom (p : Pattern) : List Char → List Char → Option Match
  | _, [] => none
  | behind, x :: ahead =>
    match p.matchAt ⟨behind, x :: ahead⟩ with
    | some m => some m
    | none => p.findFrom (x :: behind) ahead

/-- The leftmost match. -/
def find? (p : Pattern) (text : List Char) : Option Match := p.findFrom [] text

def occursIn (p : Pattern) (text : List Char) : Bool := (p.find? text).isSome

/-- Matches from a position on, after passing over a number of characters already read. -/
def findAllFrom (p : Pattern) : Nat → List Char → List Char → List Match
  | _, _, [] => []
  | skip + 1, behind, x :: ahead => p.findAllFrom skip (x :: behind) ahead
  | 0, behind, x :: ahead =>
    match p.matchAt ⟨behind, x :: ahead⟩ with
    | some m => m :: p.findAllFrom (m.length - 1) (x :: behind) ahead
    | none => p.findAllFrom 0 (x :: behind) ahead

/-- All matches that do not overlap, from left to right. -/
def findAll (p : Pattern) (text : List Char) : List Match := p.findAllFrom 0 [] text

def count (p : Pattern) (text : List Char) : Nat := (p.findAll text).length

theorem head?_findAllFrom (p : Pattern) (behind ahead : List Char) :
    (p.findAllFrom 0 behind ahead).head? = p.findFrom behind ahead := by
  induction ahead generalizing behind with
  | nil => rfl
  | cons x ahead ih =>
    cases h : p.matchAt ⟨behind, x :: ahead⟩ with
    | none => simp [findAllFrom, findFrom, h, ih]
    | some m => simp [findAllFrom, findFrom, h]

/-- The first of all matches is the leftmost one. -/
theorem head?_findAll (p : Pattern) (text : List Char) : (p.findAll text).head? = p.find? text :=
  head?_findAllFrom p [] text

theorem findAll_eq_nil_iff (p : Pattern) (text : List Char) :
    p.findAll text = [] ↔ p.occursIn text = false := by
  rw [occursIn, ← head?_findAll]
  cases p.findAll text <;> simp

theorem count_pos_iff (p : Pattern) (text : List Char) :
    0 < p.count text ↔ p.occursIn text = true := by
  have h := findAll_eq_nil_iff p text
  cases hc : p.findAll text <;> simp_all [count]

end Pattern

end FlexGate
