import FlexGate.Proofs.Path.Segments
import Mathlib.Data.List.DropRight

/-!
# Where a path leads on paper

A path is resolved step by step, without looking at any file (`resolve`): a step up takes back the
last name, or leaves the place where the path starts if no name is left to take back. What a
relative path does behind a base depends on its own location only (`resolve_join`), so it leads
below the base just when it takes no name of the base back, or puts those that it took back in the
same order (`below_append_iff`).
-/

set_option autoImplicit false
set_option relaxedAutoImplicit false

namespace FlexGate

/-- What is left of a path when its steps are taken: from the root, or from any place after so many
steps up, down along names. -/
structure Location where
  absolute : Bool
  ups : Nat
  names : List (List Char)
  deriving DecidableEq, Repr

namespace Location

/-- Nothing is above the root. -/
def up (l : Location) : Location :=
  if l.names ≠ [] then { l with names := l.names.dropLast }
  else if l.absolute then l
  else { l with ups := l.ups + 1 }

def enter (l : Location) : Path.Component → Location
  | .root => ⟨true, 0, []⟩
  | .here => l
  | .parent => l.up
  | .named name => { l with names := l.names ++ [name] }

/-- The location is another one than the base, and it is reached from the base along names. -/
def Below (base l : Location) : Prop :=
  l.absolute = base.absolute ∧ l.ups = base.ups ∧ base.names <+: l.names ∧ l.names ≠ base.names

instance (base l : Location) : Decidable (Below base l) :=
  inferInstanceAs (Decidable (_ ∧ _ ∧ _ ∧ _))

/-- A relative location as it is seen from another: its steps up take back names there. -/
def append (base own : Location) : Location where
  absolute := base.absolute
  ups := if base.absolute then base.ups else base.ups + (own.ups - base.names.length)
  names := base.names.rdrop own.ups ++ own.names

/-- The names of the base that a relative location takes back are those that its own names begin
with, and more follow. -/
def Reenters (base own : Location) : Prop :=
  (base.absolute = true ∨ own.ups ≤ base.names.length) ∧
    base.names.rtake own.ups <+: own.names ∧ own.names ≠ base.names.rtake own.ups

instance (base own : Location) : Decidable (Reenters base own) :=
  inferInstanceAs (Decidable (_ ∧ _ ∧ _))

end Location

namespace Path

def resolve (p : Path) : Location := (components p).foldl Location.enter ⟨false, 0, []⟩

end Path

namespace Location

variable {base own : Location}

theorem rdrop_eq_nil_iff {names : List (List Char)} {n : Nat} :
    names.rdrop n = [] ↔ names.length ≤ n := by
  rw [List.rdrop, List.take_eq_nil_iff]
  constructor
  · rintro (h | rfl)
    · omega
    · exact Nat.zero_le n
  · intro h
    exact .inl (by omega)

theorem dropLast_rdrop (names : List (List Char)) (n : Nat) :
    (names.rdrop n).dropLast = names.rdrop (n + 1) := by
  rw [List.dropLast_eq_take, List.rdrop, List.rdrop, List.take_take, List.length_take]
  congr 1
  omega

theorem up_append (base : Location) (h : own.absolute = false) :
    (base.append own).up = base.append own.up := by
  by_cases hnames : own.names = []
  · have hown : own.up = { own with ups := own.ups + 1 } := by simp [up, hnames, h]
    rw [hown]
    by_cases hnone : base.names.rdrop own.ups = []
    · -- No name of the base is left, so the step leaves the place where the base starts.
      have hlength : base.names.length ≤ own.ups := rdrop_eq_nil_iff.mp hnone
      have hnext : base.names.rdrop (own.ups + 1) = [] :=
        rdrop_eq_nil_iff.mpr (Nat.le_succ_of_le hlength)
      have hups : base.ups + (own.ups - base.names.length) + 1 =
          base.ups + (own.ups + 1 - base.names.length) := by omega
      cases habsolute : base.absolute <;> simp [up, append, hnames, hnone, hnext, hups, habsolute]
    · have hlength : own.ups < base.names.length := Nat.lt_of_not_le (mt rdrop_eq_nil_iff.mpr hnone)
      have hups : own.ups - base.names.length = own.ups + 1 - base.names.length := by omega
      simp [up, append, hnames, hnone, dropLast_rdrop, hups]
  · simp [up, append, hnames, List.dropLast_append_of_ne_nil]

theorem enter_append (base : Location) (h : own.absolute = false) {c : Path.Component}
    (hc : .root ≠ c) :
    (base.append own).enter c = base.append (own.enter c) ∧ (own.enter c).absolute = false := by
  cases c with
  | root => exact absurd rfl hc
  | here => exact ⟨rfl, h⟩
  | named name => exact ⟨by simp [enter, append], h⟩
  | parent =>
    refine ⟨up_append base h, ?_⟩
    simp only [enter, up, h]
    split
    · rfl
    · rfl

theorem foldl_enter_append (base : Location) {steps : List Path.Component}
    (hsteps : .root ∉ steps) (h : own.absolute = false) :
    steps.foldl enter (base.append own) = base.append (steps.foldl enter own) := by
  induction steps generalizing own with
  | nil => rfl
  | cons c steps ih =>
    obtain ⟨hc, hrest⟩ := not_or.mp (mt List.mem_cons.mpr hsteps)
    obtain ⟨hstep, hown⟩ := enter_append base h hc
    rw [List.foldl_cons, List.foldl_cons, hstep, ih hrest hown]

theorem append_nowhere (base : Location) : base.append ⟨false, 0, []⟩ = base := by
  cases base with
  | mk absolute ups names => simp [append]

theorem below_append_iff : Below base (base.append own) ↔ Reenters base own := by
  have hsplit : base.names.rdrop own.ups ++ base.names.rtake own.ups = base.names :=
    List.take_append_drop _ _
  have hups : (base.append own).ups = base.ups ↔
      base.absolute = true ∨ own.ups ≤ base.names.length := by
    cases habsolute : base.absolute <;> simp [append, habsolute]
    omega
  have hprefix : base.names <+: (base.append own).names ↔
      base.names.rtake own.ups <+: own.names := by
    conv_lhs => rw [← hsplit]
    exact List.prefix_append_right_inj _
  have hne : (base.append own).names ≠ base.names ↔ own.names ≠ base.names.rtake own.ups := by
    conv_lhs => rw [← hsplit]
    exact not_congr (List.append_right_inj _)
  rw [Below, hups, hprefix, hne, Reenters]
  exact and_iff_right rfl

theorem reenters_of_ups_eq_zero (hups : own.ups = 0) (hnames : own.names ≠ []) :
    Reenters base own := by
  rw [Reenters, hups, List.rtake_zero]
  exact ⟨.inr (Nat.zero_le _), List.nil_prefix, hnames⟩

end Location

namespace Path

theorem root_not_mem_steps (p : Path) : .root ∉ steps p := by
  rw [steps, List.mem_map]
  rintro ⟨segment, -, hsegment⟩
  rw [Component.ofSegment] at hsegment
  split at hsegment <;> cases hsegment

/-- A path is resolved by its steps, from the root or from the place where it starts. -/
theorem resolve_eq (p : Path) :
    resolve p = (steps p).foldl Location.enter ⟨isAbsolute p, 0, []⟩ := by
  rw [resolve, components_eq]
  cases habsolute : isAbsolute p with
  | true => rfl
  | false =>
    rw [if_neg Bool.false_ne_true]
    split <;> rfl

/-- What a relative path does behind a base depends on its own location only. -/
theorem resolve_join {p : Path} (h : isAbsolute p = false) (base : Path) :
    resolve (join base p) = (resolve base).append (resolve p) := by
  rw [resolve_eq, isAbsolute_join h, steps_join h, List.foldl_append, ← resolve_eq base,
    resolve_eq p, h, ← Location.foldl_enter_append _ (root_not_mem_steps p) rfl,
    Location.append_nowhere]

theorem foldl_enter_ofSegment {names : List (List Char)} (h : ['.', '.'] ∉ names) (l : Location) :
    (names.map Component.ofSegment).foldl Location.enter l =
      { l with names := l.names ++ names } := by
  induction names generalizing l with
  | nil => simp
  | cons name names ih =>
    obtain ⟨hname, hrest⟩ := not_or.mp (mt List.mem_cons.mpr h)
    rw [List.map_cons, List.foldl_cons, ih hrest, Component.ofSegment, if_neg (Ne.symm hname)]
    simp [Location.enter]

/-- A path without a step up leads down along its names. -/
theorem resolve_of_no_up {p : Path} (h : ['.', '.'] ∉ segments p) :
    resolve p = ⟨isAbsolute p, 0, (segments p).filter fun s ↦ !isVoid s⟩ := by
  rw [resolve_eq, steps, foldl_enter_ofSegment fun hmem ↦ h (List.mem_of_mem_filter hmem)]
  rfl

end Path

end FlexGate
