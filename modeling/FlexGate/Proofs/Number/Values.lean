import FlexGate.Number.Binary
import Mathlib.Algebra.Order.Field.Power
import Mathlib.Algebra.Order.WithTop.Untop0
import Mathlib.Data.Rat.Cast.Order
import Mathlib.Tactic.NormNum
import Mathlib.Tactic.Ring

/-!
# The values of binary floating-point numbers

A finite value is a rational number, and the infinite ones lie beyond all of these (`value?`). One
value is less than another when its number is less (`lt_iff`), so a comparison is never rounded.

A quotient is rounded to a whole number of last bits (`value?_ofQuotient`), and it has as many bits
as the format unless the last bit is the least of all (`pow_lastBit_le`). Rounding therefore crosses
no number of the format (`le_value_ofQuotient`, `value_ofQuotient_le`), and leaves such a number as
it is (`value?_ofQuotient_of_has`).
-/

set_option autoImplicit false
set_option relaxedAutoImplicit false

namespace FlexGate

theorem two_zpow_pos (e : Int) : (0 : ℚ) < 2 ^ e := zpow_pos (by norm_num) e

/-- A power of two as steps of another one. -/
theorem two_zpow_eq {e f : Int} (h : e ≤ f) : (2 : ℚ) ^ f = 2 ^ (f - e).toNat * 2 ^ e := by
  rw [← zpow_natCast, Int.toNat_of_nonneg (by omega), ← zpow_add₀ (by norm_num), Int.sub_add_cancel]

theorem two_zpow_le {e f : Int} (h : e ≤ f) : (2 : ℚ) ^ e ≤ 2 ^ f :=
  zpow_le_zpow_right₀ (by norm_num) h

/-- A number, or what lies below or above all of them. -/
abbrev Value := WithBot (WithTop ℚ)

/-- A number as a value. -/
def Value.ofNumber (x : ℚ) : Value := ((x : WithTop ℚ) : WithBot (WithTop ℚ))

namespace Value

@[simp] theorem ofNumber_lt_ofNumber {x y : ℚ} : ofNumber x < ofNumber y ↔ x < y := by
  simp [ofNumber]

@[simp] theorem ofNumber_le_ofNumber {x y : ℚ} : ofNumber x ≤ ofNumber y ↔ x ≤ y := by
  simp [ofNumber]

@[simp] theorem bot_lt_ofNumber (x : ℚ) : ⊥ < ofNumber x := WithBot.bot_lt_coe _

@[simp] theorem ofNumber_lt_top (x : ℚ) : ofNumber x < ⊤ :=
  WithBot.coe_lt_coe.mpr (WithTop.coe_lt_top x)

end Value

namespace Binary

/-! ### Values and their order -/

/-- The number that a finite value stands for. -/
def number (negative : Bool) (m : Nat) (e : Int) : ℚ := (if negative then -(m : ℚ) else m) * 2 ^ e

/-- What a value stands for, unless it is a NaN. -/
def value? : Binary → Option Value
  | .nan => none
  | .infinite true => some ⊥
  | .infinite false => some ⊤
  | .finite negative m e => some (.ofNumber (number negative m e))

theorem units_mul {lowest e : Int} (h : lowest ≤ e) (negative : Bool) (m : Nat) :
    (units lowest negative m e : ℚ) * 2 ^ lowest = number negative m e := by
  unfold units number
  rw [two_zpow_eq h]
  cases negative <;> simp [mul_assoc]

/-- Neither is a NaN, and what the first stands for is less than what the second stands for. -/
def Less (a b : Binary) : Prop := ∃ x y, a.value? = some x ∧ b.value? = some y ∧ x < y

/-- Values are compared as what they stand for. -/
theorem lt_iff {a b : Binary} : a.lt b = true ↔ Less a b := by
  unfold Less
  cases a with
  | nan => simp [lt, value?]
  | infinite s =>
    cases b with
    | nan => cases s <;> simp [lt, value?]
    | infinite t => cases s <;> cases t <;> simp [lt, value?]
    | finite t n f => cases s <;> simp [lt, value?]
  | finite s m e =>
    cases b with
    | nan => simp [lt, value?]
    | infinite t => cases t <;> simp [lt, value?]
    | finite t n f =>
      have hunits : units (min e f) s m e < units (min e f) t n f ↔
          number s m e < number t n f := by
        rw [← units_mul (min_le_left e f), ← units_mul (min_le_right e f),
          mul_lt_mul_iff_left₀ (two_zpow_pos _)]
        norm_cast
      simp [lt, value?, hunits]

/-! ### The last bit of a quotient -/

theorem scaled_pos {den : Nat} (hden : 0 < den) (num : Nat) (e : Int) :
    0 < (scaled num den e).2 := by
  unfold scaled
  split
  · exact hden
  · exact Nat.mul_pos hden (Nat.pow_pos (by norm_num))

theorem div_scaled (num den : Nat) (e : Int) :
    ((scaled num den e).1 : ℚ) / (scaled num den e).2 = num / den * 2 ^ e := by
  unfold scaled
  split
  case isTrue he =>
    have hpower : (2 : ℚ) ^ e = 2 ^ e.toNat := by rw [← zpow_natCast, Int.toNat_of_nonneg he]
    rw [hpower, div_mul_eq_mul_div]
    norm_cast
  case isFalse he =>
    have hpower : (2 : ℚ) ^ e = (2 ^ (-e).toNat)⁻¹ := by
      rw [← zpow_natCast, Int.toNat_of_nonneg (by omega), zpow_neg, inv_inv]
    rw [hpower, ← div_eq_mul_inv, div_div]
    norm_cast

theorem le_div_scaled_iff {den : Nat} (hden : 0 < den) (num k : Nat) (e : Int) :
    k ≤ (scaled num den e).1 / (scaled num den e).2 ↔ (k : ℚ) * 2 ^ (-e) ≤ num / den := by
  have hpos : (0 : ℚ) < (scaled num den e).2 := by exact_mod_cast scaled_pos hden num e
  rw [Nat.le_div_iff_mul_le (scaled_pos hden num e), zpow_neg, ← div_eq_mul_inv,
    div_le_iff₀ (two_zpow_pos e), ← div_scaled, le_div_iff₀ hpos]
  norm_cast

variable {p : Precision} {num den : Nat}

theorem two_zpow_log2_le {n : Nat} (hn : n ≠ 0) : (2 : ℚ) ^ (Nat.log2 n : Int) ≤ n := by
  rw [zpow_natCast]
  exact_mod_cast Nat.log2_self_le hn

theorem lt_two_zpow_log2 (n : Nat) : (n : ℚ) < 2 ^ ((Nat.log2 n : Int) + 1) := by
  have h : n < 2 ^ (Nat.log2 n + 1) := Nat.lt_log2_self
  exact_mod_cast h

theorem pow_log2_le (hnum : num ≠ 0) (hden : den ≠ 0) :
    (2 : ℚ) ^ ((Nat.log2 num : Int) - Nat.log2 den - 1) ≤ num / den := by
  have hpos : (0 : ℚ) < den := by exact_mod_cast Nat.pos_of_ne_zero hden
  rw [le_div_iff₀ hpos, sub_sub, zpow_sub₀ (by norm_num), div_mul_eq_mul_div,
    div_le_iff₀ (two_zpow_pos _)]
  exact mul_le_mul (two_zpow_log2_le hnum) (lt_two_zpow_log2 den).le hpos.le (Nat.cast_nonneg num)

/-- A quotient has as many bits as the format, from the last bit on, unless that is the least. -/
theorem pow_lastBit_le (hnum : num ≠ 0) (hden : 0 < den) (h : p.least < lastBit p num den) :
    (2 : ℚ) ^ (lastBit p num den + p.bits - 1) ≤ num / den := by
  let guess := max p.least ((Nat.log2 num : Int) - Nat.log2 den - p.bits)
  by_cases hroom : Nat.pow 2 p.bits ≤ (scaled num den (-guess)).1 / (scaled num den (-guess)).2
  · have hlast : lastBit p num den = guess + 1 := if_pos hroom
    rw [le_div_scaled_iff hden, neg_neg, Nat.pow_eq, Nat.cast_pow, Nat.cast_ofNat,
      ← zpow_natCast, ← zpow_add₀ (by norm_num)] at hroom
    refine (two_zpow_le ?_).trans hroom
    omega
  · have hlast : lastBit p num den = guess := if_neg hroom
    refine (two_zpow_le ?_).trans (pow_log2_le hnum hden.ne')
    omega

/-! ### Rounding -/

theorem le_roundDiv_of_mul_le {k n d : Nat} (hd : 0 < d) (h : k * d ≤ n) : k ≤ roundDiv n d := by
  have hnear := le_roundDiv n d hd
  by_contra hlt
  have hstep : (roundDiv n d + 1) * d ≤ k * d := Nat.mul_le_mul_right d (by omega)
  rw [Nat.add_mul, Nat.one_mul] at hstep
  omega

theorem roundDiv_le_of_le_mul {k n d : Nat} (hd : 0 < d) (h : n ≤ k * d) : roundDiv n d ≤ k := by
  have hnear := roundDiv_le n d hd
  by_contra hlt
  have hstep : (k + 1) * d ≤ roundDiv n d * d := Nat.mul_le_mul_right d (by omega)
  rw [Nat.add_mul, Nat.one_mul] at hstep
  omega

/-- A quotient as a whole number of last bits. -/
def bitsOf (p : Precision) (num den : Nat) : Nat :=
  roundDiv (scaled num den (-lastBit p num den)).1 (scaled num den (-lastBit p num den)).2

theorem le_bitsOf {k : Nat} (hden : 0 < den) (h : (k : ℚ) * 2 ^ lastBit p num den ≤ num / den) :
    k ≤ bitsOf p num den := by
  refine le_roundDiv_of_mul_le (scaled_pos hden _ _) ?_
  rw [← Nat.le_div_iff_mul_le (scaled_pos hden _ _), le_div_scaled_iff hden, neg_neg]
  exact h

theorem bitsOf_le {k : Nat} (hden : 0 < den) (h : (num / den : ℚ) ≤ k * 2 ^ lastBit p num den) :
    bitsOf p num den ≤ k := by
  have hpos : (0 : ℚ) < (scaled num den (-lastBit p num den)).2 := by
    exact_mod_cast scaled_pos hden _ _
  refine roundDiv_le_of_le_mul (scaled_pos hden _ _) ?_
  rw [← div_le_iff₀ (two_zpow_pos _), div_eq_mul_inv, ← zpow_neg, ← div_scaled,
    div_le_iff₀ hpos] at h
  exact_mod_cast h

/-- Rounding gives a whole number of last bits, unless that is beyond the format. -/
theorem value?_ofQuotient (hbits : 0 < p.bits) (hnum : num ≠ 0) :
    (ofQuotient p false num den).value? =
      some (if p.greatest < lastBit p num den ∨
          bitsOf p num den = 2 ^ p.bits ∧ p.greatest < lastBit p num den + 1 then ⊤
        else .ofNumber (bitsOf p num den * 2 ^ lastBit p num den)) := by
  have hround : ofQuotient p false num den =
      if bitsOf p num den = 2 ^ p.bits then
        if p.greatest < lastBit p num den + 1 then .infinite false
        else .finite false (bitsOf p num den / 2) (lastBit p num den + 1)
      else if p.greatest < lastBit p num den then .infinite false
      else .finite false (bitsOf p num den) (lastBit p num den) := by
    obtain ⟨n, d, hscaled⟩ : ∃ n d, scaled num den (-lastBit p num den) = (n, d) := ⟨_, _, rfl⟩
    simp only [ofQuotient, bitsOf, hnum, hscaled, if_false, Nat.pow_eq]
    split <;> rfl
  rw [hround]
  by_cases hcarry : bitsOf p num den = 2 ^ p.bits
  · -- The carry moves the last bit up and halves the number of bits, which is even.
    have hhalf : number false (bitsOf p num den / 2) (lastBit p num den + 1) =
        bitsOf p num den * 2 ^ lastBit p num den := by
      obtain ⟨n, hn⟩ : ∃ n, p.bits = n + 1 := ⟨p.bits - 1, by omega⟩
      unfold number
      rw [hcarry, hn, pow_succ, Nat.mul_div_cancel _ (by norm_num), zpow_add_one₀ (by norm_num)]
      push_cast
      ring
    by_cases hhigh : p.greatest < lastBit p num den + 1
    · rw [if_pos hcarry, if_pos hhigh, if_pos (.inr ⟨hcarry, hhigh⟩), value?]
    · rw [if_pos hcarry, if_neg hhigh, if_neg (by omega), value?, hhalf]
  · by_cases hhigh : p.greatest < lastBit p num den
    · rw [if_neg hcarry, if_pos hhigh, if_pos (.inl hhigh), value?]
    · rw [if_neg hcarry, if_neg hhigh, if_neg (by tauto), value?]
      rfl

end Binary

/-- The numbers of a format, from zero on. -/
def Precision.Has (p : Precision) (y : ℚ) : Prop :=
  ∃ (k : Nat) (e : Int), k < 2 ^ p.bits ∧ p.least ≤ e ∧ e ≤ p.greatest ∧ y = k * 2 ^ e

namespace Binary

variable {p : Precision} {num den : Nat} {y : ℚ}

theorem value?_ofQuotient_zero (p : Precision) (den : Nat) :
    (ofQuotient p false 0 den).value? = some (.ofNumber 0) := by
  simp [ofQuotient, value?, number]

/-- A number of the format with a lower last bit than a quotient is less than the quotient. -/
theorem mul_lt_of_lt_lastBit {k : Nat} {e : Int} (hk : k < 2 ^ p.bits)
    (he : e < lastBit p num den) :
    (k : ℚ) * 2 ^ e < 2 ^ (lastBit p num den + p.bits - 1) := by
  have hk' : (k : ℚ) < 2 ^ (p.bits : Int) := by exact_mod_cast hk
  calc (k : ℚ) * 2 ^ e < 2 ^ (p.bits : Int) * 2 ^ e := mul_lt_mul_of_pos_right hk' (two_zpow_pos e)
    _ = 2 ^ (e + p.bits) := by rw [← zpow_add₀ (by norm_num), Int.add_comm]
    _ ≤ 2 ^ (lastBit p num den + p.bits - 1) := two_zpow_le (by omega)

/-- Rounding does not lead below a number of the format. -/
theorem le_value_ofQuotient (hbits : 0 < p.bits) (hden : 0 < den) (hy : p.Has y)
    (hle : y ≤ num / den) :
    ∃ x, (ofQuotient p false num den).value? = some x ∧ .ofNumber y ≤ x := by
  by_cases hnum : num = 0
  · subst hnum
    exact ⟨_, value?_ofQuotient_zero p den, by simpa using hle⟩
  obtain ⟨k, e, hk, hleast, -, rfl⟩ := hy
  refine ⟨_, value?_ofQuotient hbits hnum, ?_⟩
  split
  · exact le_top
  rw [Value.ofNumber_le_ofNumber]
  by_cases hlast : lastBit p num den ≤ e
  · -- The number is a whole number of last bits itself.
    rw [two_zpow_eq hlast, ← mul_assoc] at hle ⊢
    have hbits' : k * 2 ^ (e - lastBit p num den).toNat ≤ bitsOf p num den :=
      le_bitsOf hden (by exact_mod_cast hle)
    exact mul_le_mul_of_nonneg_right (by exact_mod_cast hbits') (two_zpow_pos _).le
  · -- The quotient has all the bits of the format, and the number is below its leading bit.
    have hlead := pow_lastBit_le hnum hden (p := p) (by omega)
    have hpower : (2 : ℚ) ^ (lastBit p num den + p.bits - 1) =
        (2 ^ (p.bits - 1) : Nat) * 2 ^ lastBit p num den := by
      rw [two_zpow_eq (show lastBit p num den ≤ _ by omega)]
      push_cast
      congr 2
      omega
    have hfull : 2 ^ (p.bits - 1) ≤ bitsOf p num den := le_bitsOf hden (hpower ▸ hlead)
    refine (mul_lt_of_lt_lastBit hk (not_le.mp hlast)).le.trans ?_
    rw [hpower]
    exact mul_le_mul_of_nonneg_right (by exact_mod_cast hfull) (two_zpow_pos _).le

/-- Rounding does not lead above a number of the format. -/
theorem value_ofQuotient_le (hbits : 0 < p.bits) (hden : 0 < den) (hy : p.Has y)
    (hle : num / den ≤ y) :
    ∃ x, (ofQuotient p false num den).value? = some x ∧ x ≤ .ofNumber y := by
  by_cases hnum : num = 0
  · subst hnum
    exact ⟨_, value?_ofQuotient_zero p den, by simpa using hle⟩
  obtain ⟨k, e, hk, hleast, hgreatest, rfl⟩ := hy
  refine ⟨_, value?_ofQuotient hbits hnum, ?_⟩
  have hlast : lastBit p num den ≤ e := by
    by_contra hlast
    have hlead := pow_lastBit_le hnum hden (show p.least < lastBit p num den by omega)
    exact absurd (hlead.trans hle) (not_le.mpr (mul_lt_of_lt_lastBit hk (not_le.mp hlast)))
  rw [two_zpow_eq hlast, ← mul_assoc] at hle ⊢
  have hbits' : bitsOf p num den ≤ k * 2 ^ (e - lastBit p num den).toNat :=
    bitsOf_le hden (by exact_mod_cast hle)
  split
  case isTrue hhigh =>
    -- A carry beyond the format would need more bits than the number has.
    obtain hhigh | ⟨hcarry, hhigh⟩ := hhigh
    · omega
    · obtain rfl : e = lastBit p num den := by omega
      rw [hcarry, sub_self, Int.toNat_zero, pow_zero, Nat.mul_one] at hbits'
      omega
  case isFalse =>
    rw [Value.ofNumber_le_ofNumber]
    exact mul_le_mul_of_nonneg_right (by exact_mod_cast hbits') (two_zpow_pos _).le

/-- A number of the format is rounded to itself. -/
theorem value?_ofQuotient_of_has (hbits : 0 < p.bits) (hden : 0 < den)
    (h : p.Has (num / den : ℚ)) :
    (ofQuotient p false num den).value? = some (.ofNumber (num / den)) := by
  obtain ⟨x, hx, hle⟩ := le_value_ofQuotient hbits hden h le_rfl
  obtain ⟨x', hx', hge⟩ := value_ofQuotient_le hbits hden h le_rfl
  obtain rfl : x = x' := Option.some.inj (hx.symm.trans hx')
  rw [hx, le_antisymm hge hle]

end Binary

end FlexGate
