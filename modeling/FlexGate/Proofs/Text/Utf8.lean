import FlexGate.Text.Utf8
import Mathlib.Data.List.Basic

/-!
# Reading back what was encoded

A character is encoded in one to four bytes. Reading follows them: the first byte says how many
follow and in which range the second one lies, and each of the others adds six bits. The ranges
leave out overlong forms, surrogates and what lies beyond the last code point, and no character
needs these (`start_of_three`, `start_of_four`), so every character is read back as it was
(`partsFrom_utf8EncodeChar`), and so is every text (`decode?_encode`).
-/

set_option autoImplicit false
set_option relaxedAutoImplicit false

namespace FlexGate.Text.Utf8

theorem partsFrom_cons (p : Option Partial) (b : UInt8) (rest : List UInt8) :
    partsFrom p (b :: rest) =
      (step p b.toNat).1 ++ partsFrom (step p b.toNat).2 rest := by
  cases p <;> rfl

theorem step_of_missing_one {p : Partial} {b : Nat} (hlow : p.low ≤ b) (hhigh : b ≤ p.high)
    (hone : p.missing = 1) :
    step (some p) b = ([some (Char.ofNat (p.bits * 64 + (b - 0x80)))], none) := by
  simp [step, hlow, hhigh, hone]

theorem step_of_one_lt_missing {p : Partial} {b : Nat} (hlow : p.low ≤ b) (hhigh : b ≤ p.high)
    (hmore : 1 < p.missing) :
    step (some p) b =
      ([], some ⟨p.bits * 64 + (b - 0x80), p.missing - 1, 0x80, 0xBF⟩) := by
  simp [step, hlow, hhigh, Nat.not_le.mpr hmore]

/-! ### First bytes -/

theorem start_of_two {v : Nat} (h : 0x80 ≤ v) (h' : v < 0x800) :
    start (v / 64 + 0xC0) = ([], some ⟨v / 64, 1, 0x80, 0xBF⟩) := by
  have hlow : 2 ≤ v / 64 := by omega
  have hhigh : v / 64 < 32 := by omega
  rw [start, if_neg (by omega), if_neg (by omega), if_pos (by omega), Nat.add_sub_cancel]

/-- The range of the second byte leaves out overlong forms and surrogates. -/
theorem start_of_three {v : Nat} (h : 0x800 ≤ v) (h' : v < 0x10000)
    (hv : v < 0xD800 ∨ 0xDFFF < v) :
    ∃ low high, start (v / 4096 + 0xE0) = ([], some ⟨v / 4096, 2, low, high⟩) ∧
      low ≤ v / 64 % 64 + 0x80 ∧ v / 64 % 64 + 0x80 ≤ high := by
  have hhigh : v / 4096 < 16 := by omega
  rcases Nat.eq_zero_or_pos (v / 4096) with hzero | hpos
  · refine ⟨0xA0, 0xBF, by rw [hzero]; rfl, by omega, by omega⟩
  · by_cases hsurrogate : v / 4096 = 13
    · refine ⟨0x80, 0x9F, by rw [hsurrogate]; rfl, by omega, by omega⟩
    · refine ⟨0x80, 0xBF, ?_, by omega, by omega⟩
      rw [start, if_neg (by omega), if_neg (by omega), if_neg (by omega), if_neg (by omega),
        if_neg (by omega), if_pos (by omega), Nat.add_sub_cancel]

/-- The range of the second byte leaves out overlong forms and what lies beyond the last code
point. -/
theorem start_of_four {v : Nat} (h : 0x10000 ≤ v) (h' : v < 0x110000) :
    ∃ low high, start (v / 262144 + 0xF0) = ([], some ⟨v / 262144, 3, low, high⟩) ∧
      low ≤ v / 4096 % 64 + 0x80 ∧ v / 4096 % 64 + 0x80 ≤ high := by
  have hhigh : v / 262144 ≤ 4 := by omega
  rcases Nat.eq_zero_or_pos (v / 262144) with hzero | hpos
  · refine ⟨0x90, 0xBF, by rw [hzero]; rfl, by omega, by omega⟩
  · by_cases hlast : v / 262144 = 4
    · refine ⟨0x80, 0x8F, by rw [hlast]; rfl, by omega, by omega⟩
    · refine ⟨0x80, 0xBF, ?_, by omega, by omega⟩
      rw [start, if_neg (by omega), if_neg (by omega), if_neg (by omega), if_neg (by omega),
        if_neg (by omega), if_neg (by omega), if_neg (by omega), if_pos (by omega),
        Nat.add_sub_cancel]

/-! ### Whole characters -/

theorem partsFrom_one {v : Nat} (h : v < 0x80) (rest : List UInt8) :
    partsFrom none (UInt8.ofNat v :: rest) = some (Char.ofNat v) :: partsFrom none rest := by
  have hb : (UInt8.ofNat v).toNat = v := by simp; omega
  rw [partsFrom_cons, hb, step, start, if_pos h]
  rfl

theorem partsFrom_two {v : Nat} (h : 0x80 ≤ v) (h' : v < 0x800) (rest : List UInt8) :
    partsFrom none (UInt8.ofNat (v / 64 % 32 + 0xC0) :: UInt8.ofNat (v % 64 + 0x80) :: rest) =
      some (Char.ofNat v) :: partsFrom none rest := by
  have hfirst : (UInt8.ofNat (v / 64 % 32 + 0xC0)).toNat = v / 64 + 0xC0 := by simp; omega
  have hlast : (UInt8.ofNat (v % 64 + 0x80)).toNat = v % 64 + 0x80 := by simp; omega
  have hbits : v / 64 * 64 + (v % 64 + 0x80 - 0x80) = v := by omega
  rw [partsFrom_cons, hfirst, step, start_of_two h h', List.nil_append, partsFrom_cons, hlast,
    step_of_missing_one (by dsimp only; omega) (by dsimp only; omega) rfl, hbits]
  rfl

theorem partsFrom_three {v : Nat} (h : 0x800 ≤ v) (h' : v < 0x10000)
    (hv : v < 0xD800 ∨ 0xDFFF < v) (rest : List UInt8) :
    partsFrom none (UInt8.ofNat (v / 4096 % 16 + 0xE0) :: UInt8.ofNat (v / 64 % 64 + 0x80) ::
        UInt8.ofNat (v % 64 + 0x80) :: rest) =
      some (Char.ofNat v) :: partsFrom none rest := by
  have hfirst : (UInt8.ofNat (v / 4096 % 16 + 0xE0)).toNat = v / 4096 + 0xE0 := by simp; omega
  have hsecond : (UInt8.ofNat (v / 64 % 64 + 0x80)).toNat = v / 64 % 64 + 0x80 := by simp; omega
  have hlast : (UInt8.ofNat (v % 64 + 0x80)).toNat = v % 64 + 0x80 := by simp; omega
  have hbits : (v / 4096 * 64 + (v / 64 % 64 + 0x80 - 0x80)) * 64 + (v % 64 + 0x80 - 0x80) = v := by
    omega
  obtain ⟨low, high, hstart, hlow, hhigh⟩ := start_of_three h h' hv
  rw [partsFrom_cons, hfirst, step, hstart, List.nil_append, partsFrom_cons, hsecond,
    step_of_one_lt_missing hlow hhigh (Nat.lt_succ_self 1), List.nil_append, partsFrom_cons, hlast,
    step_of_missing_one (by dsimp only; omega) (by dsimp only; omega) rfl, hbits]
  rfl

theorem partsFrom_four {v : Nat} (h : 0x10000 ≤ v) (h' : v < 0x110000) (rest : List UInt8) :
    partsFrom none (UInt8.ofNat (v / 262144 % 8 + 0xF0) ::
        UInt8.ofNat (v / 4096 % 64 + 0x80) :: UInt8.ofNat (v / 64 % 64 + 0x80) ::
        UInt8.ofNat (v % 64 + 0x80) :: rest) =
      some (Char.ofNat v) :: partsFrom none rest := by
  have hfirst : (UInt8.ofNat (v / 262144 % 8 + 0xF0)).toNat = v / 262144 + 0xF0 := by
    simp; omega
  have hsecond : (UInt8.ofNat (v / 4096 % 64 + 0x80)).toNat = v / 4096 % 64 + 0x80 := by
    simp; omega
  have hthird : (UInt8.ofNat (v / 64 % 64 + 0x80)).toNat = v / 64 % 64 + 0x80 := by simp; omega
  have hlast : (UInt8.ofNat (v % 64 + 0x80)).toNat = v % 64 + 0x80 := by simp; omega
  have hbits : ((v / 262144 * 64 + (v / 4096 % 64 + 0x80 - 0x80)) * 64 +
      (v / 64 % 64 + 0x80 - 0x80)) * 64 + (v % 64 + 0x80 - 0x80) = v := by
    omega
  obtain ⟨low, high, hstart, hlow, hhigh⟩ := start_of_four h h'
  rw [partsFrom_cons, hfirst, step, hstart, List.nil_append, partsFrom_cons, hsecond,
    step_of_one_lt_missing hlow hhigh (by dsimp only; omega), List.nil_append, partsFrom_cons,
    hthird, step_of_one_lt_missing (by dsimp only; omega) (by dsimp only; omega)
      (by dsimp only; omega),
    List.nil_append, partsFrom_cons, hlast,
    step_of_missing_one (by dsimp only; omega) (by dsimp only; omega) rfl, hbits]
  rfl

theorem partsFrom_utf8EncodeChar (c : Char) (rest : List UInt8) :
    partsFrom none (String.utf8EncodeChar c ++ rest) = some c :: partsFrom none rest := by
  have hc : Char.ofNat c.val.toNat = c := Char.ofNat_toNat c
  have hvalid : c.val.toNat < 0xD800 ∨ 0xDFFF < c.val.toNat ∧ c.val.toNat < 0x110000 := c.valid
  rw [String.utf8EncodeChar]
  split
  case isTrue h => rw [List.singleton_append, partsFrom_one (Nat.lt_succ_of_le h), hc]
  case isFalse h =>
    split
    case isTrue h' =>
      exact (partsFrom_two (Nat.lt_of_not_le h) (Nat.lt_succ_of_le h') rest).trans (by rw [hc])
    case isFalse h' =>
      split
      case isTrue h'' =>
        exact (partsFrom_three (Nat.lt_of_not_le h') (Nat.lt_succ_of_le h'') (by omega) rest).trans
          (by rw [hc])
      case isFalse h'' =>
        exact (partsFrom_four (Nat.lt_of_not_le h'') (by omega) rest).trans (by rw [hc])

/-! ### Texts -/

theorem parts_encode (text : List Char) : parts (encode text) = text.map some := by
  rw [parts, encode]
  induction text with
  | nil => rfl
  | cons c text ih => rw [List.flatMap_cons, partsFrom_utf8EncodeChar, ih, List.map_cons]

/-- Text that was encoded is read back as it was. -/
theorem decode?_encode (text : List Char) : decode? (encode text) = some text := by
  rw [decode?, parts_encode]
  induction text with
  | nil => rfl
  | cons c text ih => simp [ih]

end FlexGate.Text.Utf8
