/-!
Rounding of a quotient of natural numbers to the nearest whole number. A tie goes to the even
neighbour.
-/

set_option autoImplicit false
set_option relaxedAutoImplicit false

namespace FlexGate

def roundDiv (num den : Nat) : Nat :=
  let q := num / den
  let r := num % den
  if 2 * r < den then q
  else if den < 2 * r then q + 1
  else q + q % 2

theorem roundDiv_le (num den : Nat) (h : 0 < den) :
    2 * (roundDiv num den * den) ≤ 2 * num + den := by
  have hq : den * (num / den) + num % den = num := Nat.div_add_mod num den
  have hr : num % den < den := Nat.mod_lt _ h
  have hm : num / den * den = den * (num / den) := Nat.mul_comm _ _
  have hp : num / den % 2 < 2 := Nat.mod_lt _ (by decide)
  unfold roundDiv
  simp only
  split
  · omega
  · split
    · rw [Nat.add_mul, Nat.one_mul]
      omega
    · rw [Nat.add_mul]
      have : num / den % 2 * den ≤ den := by
        calc num / den % 2 * den ≤ 1 * den := Nat.mul_le_mul_right _ (by omega)
          _ = den := Nat.one_mul _
      omega

theorem le_roundDiv (num den : Nat) (h : 0 < den) :
    2 * num ≤ 2 * (roundDiv num den * den) + den := by
  have hq : den * (num / den) + num % den = num := Nat.div_add_mod num den
  have hr : num % den < den := Nat.mod_lt _ h
  have hm : num / den * den = den * (num / den) := Nat.mul_comm _ _
  unfold roundDiv
  simp only
  split
  · omega
  · split
    · rw [Nat.add_mul, Nat.one_mul]
      omega
    · rw [Nat.add_mul]
      omega

end FlexGate
