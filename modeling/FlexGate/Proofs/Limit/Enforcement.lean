import FlexGate.Proofs.Number.Values
import FlexGate.Settings.Basic

/-!
# The two limits of memory

The memory of a script is limited twice: by the ceiling that its process starts under, a number of
bytes, and by the watch on samples, which tell megabytes. The ceiling saturates, and the limit of
the watch is rounded, but no count of bytes can tell: the ceiling saturates only where none is above
the limit, and rounding changes only limits that are far above all of them (`breachesMemory_iff`).
So a count of bytes is above one limit exactly when it is above the other (`memory_limits_agree`).
-/

set_option autoImplicit false
set_option relaxedAutoImplicit false

namespace FlexGate

theorem Word.mul_lt_iff {a b n : Nat} (hn : n ≤ Word.greatest) : Word.mul a b < n ↔ a * b < n := by
  unfold Word.mul Word.saturate
  omega

theorem bytesPerMb_pos : (0 : ℚ) < bytesPerMb := by norm_num [bytesPerMb]

/-- No count of bytes comes near the numbers that a double cannot tell apart. -/
theorem div_bytesPerMb_lt {n : Nat} (hn : n ≤ Word.greatest) : (n / bytesPerMb : ℚ) < 2 ^ 53 := by
  have hbytes : n < 2 ^ 53 * bytesPerMb := hn.trans_lt (by decide)
  rw [div_lt_iff₀ bytesPerMb_pos]
  exact_mod_cast hbytes

namespace LimitPolicy

variable {policy : LimitPolicy} {sample : ResourceSample} {n : Nat}

theorem value?_limit {mb : Nat} (h : mb < 2 ^ 53) :
    (Binary.ofNat .double mb).value? = some (.ofNumber mb) := by
  have hhas : Precision.double.Has (mb / (1 : Nat) : ℚ) :=
    ⟨mb, 0, h, by decide, by decide, by simp⟩
  simpa [Binary.ofNat] using Binary.value?_ofQuotient_of_has (by decide) Nat.one_pos hhas

theorem le_value_limit {mb : Nat} (h : 2 ^ 53 ≤ mb) :
    ∃ x, (Binary.ofNat .double mb).value? = some x ∧ .ofNumber (2 ^ 53) ≤ x := by
  have hhas : Precision.double.Has (2 ^ 53) := ⟨1, 53, by decide, by decide, by decide, by norm_num⟩
  refine Binary.le_value_ofQuotient (by decide) Nat.one_pos hhas ?_
  rw [Nat.cast_one, div_one]
  exact_mod_cast h

/-- A sample breaches the memory limit if its bytes are more than the megabytes allowed. -/
theorem breachesMemory_iff (hn : n ≤ Word.greatest)
    (hsample : sample.memoryMb.value? = some (.ofNumber (n / bytesPerMb))) :
    policy.breachesMemory sample = true ↔ policy.maxMemoryMb * bytesPerMb < n := by
  unfold breachesMemory
  rw [Binary.lt_iff]
  by_cases hexact : policy.maxMemoryMb < 2 ^ 53
  · have hless : Binary.Less (Binary.ofNat .double policy.maxMemoryMb) sample.memoryMb ↔
        (policy.maxMemoryMb : ℚ) < n / bytesPerMb := by
      simp [Binary.Less, value?_limit hexact, hsample]
    rw [hless, lt_div_iff₀ bytesPerMb_pos]
    norm_cast
  · obtain ⟨x, hx, hle⟩ := le_value_limit (not_lt.mp hexact)
    refine iff_of_false ?_ ?_
    · rintro ⟨a, b, ha, hb, hab⟩
      obtain rfl : x = a := Option.some.inj (hx.symm.trans ha)
      obtain rfl : Value.ofNumber (n / bytesPerMb) = b := Option.some.inj (hsample.symm.trans hb)
      have hlt := Value.ofNumber_lt_ofNumber.mp (hle.trans_lt hab)
      exact absurd hlt (not_lt.mpr (div_bytesPerMb_lt hn).le)
    · have hbytes : 2 ^ 53 * bytesPerMb ≤ policy.maxMemoryMb * bytesPerMb :=
        Nat.mul_le_mul_right _ (not_lt.mp hexact)
      have hgreatest : Word.greatest < 2 ^ 53 * bytesPerMb := by decide
      omega

theorem cpuBreach?_eq_some_iff {breach : Breach} :
    policy.cpuBreach? sample = some breach ↔
      ∃ limit, policy.maxCpuPercent = some limit ∧ limit.Less sample.cpuPercent ∧
        breach = .cpu sample.cpuPercent limit := by
  unfold cpuBreach?
  cases policy.maxCpuPercent with
  | none => simp
  | some limit =>
    simp only [Option.bind_eq_bind, Option.bind_some, Option.some.injEq, exists_eq_left']
    rw [← Binary.lt_iff]
    split <;> simp [*, eq_comm]

end LimitPolicy

/-- What is reported of a sample with a number of bytes: a breach of the memory limit if the bytes
are above the ceiling of the process, and otherwise a breach of the limit on the processor, if there
is such a limit and the sample is above it. -/
theorem LimitSettings.memory_limits_agree (limits : LimitSettings) (timeoutSecs n : Nat)
    (sample : ResourceSample) (hn : n ≤ Word.greatest)
    (hsample : sample.memoryMb.value? = some (.ofNumber (n / bytesPerMb))) (breach : Breach) :
    limits.policy.check sample = some breach ↔
      ((limits.ceilings timeoutSecs).memoryBytes < n ∧
        breach = .memory sample.memoryMb limits.maxMemoryMb) ∨
      (n ≤ (limits.ceilings timeoutSecs).memoryBytes ∧ ∃ limit, limits.maxCpuPercent = some limit ∧
        limit.Less sample.cpuPercent ∧ breach = .cpu sample.cpuPercent limit) := by
  have hceiling : (limits.ceilings timeoutSecs).memoryBytes < n ↔
      limits.policy.breachesMemory sample = true := by
    rw [LimitPolicy.breachesMemory_iff hn hsample]
    exact Word.mul_lt_iff hn
  rw [← not_lt, hceiling]
  by_cases hbreach : limits.policy.breachesMemory sample = true
  · rw [LimitPolicy.check_of_breachesMemory hbreach, Option.some.injEq]
    simp only [hbreach, true_and, not_true_eq_false, false_and, or_false]
    exact eq_comm
  · rw [LimitPolicy.check_of_not_breachesMemory (Bool.eq_false_iff.mpr hbreach),
      LimitPolicy.cpuBreach?_eq_some_iff]
    simp only [hbreach, Bool.false_eq_true, false_and, not_false_eq_true, true_and, false_or]
    rfl

/-- One byte above the limit is reported, and with no byte above it the processor is. -/
theorem LimitSettings.memory_limits_agree_edge :
    let limits : LimitSettings := {}
    let sample (n : Nat) : ResourceSample := ⟨.finite false n (-20), .ofNat .single 51⟩
    limits.policy.check (sample (512 * bytesPerMb + 1)) =
        some (.memory (.finite false (512 * bytesPerMb + 1) (-20)) 512) ∧
      limits.policy.check (sample (512 * bytesPerMb)) =
        some (.cpu (.ofNat .single 51) (.ofNat .single 50)) := by
  intro limits sample
  have hvalue (n : Nat) :
      (sample n).memoryMb.value? = some (.ofNumber (n / bytesPerMb)) := by
    have hnumber : Binary.number false n (-20) = n / bytesPerMb := by
      norm_num [Binary.number, bytesPerMb, div_eq_mul_inv]
    rw [← hnumber]
    rfl
  constructor
  · have hcheck := limits.memory_limits_agree 30 (512 * bytesPerMb + 1)
      (sample (512 * bytesPerMb + 1)) (by decide) (hvalue _)
    exact (hcheck _).mpr (.inl ⟨by decide, rfl⟩)
  · have hcheck := limits.memory_limits_agree 30 (512 * bytesPerMb)
      (sample (512 * bytesPerMb)) (by decide) (hvalue _)
    exact (hcheck _).mpr (.inr ⟨by decide, _, rfl, Binary.lt_iff.mp (by decide), rfl⟩)

end FlexGate
