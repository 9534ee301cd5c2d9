/-!
Sets of characters given as closed ranges of code points in ascending order. The membership test
stops at the first range that lies above the code point.
-/

set_option autoImplicit false
set_option relaxedAutoImplicit false

namespace FlexGate.Text

def inRanges : List (Nat × Nat) → Nat → Bool
  | [], _ => false
  | (low, high) :: rest, n => if n < low then false else n ≤ high || inRanges rest n

@[simp] theorem inRanges_nil (n : Nat) : inRanges [] n = false := rfl

theorem inRanges_cons (low high n : Nat) (rest : List (Nat × Nat)) :
    inRanges ((low, high) :: rest) n =
      if n < low then false else (decide (n ≤ high) || inRanges rest n) := rfl

theorem exists_range_of_inRanges {ranges : List (Nat × Nat)} {n : Nat}
    (h : inRanges ranges n = true) : ∃ r ∈ ranges, r.1 ≤ n ∧ n ≤ r.2 := by
  induction ranges with
  | nil => simp at h
  | cons r rest ih =>
    obtain ⟨low, high⟩ := r
    rw [inRanges_cons] at h
    split at h
    · simp at h
    · rcases Bool.or_eq_true _ _ |>.mp h with h | h
      · exact ⟨(low, high), by simp, by simp_all, by simpa using h⟩
      · obtain ⟨r, hr, hn⟩ := ih h
        exact ⟨r, List.mem_cons_of_mem _ hr, hn⟩

end FlexGate.Text
