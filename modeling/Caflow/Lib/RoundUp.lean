import Mathlib

namespace Caflow.RoundUp

/-- Whole division rounded up, which integers write as a floor between two negations. -/
def ceilDiv (n d : ℤ) : ℤ := -(-n / d)

variable {d e k m n : ℤ}

theorem ceil_div_le_iff (hd : 0 < d) : ceilDiv n d ≤ k ↔ n ≤ k * d := by
  unfold ceilDiv
  rw [neg_le, Int.le_ediv_iff_mul_le hd, neg_mul, neg_le_neg_iff]

theorem lt_ceil_div_iff (hd : 0 < d) : k < ceilDiv n d ↔ k * d < n := by
  rw [← not_le, ceil_div_le_iff hd, not_le]

theorem le_ceil_div_mul (hd : 0 < d) : n ≤ ceilDiv n d * d := (ceil_div_le_iff hd).mp le_rfl

theorem ceil_div_mul_lt (hd : 0 < d) : ceilDiv n d * d < n + d := by
  have hbelow := (lt_ceil_div_iff hd).mp (sub_one_lt (ceilDiv n d))
  linarith

theorem ceil_div_mono (hd : 0 < d) (h : m ≤ n) : ceilDiv m d ≤ ceilDiv n d :=
  (ceil_div_le_iff hd).mpr (h.trans (le_ceil_div_mul hd))

theorem ceil_div_nonneg (hd : 0 < d) (hn : 0 ≤ n) : 0 ≤ ceilDiv n d := by
  rw [← Int.sub_one_lt_iff, lt_ceil_div_iff hd]
  linarith

@[simp] theorem ceil_div_zero (d : ℤ) : ceilDiv 0 d = 0 := by simp [ceilDiv]

theorem ceil_div_mul (hd : 0 < d) (n : ℤ) : ceilDiv (n * d) d = n := by
  apply le_antisymm
  · exact (ceil_div_le_iff hd).mpr le_rfl
  · exact le_of_mul_le_mul_right (le_ceil_div_mul hd) hd

/-- Rounding up keeps the order of two fractions. -/
theorem ceil_div_le_ceil_div (hd : 0 < d) (he : 0 < e) (h : m * e ≤ n * d) :
    ceilDiv m d ≤ ceilDiv n e := by
  apply (ceil_div_le_iff hd).mpr
  have hup : n * d ≤ ceilDiv n e * e * d := mul_le_mul_of_nonneg_right (le_ceil_div_mul he) hd.le
  exact le_of_mul_le_mul_right (by linarith) he

/-- What is rounded up is never below the exact quotient, and less than one above it. -/
theorem ceil_div_exact (hd : 0 < d) (n : ℤ) :
    (n / d : ℚ) ≤ ceilDiv n d ∧ (ceilDiv n d : ℚ) < n / d + 1 := by
  have hpos : (0 : ℚ) < d := by exact_mod_cast hd
  have hle : (n : ℚ) ≤ ceilDiv n d * d := by exact_mod_cast @le_ceil_div_mul d n hd
  have hlt : (ceilDiv n d * d : ℚ) < n + d := by exact_mod_cast @ceil_div_mul_lt d n hd
  constructor
  · rwa [div_le_iff₀ hpos]
  · rwa [← sub_lt_iff_lt_add, lt_div_iff₀ hpos, sub_mul, one_mul, sub_lt_iff_lt_add]

end Caflow.RoundUp
