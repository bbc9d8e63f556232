import Mathlib

namespace Caflow.Rounding

/-- Round to a whole number, a half away from zero: decimal `ROUND_HALF_UP`. -/
def halfUp (x : ℚ) : ℤ :=
  if 0 ≤ x then ⌊x + 1 / 2⌋ else -⌊-x + 1 / 2⌋

/-- Drop the fractional part, toward zero: what `int` does to a decimal. -/
def truncate (x : ℚ) : ℤ :=
  if 0 ≤ x then ⌊x⌋ else -⌊-x⌋

theorem half_up_of_nonneg {x : ℚ} (hx : 0 ≤ x) : halfUp x = ⌊x + 1 / 2⌋ := if_pos hx

theorem half_up_of_neg {x : ℚ} (hx : x < 0) : halfUp x = -⌊-x + 1 / 2⌋ :=
  if_neg (not_le.mpr hx)

@[simp] theorem half_up_int (n : ℤ) : halfUp n = n := by
  rcases le_or_gt (0 : ℚ) n with h | h
  · rw [half_up_of_nonneg h, Int.floor_eq_iff]
    constructor <;> linarith
  · rw [half_up_of_neg h, neg_eq_iff_eq_neg, Int.floor_eq_iff]
    push_cast
    constructor <;> linarith

@[simp] theorem half_up_zero : halfUp 0 = 0 := by simpa using half_up_int 0

/-- Rounding is odd: it treats a loss as it treats a gain. -/
theorem half_up_neg (x : ℚ) : halfUp (-x) = -halfUp x := by
  rcases lt_trichotomy x 0 with h | h | h
  · rw [half_up_of_neg h, half_up_of_nonneg (by linarith), neg_neg]
  · subst x
    simp
  · rw [half_up_of_nonneg h.le, half_up_of_neg (by linarith), neg_neg]

theorem half_up_nonneg {x : ℚ} (hx : 0 ≤ x) : 0 ≤ halfUp x := by
  rw [half_up_of_nonneg hx]
  exact Int.floor_nonneg.mpr (by linarith)

/-- Below a bound that is not negative, rounding is comparing with the bound and a half. -/
theorem half_up_le_iff {x : ℚ} {n : ℤ} (hn : 0 ≤ n) : halfUp x ≤ n ↔ x < n + 1 / 2 := by
  have hn' : (0 : ℚ) ≤ n := by exact_mod_cast hn
  rcases le_or_gt 0 x with h | h
  · rw [half_up_of_nonneg h, ← Int.lt_add_one_iff, Int.floor_lt]
    push_cast
    constructor <;> intro h' <;> linarith
  · have hneg : 0 ≤ halfUp (-x) := half_up_nonneg (by linarith)
    rw [half_up_neg] at hneg
    exact ⟨fun _ => by linarith, fun _ => by omega⟩

/-- A rounded figure is negative only from minus a half down. -/
theorem half_up_nonneg_iff {x : ℚ} : 0 ≤ halfUp x ↔ -(1 / 2) < x := by
  have h := half_up_le_iff (x := -x) (n := 0) le_rfl
  rw [half_up_neg] at h
  push_cast at h
  constructor
  · intro hx
    have := h.mp (by omega)
    linarith
  · intro hx
    have := h.mpr (by linarith)
    omega

/-- A whole number over a rounded figure is not passed by rounding what it is over. -/
theorem half_up_le_add {x y : ℚ} {n : ℤ} (hn : 0 ≤ n) (hy : 0 ≤ halfUp y) (h : x ≤ n + y) :
    halfUp x ≤ n + halfUp y := by
  have hround : y < halfUp y + 1 / 2 := (half_up_le_iff hy).mp le_rfl
  apply (half_up_le_iff (by omega)).mpr
  push_cast
  linarith

/-- Rounding moves a figure by a half at most. -/
theorem half_up_within (x : ℚ) : x - 1 / 2 ≤ halfUp x ∧ (halfUp x : ℚ) ≤ x + 1 / 2 := by
  rcases le_or_gt 0 x with h | h
  · rw [half_up_of_nonneg h]
    have := Int.floor_le (x + 1 / 2)
    have := Int.lt_floor_add_one (x + 1 / 2)
    constructor <;> linarith
  · rw [half_up_of_neg h]
    have := Int.floor_le (-x + 1 / 2)
    have := Int.lt_floor_add_one (-x + 1 / 2)
    push_cast
    constructor <;> linarith

/-- A figure nearer than a half to a whole number rounds to it. -/
theorem half_up_eq {x : ℚ} {n : ℤ} (h : (n : ℚ) - 1 / 2 < x) (h' : x < n + 1 / 2) :
    halfUp x = n := by
  have hbounds := half_up_within x
  have hlow : (n : ℚ) - 1 < halfUp x := by linarith
  have hhigh : (halfUp x : ℚ) < n + 1 := by linarith
  have hlow' : n - 1 < halfUp x := by exact_mod_cast hlow
  have hhigh' : halfUp x < n + 1 := by exact_mod_cast hhigh
  omega

theorem truncate_of_nonneg {x : ℚ} (hx : 0 ≤ x) : truncate x = ⌊x⌋ := if_pos hx

end Caflow.Rounding
