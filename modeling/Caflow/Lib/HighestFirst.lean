import Mathlib

namespace Caflow.HighestFirst
open Finset

section
variable {ι : Type*} {s : Finset ι} {R : Type*} [CommRing R] [LinearOrder R] [IsStrictOrderedRing R]
  {base rate taken other : ι → R}

/-- A bucket is taken from only where every bucket of a higher rate is empty. -/
def TopDown (s : Finset ι) (base rate taken : ι → R) : Prop :=
  ∀ i ∈ s, ∀ j ∈ s, rate j < rate i → 0 < taken j → taken i = base i

/-- What is taken against what another allocation takes, weighed from the lowest rate taken from. -/
theorem TopDown.weigh (h : TopDown s base rate taken) {low : ι} (hlow : low ∈ s)
    (hleast : ∀ j ∈ s, 0 < taken j → rate low ≤ rate j) (htaken : 0 < taken low)
    (hnonneg : ∀ i ∈ s, 0 ≤ taken i) (hother : ∀ i ∈ s, 0 ≤ other i ∧ other i ≤ base i) {i : ι}
    (hi : i ∈ s) : 0 ≤ (taken i - other i) * (rate i - rate low) := by
  rcases lt_trichotomy (rate i) (rate low) with hlt | heq | hgt
  · have huntaken : taken i = 0 := by
      by_contra hne
      have hpos := lt_of_le_of_ne (hnonneg i hi) (Ne.symm hne)
      exact absurd (hleast i hi hpos) (not_le.mpr hlt)
    rw [huntaken]
    exact mul_nonneg_of_nonpos_of_nonpos (by linarith [(hother i hi).1]) (by linarith)
  · rw [heq, sub_self, mul_zero]
  · have hemptied := h i hi low hlow hgt htaken
    rw [hemptied]
    exact mul_nonneg (by linarith [(hother i hi).2]) (by linarith)

/-- No allocation of the same total takes more at the rates than one from the highest rate down. -/
theorem TopDown.most (h : TopDown s base rate taken) (hnonneg : ∀ i ∈ s, 0 ≤ taken i)
    (hother : ∀ i ∈ s, 0 ≤ other i ∧ other i ≤ base i)
    (htotal : ∑ i ∈ s, other i = ∑ i ∈ s, taken i) :
    ∑ i ∈ s, other i * rate i ≤ ∑ i ∈ s, taken i * rate i := by
  by_cases hnone : ∀ i ∈ s, taken i = 0
  · have hzero : ∑ i ∈ s, other i = 0 := htotal.trans (sum_eq_zero hnone)
    have hall := (sum_eq_zero_iff_of_nonneg fun i hi => (hother i hi).1).mp hzero
    refine le_of_eq (sum_congr rfl fun i hi => ?_)
    rw [hall i hi, hnone i hi]
  · push Not at hnone
    obtain ⟨k, hk, hne⟩ := hnone
    have hpos : k ∈ s.filter (0 < taken ·) :=
      mem_filter.mpr ⟨hk, lt_of_le_of_ne (hnonneg k hk) (Ne.symm hne)⟩
    obtain ⟨low, hlow, hleast⟩ := exists_min_image (s.filter (0 < taken ·)) rate ⟨k, hpos⟩
    obtain ⟨hlow, htaken⟩ := mem_filter.mp hlow
    have hweigh : 0 ≤ ∑ i ∈ s, (taken i - other i) * (rate i - rate low) :=
      sum_nonneg fun i hi => h.weigh hlow (fun j hj hjpos => hleast j (mem_filter.mpr ⟨hj, hjpos⟩))
        htaken hnonneg hother hi
    have hsplit : ∑ i ∈ s, (taken i - other i) * (rate i - rate low) =
        (∑ i ∈ s, taken i * rate i - ∑ i ∈ s, other i * rate i) -
          (∑ i ∈ s, taken i - ∑ i ∈ s, other i) * rate low := by
      rw [sub_mul, sum_mul, sum_mul, ← sum_sub_distrib, ← sum_sub_distrib, ← sum_sub_distrib]
      exact sum_congr rfl fun i _ => by ring
    rw [hsplit, htotal, sub_self, zero_mul, sub_zero] at hweigh
    exact sub_nonneg.mp hweigh

end

end Caflow.HighestFirst
