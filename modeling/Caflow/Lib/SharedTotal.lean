import Mathlib

namespace Caflow.SharedTotal

variable {ι π : Type*} [Fintype ι]

/-- A total is what it started from and the share of each party, by where the party stands. -/
def Accounted (share : ι → π → ℤ) (start total : ℤ) (phase : ι → π) : Prop :=
  total = start + ∑ i, share i (phase i)

theorem accounted_start (share : ι → π → ℤ) (total : ℤ) (phase : ι → π)
    (h : ∀ i, share i (phase i) = 0) : Accounted share total total phase := by
  unfold Accounted
  rw [Finset.sum_eq_zero fun i _ => h i, add_zero]

/-- A party moves on, and the total moves by as much as its share. -/
theorem Accounted.step [DecidableEq ι] {share : ι → π → ℤ} {phase : ι → π}
    (h : Accounted share start total phase) (i : ι) (p : π)
    (hmove : total' = total + (share i p - share i (phase i))) :
    Accounted share start total' (Function.update phase i p) := by
  unfold Accounted at h ⊢
  have hold := Finset.add_sum_erase Finset.univ (fun j => share j (phase j)) (Finset.mem_univ i)
  have hnew := Finset.add_sum_erase Finset.univ (fun j => share j (Function.update phase i p j))
    (Finset.mem_univ i)
  have hothers : ∑ j ∈ Finset.univ.erase i, share j (Function.update phase i p j) =
      ∑ j ∈ Finset.univ.erase i, share j (phase j) := by
    apply Finset.sum_congr rfl
    intro j hj
    rw [Function.update_of_ne (Finset.ne_of_mem_erase hj)]
  rw [hothers, Function.update_self] at hnew
  omega

/-- Two totals that every party shares in alike end alike. -/
theorem Accounted.congr {share share' : ι → π → ℤ} {phase : ι → π}
    (h : Accounted share start total phase) (h' : Accounted share' start total' phase)
    (hshares : ∀ i, share i (phase i) = share' i (phase i)) : total = total' := by
  unfold Accounted at h h'
  rw [h, h', Finset.sum_congr rfl fun i _ => hshares i]

end Caflow.SharedTotal
