import Mathlib

namespace Caflow.TopWindow

variable [LinearOrder α]

/-- The highest few of a list, highest first. -/
def topWindow (size : ℕ) (l : List α) : List α := (l.insertionSort (· ≥ ·)).take size

/-- In a list that goes down, what stands before a place is what is higher. -/
theorem mem_take_of_descending {l : List α} (h : l.Pairwise (· > ·)) :
    x ∈ l.take size ↔ x ∈ l ∧ l.countP (fun y => x < y) < size := by
  induction l generalizing size with
  | nil => simp
  | cons a l ih =>
    obtain ⟨hall, hrest⟩ := List.pairwise_cons.mp h
    cases size with
    | zero => simp
    | succ size =>
      rw [List.take_succ_cons, List.mem_cons, List.mem_cons, List.countP_cons, ih hrest]
      by_cases hx : x = a
      · subst x
        have hnone : l.countP (fun y => a < y) = 0 := by
          rw [List.countP_eq_zero]
          intro y hy
          simpa using (hall y hy).le
        simp [hnone]
      · have hbelow : x ∈ l → x < a := fun hmem => hall x hmem
        constructor
        · rintro (rfl | ⟨hmem, hcount⟩)
          · exact absurd rfl hx
          · exact ⟨.inr hmem, by simp [hbelow hmem]; omega⟩
        · rintro ⟨heq | hmem, hcount⟩
          · exact absurd heq hx
          · refine .inr ⟨hmem, ?_⟩
            simp only [hbelow hmem, decide_true, if_true] at hcount
            omega

/-- The window holds what fewer than its size of the others are above. -/
theorem mem_top_window {l : List α} (h : l.Nodup) :
    x ∈ topWindow size l ↔ x ∈ l ∧ l.countP (fun y => x < y) < size := by
  have hperm := List.perm_insertionSort (· ≥ ·) l
  have hsorted : (l.insertionSort (· ≥ ·)).Pairwise (· > ·) := by
    have hge := List.pairwise_insertionSort (· ≥ ·) l
    have hne : (l.insertionSort (· ≥ ·)).Pairwise (· ≠ ·) := hperm.nodup_iff.mpr h
    exact (hge.and hne).imp fun ⟨hle, hne⟩ => lt_of_le_of_ne hle (Ne.symm hne)
  unfold topWindow
  rw [mem_take_of_descending hsorted, hperm.mem_iff, hperm.countP_eq]

end Caflow.TopWindow
