import Caflow.Lib.Tally

namespace Caflow.Coverage
open Tally

variable {κ : Type*} [LinearOrder κ]

/-- Each key once, least first. -/
def sortedSet (keys : List κ) : List κ := keys.dedup.insertionSort (· ≤ ·)

@[simp] theorem mem_sorted_set {keys : List κ} : d ∈ sortedSet keys ↔ d ∈ keys := by
  rw [sortedSet, (List.perm_insertionSort _ _).mem_iff, List.mem_dedup]

theorem sorted_set_nodup (keys : List κ) : (sortedSet keys).Nodup :=
  (List.perm_insertionSort _ _).nodup_iff.mpr (List.nodup_dedup keys)

theorem sorted_set_pairwise (keys : List κ) : (sortedSet keys).Pairwise (· < ·) := by
  have hle : (sortedSet keys).Pairwise (· ≤ ·) := List.pairwise_insertionSort _ _
  exact hle.imp₂ (fun _ _ hle hne => lt_of_le_of_ne hle hne) (sorted_set_nodup keys)

/-- What has left by a date. -/
def leftBy (outflow : List (κ × ℤ)) (d : κ) : ℤ :=
  ((outflow.filter fun p => p.1 ≤ d).map Prod.snd).sum

@[simp] theorem left_by_nil (d : κ) : leftBy [] d = 0 := rfl

theorem left_by_append (out out' : List (κ × ℤ)) (d : κ) :
    leftBy (out ++ out') d = leftBy out d + leftBy out' d := by
  simp [leftBy]

/-- The dates up to one share out what has left by it. -/
theorem sum_up_to {outflow : List (κ × ℤ)} {keys : List κ} (hkeys : keys.Nodup)
    (hcover : ∀ p ∈ outflow, p.1 ∈ keys) (d : κ) :
    ((keys.filter (· ≤ d)).map (tally outflow)).sum = leftBy outflow d := by
  have hsame : ∀ k ∈ keys.filter (· ≤ d),
      tally outflow k = tally (outflow.filter fun p => p.1 ≤ d) k := by
    intro k hk
    have hle : k ≤ d := by simpa using (List.mem_filter.mp hk).2
    rw [tally, tally, List.filter_filter]
    congr 2
    apply List.filter_congr
    intro p _
    by_cases hp : p.1 = k
    · simp [hp, hle]
    · simp [hp]
  rw [List.map_congr_left hsame, sum_tally (hkeys.filter _)]
  · rfl
  · intro p hp
    obtain ⟨hmem, hle⟩ := List.mem_filter.mp hp
    exact List.mem_filter.mpr ⟨hcover p hmem, hle⟩

/-- The first date on which what has left by it is not known to be held, and how much that is. A
date that nothing has left by is not looked at. -/
def firstShort (outflow : κ → ℤ) (held : κ → Option ℤ) : ℤ → List κ → Option (κ × ℤ)
  | _, [] => none
  | left, d :: dates =>
    if left + outflow d = 0 then firstShort outflow held (left + outflow d) dates
    else if (held d).all (· < left + outflow d) then some (d, left + outflow d)
    else firstShort outflow held (left + outflow d) dates

/-- What has left by a date is nothing, or is held then. -/
def Covered (held : κ → Option ℤ) (d : κ) (left : ℤ) : Prop :=
  left = 0 ∨ ∃ paise, held d = some paise ∧ left ≤ paise

omit [LinearOrder κ] in
theorem first_short_step {outflow : κ → ℤ} {held : κ → Option ℤ} {left : ℤ} {dates : List κ} :
    firstShort outflow held left (d :: dates) = none ↔
      Covered held d (left + outflow d) ∧
        firstShort outflow held (left + outflow d) dates = none := by
  rw [firstShort]
  split_ifs with hzero hshort
  · simp [Covered, hzero]
  · simp only [Covered, hzero, false_or, false_iff, not_and_or]
    left
    rintro ⟨paise, hpaise, hle⟩
    simp [hpaise] at hshort
    omega
  · cases hd : held d with
    | none => simp [hd] at hshort
    | some paise =>
      have hle : left + outflow d ≤ paise := by simpa [hd] using hshort
      simp [Covered, hd, hle]

/-- Every date passed is covered, by all that left on the dates before it and its own. -/
theorem covered_upto {outflow : κ → ℤ} {held : κ → Option ℤ} {left : ℤ} {dates : List κ}
    (h : firstShort outflow held left dates = none) (hsorted : dates.Pairwise (· < ·))
    (hd : d ∈ dates) :
    Covered held d (left + ((dates.filter (· ≤ d)).map outflow).sum) := by
  induction dates generalizing left with
  | nil => simp at hd
  | cons e dates ih =>
    obtain ⟨hfirst, hrest⟩ := first_short_step.mp h
    obtain ⟨hlater, hsorted'⟩ := List.pairwise_cons.mp hsorted
    rcases List.mem_cons.mp hd with rfl | hd
    · have hnone : dates.filter (· ≤ d) = [] :=
        List.filter_eq_nil_iff.mpr fun e he => by simpa using hlater e he
      simpa [hnone] using hfirst
    · have he : e ≤ d := (hlater d hd).le
      rw [List.filter_cons_of_pos (by simpa using he), List.map_cons, List.sum_cons, ← add_assoc]
      exact ih hrest hsorted' hd

/-- A pass over the dates of all outflows and of all balances that finds none short leaves every date
covered. -/
theorem covered {outflow : List (κ × ℤ)} {held : κ → Option ℤ} {keys : List κ}
    (h : firstShort (tally outflow) held 0 (sortedSet keys) = none)
    (hcover : ∀ p ∈ outflow, p.1 ∈ keys) (hd : d ∈ keys) :
    Covered held d (leftBy outflow d) := by
  have hcovered := covered_upto h (sorted_set_pairwise keys) (mem_sorted_set.mpr hd)
  rw [zero_add, sum_up_to (sorted_set_nodup keys) fun p hp => mem_sorted_set.mpr (hcover p hp)]
    at hcovered
  exact hcovered

end Caflow.Coverage
