import Caflow.Lib.Calendar

namespace Caflow.Recurring
open Calendar (Day lt_of_month_index)

inductive Frequency where
  | weekly
  | monthly
  | quarterly
  | halfYearly
  | yearly
  deriving DecidableEq

/-- The months a cadence advances, if it is not the weekly one. -/
def months : Frequency → Option ℕ
  | .weekly => none
  | .monthly => some 1
  | .quarterly => some 3
  | .halfYearly => some 6
  | .yearly => some 12

def maxCatchupPerRun : ℕ := 120

/-- The occurrence of a number, from the start's own day each time. -/
def occurrence (frequency : Frequency) (start : Day) (n : ℕ) : Day :=
  match months frequency with
  | none => start.addDays (7 * n)
  | some step => start.addMonthsClamped (step * n)

def indexFloor (frequency : Frequency) (start ref : Day) : ℕ :=
  match months frequency with
  | none => (ref.ordinal - start.ordinal) / 7
  | some step => (ref.monthIndex - start.monthIndex) / step

/-- Down from an estimate while the occurrence before is later too. -/
def walkDown (frequency : Frequency) (start after : Day) : ℕ → ℕ
  | 0 => 0
  | n + 1 => if after < occurrence frequency start n then walkDown frequency start after n else n + 1

/-- Up to the first occurrence that is later. -/
def walkUp (frequency : Frequency) (start after : Day) : ℕ → ℕ → ℕ
  | 0, n => n
  | fuel + 1, n =>
    if occurrence frequency start n ≤ after then walkUp frequency start after fuel (n + 1) else n

/-- Occurrences rise each time, so none past the date's own figure is still before the date. -/
def nextIndex (frequency : Frequency) (start after : Day) : ℕ :=
  walkUp frequency start after (after.number + 1)
    (walkDown frequency start after (indexFloor frequency start after))

def nextOccurrence (frequency : Frequency) (start after : Day) : Day :=
  if after < start then start
  else occurrence frequency start (nextIndex frequency start after)

theorem months_pos {frequency : Frequency} {step : ℕ} (h : months frequency = some step) :
    1 ≤ step := by
  cases frequency with
  | weekly => cases h
  | monthly | quarterly | halfYearly | yearly =>
    cases h
    decide

theorem occurrence_zero (frequency : Frequency) (start : Day) :
    occurrence frequency start 0 = start := by
  unfold occurrence
  split
  · rfl
  · exact start.add_months_zero

theorem occurrence_strict (frequency : Frequency) (start : Day) :
    StrictMono (occurrence frequency start) := by
  intro m n hlt
  unfold occurrence
  split
  · exact start.add_days_strict (Nat.mul_lt_mul_of_pos_left hlt (by decide))
  · rename_i step hmonths
    apply lt_of_month_index
    rw [start.month_index_add, start.month_index_add]
    exact Nat.add_lt_add_left (Nat.mul_lt_mul_of_pos_left hlt (months_pos hmonths)) _

theorem walk_down_first {frequency : Frequency} {start after : Day} (n : ℕ) {j : ℕ}
    (hj : j < walkDown frequency start after n) : occurrence frequency start j ≤ after := by
  induction n with
  | zero => cases hj
  | succ n ih =>
    unfold walkDown at hj
    split at hj
    · exact ih hj
    · rename_i hbefore
      have hle : j ≤ n := Nat.lt_succ_iff.mp hj
      exact ((occurrence_strict frequency start).monotone hle).trans (not_lt.mp hbefore)

theorem walk_up_first {frequency : Frequency} {start after : Day} (fuel n : ℕ)
    (hbefore : ∀ j < n, occurrence frequency start j ≤ after) {j : ℕ}
    (hj : j < walkUp frequency start after fuel n) : occurrence frequency start j ≤ after := by
  induction fuel generalizing n with
  | zero => exact hbefore j hj
  | succ fuel ih =>
    unfold walkUp at hj
    split at hj
    · rename_i hle
      refine ih (n + 1) (fun i hi => ?_) hj
      rcases Nat.lt_succ_iff_lt_or_eq.mp hi with hlt | rfl
      · exact hbefore i hlt
      · exact hle
    · exact hbefore j hj

theorem walk_up_later {frequency : Frequency} {start after : Day} (fuel n : ℕ)
    (hfuel : after.number < n + fuel) :
    after < occurrence frequency start (walkUp frequency start after fuel n) := by
  induction fuel generalizing n with
  | zero =>
    rw [walkUp, Calendar.lt_iff]
    have hid : n ≤ (occurrence frequency start n).number :=
      StrictMono.le_apply (f := fun n => (occurrence frequency start n).number)
        fun _ _ h => occurrence_strict frequency start h
    omega
  | succ fuel ih =>
    unfold walkUp
    split
    · exact ih (n + 1) (by omega)
    · rename_i hlater
      exact not_le.mp hlater

/-- The search ends at the first later occurrence, whatever the estimate it starts from. -/
theorem next_index_first (frequency : Frequency) (start after : Day) :
    after < occurrence frequency start (nextIndex frequency start after) ∧
      ∀ j, after < occurrence frequency start j → nextIndex frequency start after ≤ j := by
  refine ⟨walk_up_later _ _ (by omega), fun j hlater => not_lt.mp fun hlt => ?_⟩
  exact absurd (walk_up_first _ _ (fun i hi => walk_down_first _ hi) hlt) (not_le.mpr hlater)

theorem next_occurrence_succ (frequency : Frequency) (start : Day) (n : ℕ) :
    nextOccurrence frequency start (occurrence frequency start n) =
      occurrence frequency start (n + 1) := by
  have hstart : start ≤ occurrence frequency start n := by
    have hmono := (occurrence_strict frequency start).monotone (Nat.zero_le n)
    rwa [occurrence_zero] at hmono
  unfold nextOccurrence
  rw [if_neg (not_lt.mpr hstart)]
  obtain ⟨hlater, hfirst⟩ := next_index_first frequency start (occurrence frequency start n)
  have hgt : n < nextIndex frequency start (occurrence frequency start n) :=
    (occurrence_strict frequency start).lt_iff_lt.mp hlater
  have hle := hfirst (n + 1) (occurrence_strict frequency start (Nat.lt_succ_self n))
  rw [show nextIndex frequency start (occurrence frequency start n) = n + 1 by omega]

end Caflow.Recurring
