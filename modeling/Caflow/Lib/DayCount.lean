import Caflow.Lib.Calendar

namespace Caflow.Calendar
open IsoDate (isLeap monthDays)

/-- No day lies between a day and the one after it. -/
theorem Day.next_le {a b : Day} (h : a < b) : a.next ≤ b := by
  have hab := lt_iff.mp h
  have ha := a.day_lt
  have hb := b.day_lt
  have ham := a.monthLe
  have hbm := b.monthLe
  have hbmonth := b.monthPos
  have hbday := b.dayPos
  have hsame : a.year = b.year → a.month = b.month → b.day ≤ monthDays a.year a.month := by
    intro hyear hmonth
    rw [hyear, hmonth]
    exact b.dayLe
  rw [le_iff]
  simp only [Day.number] at hab
  unfold Day.next
  split_ifs with hinside hmonth
  · simp only [Day.number]
    omega
  · have hlast : a.year = b.year → a.month = b.month → b.day ≤ a.day := fun hy hm =>
      (hsame hy hm).trans (not_lt.mp hinside)
    simp only [Day.number]
    by_cases hyear : a.year = b.year
    · by_cases hm : a.month = b.month
      · have := hlast hyear hm
        omega
      · omega
    · omega
  · have hlast : a.year = b.year → a.month = b.month → b.day ≤ a.day := fun hy hm =>
      (hsame hy hm).trans (not_lt.mp hinside)
    simp only [Day.number]
    by_cases hyear : a.year = b.year
    · have hm : a.month = b.month := by omega
      have := hlast hyear hm
      omega
    · omega

theorem days_before_year_succ {year : ℕ} (h : 1 ≤ year) :
    daysBeforeYear (year + 1) = daysBeforeYear year + if isLeap year then 366 else 365 := by
  obtain ⟨k, rfl⟩ : ∃ k, year = k + 1 := ⟨year - 1, by omega⟩
  have hsmall : k / 100 ≤ k := Nat.div_le_self k 100
  unfold daysBeforeYear
  simp only [Nat.add_sub_cancel, Nat.succ_div, isLeap, ← Nat.dvd_iff_mod_eq_zero,
    decide_eq_true_eq]
  generalize k / 4 = a, k / 100 = b, k / 400 = c at *
  split_ifs <;> omega

theorem days_before_december (year : ℕ) :
    daysBeforeMonth year 12 = if isLeap year then 335 else 334 := by
  by_cases hleap : isLeap year = true <;> simp [daysBeforeMonth, monthDays, hleap]

@[simp] theorem Day.ordinal_next (d : Day) : d.next.ordinal = d.ordinal + 1 := by
  have hday := d.dayLe
  have hmonth := d.monthPos
  unfold Day.next
  split_ifs with hinside hsame
  · simp only [Day.ordinal]
    omega
  · have hfull : d.day = monthDays d.year d.month := by omega
    simp only [Day.ordinal, daysBeforeMonth, hfull]
    split_ifs <;> omega
  · have hfull : d.day = monthDays d.year d.month := by omega
    have hdecember : d.month = 12 := by have := d.monthLe; omega
    simp only [Day.ordinal, hfull, hdecember, days_before_year_succ d.yearPos,
      days_before_december]
    simp only [daysBeforeMonth, monthDays]
    split_ifs <;> simp_all

@[simp] theorem Day.ordinal_add_days (d : Day) (n : ℕ) :
    (d.addDays n).ordinal = d.ordinal + n := by
  induction n with
  | zero => rfl
  | succ n ih =>
    rw [Day.addDays, Day.ordinal_next, ih]
    rfl

/-- A later day has a later place in the count of days. -/
theorem Day.ordinal_strict : StrictMono Day.ordinal := by
  intro a b h
  induction hgap : b.number - a.number using Nat.strong_induction_on generalizing a with
  | _ gap ih =>
    rcases (Day.next_le h).eq_or_lt with heq | hlt
    · rw [← heq, Day.ordinal_next]
      exact Nat.lt_succ_self _
    · have hstep := lt_iff.mp a.lt_next
      have hrest := lt_iff.mp hlt
      have := ih (b.number - a.next.number) (by omega) hlt rfl
      rw [Day.ordinal_next] at this
      omega

end Caflow.Calendar
