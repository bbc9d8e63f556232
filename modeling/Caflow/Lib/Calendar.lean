import Caflow.Lib.IsoDate

namespace Caflow.Calendar
open IsoDate (isLeap monthDays month_days_bounds month_days_pos one_le_one one_le_twelve)

/-- A day of the calendar, of a year however late. -/
structure Day where
  year : ℕ
  month : ℕ
  day : ℕ
  yearPos : 1 ≤ year
  monthPos : 1 ≤ month
  monthLe : month ≤ 12
  dayPos : 1 ≤ day
  dayLe : day ≤ monthDays year month

/-- The day of a year, a month and a date, each brought into its range. -/
def Day.of (year month day : ℕ) : Day where
  year := max 1 year
  month := max 1 (min month 12)
  day := max 1 (min day (monthDays (max 1 year) (max 1 (min month 12))))
  yearPos := Nat.le_max_left _ _
  monthPos := Nat.le_max_left _ _
  monthLe := Nat.max_le.mpr ⟨one_le_twelve, Nat.min_le_right _ _⟩
  dayPos := Nat.le_max_left _ _
  dayLe := Nat.max_le.mpr ⟨month_days_pos _ _, Nat.min_le_right _ _⟩

def Day.number (d : Day) : ℕ := d.year * 10000 + d.month * 100 + d.day

theorem Day.day_lt (d : Day) : d.day ≤ 31 := d.dayLe.trans (month_days_bounds _ _).2

theorem Day.number_injective : Function.Injective Day.number := by
  intro a b h
  have := a.day_lt
  have := b.day_lt
  have := a.monthLe
  have := b.monthLe
  obtain ⟨y, m, d, _⟩ := a
  obtain ⟨y', m', d', _⟩ := b
  simp only [Day.number] at *
  obtain rfl : y = y' := by omega
  obtain rfl : m = m' := by omega
  obtain rfl : d = d' := by omega
  rfl

instance : DecidableEq Day := fun a b =>
  decidable_of_iff (a.number = b.number) Day.number_injective.eq_iff

instance : LinearOrder Day := LinearOrder.lift' Day.number Day.number_injective

theorem lt_iff {a b : Day} : a < b ↔ a.number < b.number := Iff.rfl

theorem le_iff {a b : Day} : a ≤ b ↔ a.number ≤ b.number := Iff.rfl

/-- Months since year zero. -/
def Day.monthIndex (d : Day) : ℕ := d.year * 12 + (d.month - 1)

theorem lt_of_month_index {a b : Day} (h : a.monthIndex < b.monthIndex) : a < b := by
  have := a.day_lt
  have := b.dayPos
  have := a.monthLe
  have := a.monthPos
  have := b.monthLe
  have := b.monthPos
  rw [lt_iff]
  simp only [Day.monthIndex, Day.number] at *
  omega

/-- The days of all years before, by the Gregorian rule. -/
def daysBeforeYear (year : ℕ) : ℕ :=
  (year - 1) * 365 + (year - 1) / 4 - (year - 1) / 100 + (year - 1) / 400

def daysBeforeMonth (year : ℕ) : ℕ → ℕ
  | 0 => 0
  | month + 1 => if month = 0 then 0 else daysBeforeMonth year month + monthDays year month

def Day.ordinal (d : Day) : ℕ := daysBeforeYear d.year + daysBeforeMonth d.year d.month + d.day

/-- The day after. -/
def Day.next (d : Day) : Day :=
  if hday : d.day < monthDays d.year d.month then
    { d with day := d.day + 1, dayPos := Nat.succ_le_succ (Nat.zero_le _), dayLe := hday }
  else if hmonth : d.month < 12 then
    { d with month := d.month + 1, day := 1, monthPos := Nat.succ_le_succ (Nat.zero_le _)
             monthLe := hmonth, dayPos := one_le_one, dayLe := month_days_pos _ _ }
  else
    { year := d.year + 1, month := 1, day := 1, yearPos := Nat.succ_le_succ (Nat.zero_le _)
      monthPos := one_le_one, monthLe := one_le_twelve, dayPos := one_le_one
      dayLe := month_days_pos _ _ }

theorem Day.lt_next (d : Day) : d < d.next := by
  have hday := d.dayLe
  have hmonth := d.monthLe
  have hlt := d.day_lt
  rw [lt_iff]
  unfold Day.next
  split_ifs with hinside hsame
  · simp only [Day.number]
    omega
  · simp only [Day.number]
    omega
  · simp only [Day.number]
    omega

def Day.addDays (d : Day) : ℕ → Day
  | 0 => d
  | n + 1 => (d.addDays n).next

theorem Day.add_days_strict (d : Day) : StrictMono d.addDays :=
  strictMono_nat_of_lt_succ fun n => (d.addDays n).lt_next

/-- The same day some months on, or the last of that month. -/
def Day.addMonthsClamped (d : Day) (months : ℕ) : Day where
  year := d.year + (d.month - 1 + months) / 12
  month := (d.month - 1 + months) % 12 + 1
  day := min d.day (monthDays (d.year + (d.month - 1 + months) / 12) ((d.month - 1 + months) % 12 + 1))
  yearPos := d.yearPos.trans (Nat.le_add_right _ _)
  monthPos := Nat.succ_le_succ (Nat.zero_le _)
  monthLe := Nat.mod_lt _ (by decide)
  dayPos := le_min d.dayPos (month_days_pos _ _)
  dayLe := min_le_right _ _

theorem Day.month_index_add (d : Day) (months : ℕ) :
    (d.addMonthsClamped months).monthIndex = d.monthIndex + months := by
  have := d.monthPos
  simp only [Day.addMonthsClamped, Day.monthIndex]
  omega

/-- The last of a day's month. -/
def Day.monthEnd (d : Day) : Day :=
  { d with day := monthDays d.year d.month, dayPos := month_days_pos d.year d.month
           dayLe := Nat.le_refl _ }

@[simp] theorem Day.month_end_index (d : Day) : d.monthEnd.monthIndex = d.monthIndex := rfl

theorem Day.month_end_eq {a b : Day} : a.monthEnd = b.monthEnd ↔ a.monthIndex = b.monthIndex := by
  refine ⟨fun h => by rw [← month_end_index, h, month_end_index], fun h => ?_⟩
  have := a.monthPos
  have := b.monthPos
  have := a.monthLe
  have := b.monthLe
  simp only [monthIndex] at h
  have hyear : a.year = b.year := by omega
  have hmonth : a.month = b.month := by omega
  apply Day.number_injective
  simp only [monthEnd, number, hyear, hmonth]

@[simp] theorem Day.month_end_end (d : Day) : d.monthEnd.monthEnd = d.monthEnd :=
  month_end_eq.mpr d.month_end_index

theorem Day.add_months_zero (d : Day) : d.addMonthsClamped 0 = d := by
  have hpos := d.monthPos
  have hle := d.monthLe
  have hyear : d.year + (d.month - 1 + 0) / 12 = d.year := by omega
  have hmonth : (d.month - 1 + 0) % 12 + 1 = d.month := by omega
  apply Day.number_injective
  simp only [Day.addMonthsClamped, Day.number, hyear, hmonth, min_eq_left d.dayLe]

end Caflow.Calendar
