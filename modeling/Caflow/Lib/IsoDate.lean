import Mathlib

namespace Caflow.IsoDate

def isLeap (year : ℕ) : Bool := year % 4 = 0 ∧ (year % 100 ≠ 0 ∨ year % 400 = 0)

def monthDays (year month : ℕ) : ℕ :=
  if month = 2 then (if isLeap year then 29 else 28)
  else if month = 4 ∨ month = 6 ∨ month = 9 ∨ month = 11 then 30
  else 31

theorem month_days_bounds (year month : ℕ) : 28 ≤ monthDays year month ∧ monthDays year month ≤ 31 := by
  unfold monthDays
  split_ifs <;> omega

theorem month_days_pos (year month : ℕ) : 1 ≤ monthDays year month :=
  le_trans (by decide) (month_days_bounds year month).1

/-- A day of the calendar that `YYYY-MM-DD` can write. -/
structure Date where
  year : ℕ
  month : ℕ
  day : ℕ
  yearPos : 1 ≤ year
  yearLe : year ≤ 9999
  monthPos : 1 ≤ month
  monthLe : month ≤ 12
  dayPos : 1 ≤ day
  dayLe : day ≤ monthDays year month
  deriving DecidableEq

def digit (n : ℕ) : Char := Char.ofNat (48 + n % 10)

/-- The last `width` decimal digits of a number, zeros in front. -/
def digits : ℕ → ℕ → List Char
  | 0, _ => []
  | width + 1, n => digits width (n / 10) ++ [digit n]

def Date.text (d : Date) : String :=
  String.ofList (digits 4 d.year ++ '-' :: (digits 2 d.month ++ '-' :: digits 2 d.day))

theorem digit_lt (m n : ℕ) : digit m < digit n ↔ m % 10 < n % 10 := by
  have htable : ∀ i j : Fin 10, Char.ofNat (48 + i) < Char.ofNat (48 + j) ↔ i < j := by decide
  exact htable ⟨m % 10, Nat.mod_lt m (by decide)⟩ ⟨n % 10, Nat.mod_lt n (by decide)⟩

@[simp] theorem digits_length (width n : ℕ) : (digits width n).length = width := by
  induction width generalizing n with
  | zero => rfl
  | succ width ih => simp [digits, ih]

/-- Texts of one length compare at their first difference, whatever follows them. -/
theorem append_lt_append {a a' b b' : List Char} (h : a.length = a'.length) :
    a ++ b < a' ++ b' ↔ a < a' ∨ a = a' ∧ b < b' := by
  induction a generalizing a' with
  | nil =>
    obtain rfl := List.length_eq_zero_iff.mp h.symm
    simp
  | cons c a ih =>
    cases a' with
    | nil => simp at h
    | cons c' a' =>
      simp only [List.cons_append, List.cons_lt_cons_iff, ih (by simpa using h), List.cons.injEq]
      tauto

theorem digits_lt {width m n : ℕ} (hm : m < 10 ^ width) (hn : n < 10 ^ width) :
    digits width m < digits width n ↔ m < n := by
  induction width generalizing m n with
  | zero => simp [digits]; omega
  | succ width ih =>
    have hm' : m / 10 < 10 ^ width := by omega
    have hn' : n / 10 < 10 ^ width := by omega
    have heq : digits width (m / 10) = digits width (n / 10) ↔ m / 10 = n / 10 := by
      refine ⟨fun h => ?_, fun h => by rw [h]⟩
      have h₁ := (ih hm' hn').not.mp (h ▸ List.lt_irrefl _)
      have h₂ := (ih hn' hm').not.mp (h ▸ List.lt_irrefl _)
      omega
    have hlast : [digit m] < [digit n] ↔ m % 10 < n % 10 := by
      simp [List.cons_lt_cons_iff, digit_lt]
    rw [digits, digits, append_lt_append (by simp), ih hm' hn', heq, hlast]
    omega

theorem digits_inj {width m n : ℕ} (hm : m < 10 ^ width) (hn : n < 10 ^ width) :
    digits width m = digits width n ↔ m = n := by
  refine ⟨fun h => ?_, fun h => by rw [h]⟩
  have h₁ := (digits_lt hm hn).not.mp (h ▸ List.lt_irrefl _)
  have h₂ := (digits_lt hn hm).not.mp (h ▸ List.lt_irrefl _)
  omega

/-- The figure that year, month and day make side by side. -/
def Date.number (d : Date) : ℕ := d.year * 10000 + d.month * 100 + d.day

theorem Date.day_lt (d : Date) : d.day ≤ 31 := d.dayLe.trans (month_days_bounds _ _).2

theorem text_lt_text (a b : Date) : a.text < b.text ↔ a.number < b.number := by
  have := a.yearLe
  have := a.monthLe
  have := a.day_lt
  have := b.yearLe
  have := b.monthLe
  have := b.day_lt
  have hdash : ∀ l l' : List Char, '-' :: l < '-' :: l' ↔ l < l' := by
    simp
  rw [String.lt_iff_toList_lt]
  simp only [Date.text, String.toList_ofList]
  rw [append_lt_append (by simp), hdash, append_lt_append (by simp), hdash,
    digits_lt (by omega) (by omega), digits_lt (by omega) (by omega),
    digits_lt (by omega) (by omega), digits_inj (by omega) (by omega),
    digits_inj (by omega) (by omega)]
  unfold Date.number
  omega

theorem Date.number_injective : Function.Injective Date.number := by
  intro a b h
  have := a.day_lt
  have := b.day_lt
  have := a.monthLe
  have := b.monthLe
  obtain ⟨y, m, d, _⟩ := a
  obtain ⟨y', m', d', _⟩ := b
  simp only [Date.number] at *
  obtain rfl : y = y' := by omega
  obtain rfl : m = m' := by omega
  obtain rfl : d = d' := by omega
  rfl

theorem Date.text_injective : Function.Injective Date.text := by
  intro a b h
  have h₁ := (text_lt_text a b).not.mp (h ▸ lt_irrefl _)
  have h₂ := (text_lt_text b a).not.mp (h ▸ lt_irrefl _)
  exact Date.number_injective (by omega)

/-- Dates are compared as their texts are. -/
instance : LinearOrder Date := LinearOrder.lift' Date.text Date.text_injective

theorem lt_iff {a b : Date} : a < b ↔ a.number < b.number := text_lt_text a b

theorem le_iff {a b : Date} : a ≤ b ↔ a.number ≤ b.number := by
  rw [← not_lt, lt_iff, not_lt]

theorem one_le_one : (1 : ℕ) ≤ 1 := le_rfl

theorem one_le_twelve : (1 : ℕ) ≤ 12 := by decide

/-- The date of a year, a month and a day, each brought into its range. -/
def Date.of (year month day : ℕ) : Date where
  year := max 1 (min year 9999)
  month := max 1 (min month 12)
  day := max 1 (min day (monthDays (max 1 (min year 9999)) (max 1 (min month 12))))
  yearPos := le_max_left _ _
  yearLe := max_le (by decide) (min_le_right _ _)
  monthPos := le_max_left _ _
  monthLe := max_le one_le_twelve (min_le_right _ _)
  dayPos := le_max_left _ _
  dayLe := max_le (month_days_pos _ _) (min_le_right _ _)

/-- The first of a date's month. -/
def Date.monthStart (d : Date) : Date :=
  { d with day := 1, dayPos := le_rfl, dayLe := month_days_pos d.year d.month }

/-- The last of a date's month. -/
def Date.monthEnd (d : Date) : Date :=
  { d with day := monthDays d.year d.month, dayPos := month_days_pos d.year d.month, dayLe := le_rfl }

theorem month_start_le (d : Date) : d.monthStart ≤ d := by
  have := d.dayPos
  rw [le_iff]
  simp only [Date.number, Date.monthStart]
  omega

/-- Dates of one month share its first; a date of an earlier month comes before all of them. -/
theorem month_start_lt_iff {a b : Date} :
    a.monthStart < b.monthStart ↔ a < b ∧ a.monthStart ≠ b.monthStart := by
  have := a.day_lt
  have := b.day_lt
  have := a.dayPos
  have := b.dayPos
  rw [ne_eq, ← Date.number_injective.eq_iff, lt_iff, lt_iff]
  simp only [Date.number, Date.monthStart]
  omega

/-- The day before, which the first day of all does not have. -/
def Date.dayBefore? (d : Date) : Option Date :=
  if hday : 1 < d.day then
    some { d with day := d.day - 1, dayPos := Nat.le_sub_one_of_lt hday
                  dayLe := (Nat.sub_le d.day 1).trans d.dayLe }
  else if hmonth : 1 < d.month then
    some { d with month := d.month - 1, day := monthDays d.year (d.month - 1)
                  monthPos := Nat.le_sub_one_of_lt hmonth
                  monthLe := (Nat.sub_le d.month 1).trans d.monthLe
                  dayPos := month_days_pos d.year (d.month - 1), dayLe := le_rfl }
  else if hyear : 1 < d.year then
    some { year := d.year - 1, month := 12, day := 31, yearPos := Nat.le_sub_one_of_lt hyear
           yearLe := (Nat.sub_le d.year 1).trans d.yearLe
           monthPos := by decide, monthLe := le_rfl, dayPos := by decide
           dayLe := by simp [monthDays] }
  else none

/-- Nothing lies between a day and the day before it. -/
theorem lt_iff_le_day_before {d before x : Date} (h : d.dayBefore? = some before) :
    x < d ↔ x ≤ before := by
  have hx := x.dayPos
  have hx' := x.day_lt
  have hxm := x.monthLe
  have hxm' := x.monthPos
  have hd := d.dayPos
  have hd' := d.day_lt
  have hdm := d.monthPos
  have hdm' := d.monthLe
  unfold Date.dayBefore? at h
  split_ifs at h with hday hmonth hyear <;> obtain rfl := Option.some.inj h
  · rw [lt_iff, le_iff]
    simp only [Date.number]
    omega
  · -- the last of the month before: a date of that month is not past its last day
    have hlast : x.year = d.year → x.month = d.month - 1 →
        x.day ≤ monthDays d.year (d.month - 1) := fun hy hm => hy ▸ hm ▸ x.dayLe
    have := (month_days_bounds d.year (d.month - 1)).2
    rw [lt_iff, le_iff]
    simp only [Date.number]
    by_cases hy : x.year = d.year <;> by_cases hm : x.month = d.month - 1
    · have := hlast hy hm
      omega
    all_goals omega
  · rw [lt_iff, le_iff]
    simp only [Date.number]
    omega

end Caflow.IsoDate
