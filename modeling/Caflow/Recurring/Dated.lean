import Caflow.Lib.DayCount
import Caflow.Recurring.Recurrence

namespace Caflow.Recurring
open Calendar (Day)
open IsoDate (monthDays)

/-- A date as the program holds one: the years it counts end at 9999. -/
def CalendarDate := { d : Day // d.year ≤ 9999 }

/-- Why a search gives no date: it came past the last year, or it went on for ever. -/
inductive Stop where
  | outOfCalendar
  | outOfFuel
  deriving DecidableEq

instance : DecidableEq CalendarDate := inferInstanceAs (DecidableEq { d : Day // d.year ≤ 9999 })

def dated (d : Day) : Except Stop CalendarDate :=
  if h : d.year ≤ 9999 then .ok ⟨d, h⟩ else .error .outOfCalendar

/-- The first loop: down from an estimate while the occurrence before is not early. -/
def lowerIndex (early : Day → Bool) (frequency : Frequency) (start : Day) : ℕ → Except Stop ℕ
  | 0 => .ok 0
  | n + 1 => do
    let before ← dated (occurrence frequency start n)
    if early before.1 then .ok (n + 1) else lowerIndex early frequency start n

/-- The second loop: up while the occurrence is early. -/
def raiseIndex (early : Day → Bool) (frequency : Frequency) (start : Day) :
    ℕ → ℕ → Except Stop CalendarDate
  | 0, _ => .error .outOfFuel
  | fuel + 1, n => do
    let d ← dated (occurrence frequency start n)
    if early d.1 then raiseIndex early frequency start fuel (n + 1) else .ok d

/-- Both loops from the estimate of the date's own index. -/
def search (early : Day → Bool) (frequency : Frequency) (start ref : Day) :
    Except Stop CalendarDate := do
  let n ← lowerIndex early frequency start (indexFloor frequency start ref)
  raiseIndex early frequency start (ref.number + 2) n

def occurrenceOnOrAfter (frequency : Frequency) (start ref : CalendarDate) :
    Except Stop CalendarDate :=
  if ref.1 ≤ start.1 then .ok start
  else search (fun d => d < ref.1) frequency start.1 ref.1

/-- `next_occurrence` over the dates there are; without a date to be after it is the start. -/
def nextDate (frequency : Frequency) (start : CalendarDate) :
    Option CalendarDate → Except Stop CalendarDate
  | none => .ok start
  | some after =>
    if after.1 < start.1 then .ok start
    else search (fun d => d ≤ after.1) frequency start.1 after.1

/-- The dates `next_occurrence` gives when each is the next one's `after`. -/
def visits (frequency : Frequency) (start : CalendarDate) : ℕ → Except Stop CalendarDate
  | 0 => nextDate frequency start none
  | n + 1 => do
    let d ← visits frequency start n
    nextDate frequency start (some d)

theorem year_mono {a b : Day} (h : a ≤ b) : a.year ≤ b.year := by
  have hab := Calendar.le_iff.mp h
  have := a.day_lt
  have := b.day_lt
  have := a.monthLe
  have := b.monthLe
  simp only [Day.number] at hab
  omega

theorem dated_of (d : CalendarDate) : dated d.1 = .ok d := by
  unfold dated
  rw [dif_pos d.2]
  rfl

theorem year_of_month_index {a b : Day} (h : a.monthIndex ≤ b.monthIndex) : a.year ≤ b.year := by
  have := a.monthPos
  have := b.monthPos
  have := b.monthLe
  simp only [Day.monthIndex] at h
  omega

/-- The estimate is not past the date it is made for. -/
theorem index_floor_le (frequency : Frequency) {start ref : Day} (h : start ≤ ref) :
    (occurrence frequency start (indexFloor frequency start ref)).year ≤ ref.year := by
  cases hmonths : months frequency with
  | none =>
    simp only [occurrence, indexFloor, hmonths]
    apply year_mono
    apply Day.ordinal_strict.le_iff_le.mp
    have hord := Day.ordinal_strict.monotone h
    rw [Day.ordinal_add_days]
    omega
  | some step =>
    simp only [occurrence, indexFloor, hmonths]
    apply year_of_month_index
    have hdiv := Nat.mul_div_le (ref.monthIndex - start.monthIndex) step
    have hindex : start.monthIndex ≤ ref.monthIndex := by
      by_contra hover
      exact absurd (Calendar.lt_of_month_index (not_le.mp hover)) (not_lt.mpr h)
    rw [Day.month_index_add]
    omega

section
variable {early : Day → Bool} {frequency : Frequency} {start ref : Day}

theorem lower_index_ok (n : ℕ) (hyears : ∀ j < n, (occurrence frequency start j).year ≤ 9999)
    (hearly : ∀ {a b : Day}, a ≤ b → early b → early a) :
    ∃ m ≤ n, lowerIndex early frequency start n = .ok m ∧
      ∀ j < m, early (occurrence frequency start j) := by
  induction n with
  | zero => exact ⟨0, le_rfl, rfl, by simp⟩
  | succ n ih =>
    have hdated : dated (occurrence frequency start n) =
        .ok ⟨occurrence frequency start n, hyears n (Nat.lt_succ_self n)⟩ :=
      dated_of ⟨occurrence frequency start n, hyears n (Nat.lt_succ_self n)⟩
    by_cases hbefore : early (occurrence frequency start n)
    · refine ⟨n + 1, le_rfl, by simp [lowerIndex, hdated, hbefore, bind, Except.bind], ?_⟩
      intro j hj
      exact hearly ((occurrence_strict frequency start).monotone (Nat.lt_succ_iff.mp hj)) hbefore
    · obtain ⟨m, hm, hok, hall⟩ := ih fun j hj => hyears j (hj.trans (Nat.lt_succ_self n))
      refine ⟨m, hm.trans (Nat.le_succ n), ?_, hall⟩
      simp [lowerIndex, hdated, hbefore, hok, bind, Except.bind]

/-- Going up from among the early occurrences ends at the first that is not early. -/
theorem raise_index_first {first : ℕ} (hfirst : ¬ early (occurrence frequency start first))
    (hbefore : ∀ j < first, early (occurrence frequency start j)) (fuel n : ℕ) (hn : n ≤ first)
    (hfuel : first < n + fuel) :
    raiseIndex early frequency start fuel n = dated (occurrence frequency start first) := by
  induction fuel generalizing n with
  | zero => omega
  | succ fuel ih =>
    unfold raiseIndex
    rcases hn.eq_or_lt with rfl | hlt
    · by_cases hyear : (occurrence frequency start n).year ≤ 9999
      · rw [dated_of ⟨_, hyear⟩]
        simp [hfirst, bind, Except.bind]
      · simp [dated, hyear, bind, Except.bind]
    · by_cases hyear : (occurrence frequency start n).year ≤ 9999
      · rw [dated_of ⟨_, hyear⟩]
        simp only [hbefore n hlt, bind, Except.bind, if_true]
        exact ih (n + 1) hlt (by omega)
      · have hlater : ¬ (occurrence frequency start first).year ≤ 9999 := by
          have := year_mono ((occurrence_strict frequency start).monotone hn)
          omega
        simp [dated, hyear, hlater, bind, Except.bind]

/-- The search finds the first occurrence that is not early, or the end of the calendar before
it, wherever the estimate lies. -/
theorem search_first (early : Day → Bool) (frequency : Frequency) (hle : start ≤ ref) (hyear : ref.year ≤ 9999)
    (hearly : ∀ {a b : Day}, a ≤ b → early b → early a)
    (hlate : ∀ {d : Day}, ref < d → early d = false) :
    ∃ first, early (occurrence frequency start first) = false ∧
      (∀ j < first, early (occurrence frequency start j)) ∧
      search early frequency start ref = dated (occurrence frequency start first) := by
  have hgrows : ∀ n, n ≤ (occurrence frequency start n).number :=
    fun n => StrictMono.le_apply (f := fun n => (occurrence frequency start n).number)
      fun _ _ h => occurrence_strict frequency start h
  have hlast : early (occurrence frequency start (ref.number + 1)) = false :=
    hlate (Calendar.lt_iff.mpr (hgrows (ref.number + 1)))
  have hexists : ∃ n, early (occurrence frequency start n) = false := ⟨_, hlast⟩
  have hfirst := Nat.find_spec hexists
  have hbefore : ∀ j < Nat.find hexists, early (occurrence frequency start j) = true :=
    fun j hj => by simpa using Nat.find_min hexists hj
  have hbound := Nat.find_min' hexists hlast
  have hyears : ∀ j < indexFloor frequency start ref,
      (occurrence frequency start j).year ≤ 9999 := fun j hj =>
    (year_mono ((occurrence_strict frequency start).monotone hj.le)).trans
      ((index_floor_le frequency hle).trans hyear)
  obtain ⟨m, -, hlower, hm⟩ := lower_index_ok _ hyears hearly
  have hstart : m ≤ Nat.find hexists := by
    by_contra hover
    have := hm _ (not_le.mp hover)
    rw [hfirst] at this
    cases this
  refine ⟨Nat.find hexists, hfirst, hbefore, ?_⟩
  simp only [search, hlower, bind, Except.bind]
  exact raise_index_first (by simp [hfirst]) hbefore _ _ hstart (by omega)

end

/-- The first occurrence that is not early is the least of those that are not. -/
theorem first_least (early : Day → Bool) {frequency : Frequency} {start : Day} {first : ℕ}
    (hfirst : early (occurrence frequency start first) = false)
    (hbefore : ∀ j < first, early (occurrence frequency start j)) :
    IsLeast { d | (∃ n, d = occurrence frequency start n) ∧ early d = false }
      (occurrence frequency start first) := by
  refine ⟨⟨⟨first, rfl⟩, hfirst⟩, ?_⟩
  rintro _ ⟨⟨n, rfl⟩, hn⟩
  apply (occurrence_strict frequency start).monotone
  by_contra hlt
  rw [hbefore n (not_le.mp hlt)] at hn
  cases hn

/-- The least occurrence after a date, or the end of the calendar before it. -/
theorem next_date_least (frequency : Frequency) (start ref : CalendarDate) :
    ∃ least, IsLeast { d | (∃ n, d = occurrence frequency start.1 n) ∧ ref.1 < d } least ∧
      nextDate frequency start (some ref) = dated least := by
  unfold nextDate
  dsimp only
  by_cases hbefore : ref.1 < start.1
  · refine ⟨start.1, ⟨⟨⟨0, (occurrence_zero _ _).symm⟩, hbefore⟩, ?_⟩, ?_⟩
    · rintro _ ⟨⟨n, rfl⟩, -⟩
      have hmono := (occurrence_strict frequency start.1).monotone (Nat.zero_le n)
      rwa [occurrence_zero] at hmono
    · rw [if_pos hbefore, dated_of]
  · obtain ⟨first, hfirst, hearlier, hsearch⟩ := search_first
      (fun d => d ≤ ref.1) frequency (not_lt.mp hbefore) ref.2
      (fun hab hb => by simpa using hab.trans (by simpa using hb)) (fun hd => by simpa using hd)
    refine ⟨_, ?_, by rw [if_neg hbefore, hsearch]⟩
    have hleast := first_least (fun d => d ≤ ref.1) hfirst hearlier
    simpa using hleast

/-- The least occurrence on a date or after it, or the end of the calendar before it. -/
theorem on_or_after_least (frequency : Frequency) (start ref : CalendarDate) :
    ∃ least, IsLeast { d | (∃ n, d = occurrence frequency start.1 n) ∧ ref.1 ≤ d } least ∧
      occurrenceOnOrAfter frequency start ref = dated least := by
  unfold occurrenceOnOrAfter
  by_cases hbefore : ref.1 ≤ start.1
  · refine ⟨start.1, ⟨⟨⟨0, (occurrence_zero _ _).symm⟩, hbefore⟩, ?_⟩, ?_⟩
    · rintro _ ⟨⟨n, rfl⟩, -⟩
      have hmono := (occurrence_strict frequency start.1).monotone (Nat.zero_le n)
      rwa [occurrence_zero] at hmono
    · rw [if_pos hbefore, dated_of]
  · obtain ⟨first, hfirst, hearlier, hsearch⟩ := search_first
      (fun d => d < ref.1) frequency (not_le.mp hbefore).le ref.2
      (fun hab hb => by simpa using hab.trans_lt (by simpa using hb))
      (fun hd => by simpa using hd.le)
    refine ⟨_, ?_, by rw [if_neg hbefore, hsearch]⟩
    have hleast := first_least (fun d => d < ref.1) hfirst hearlier
    simpa using hleast

theorem next_date_succ (frequency : Frequency) (start : CalendarDate) (n : ℕ)
    (h : (occurrence frequency start.1 n).year ≤ 9999) :
    nextDate frequency start (some ⟨occurrence frequency start.1 n, h⟩) =
      dated (occurrence frequency start.1 (n + 1)) := by
  obtain ⟨least, hleast, hnext⟩ :=
    next_date_least frequency start ⟨occurrence frequency start.1 n, h⟩
  have hstep := occurrence_strict frequency start.1 (Nat.lt_succ_self n)
  have hle : least ≤ occurrence frequency start.1 (n + 1) := hleast.2 ⟨⟨n + 1, rfl⟩, hstep⟩
  obtain ⟨⟨m, rfl⟩, hafter⟩ := hleast.1
  have hm : n < m := (occurrence_strict frequency start.1).lt_iff_lt.mp hafter
  have hge := (occurrence_strict frequency start.1).monotone (Nat.succ_le_of_lt hm)
  rw [hnext, le_antisymm hle hge]

/-- Going from each date to the next visits every occurrence once and in order, to the end of
the calendar. -/
theorem visits_occurrence (frequency : Frequency) (start : CalendarDate) (n : ℕ) :
    visits frequency start n = dated (occurrence frequency start.1 n) := by
  induction n with
  | zero => rw [occurrence_zero, dated_of]; rfl
  | succ n ih =>
    rw [visits, ih]
    by_cases hyear : (occurrence frequency start.1 n).year ≤ 9999
    · rw [dated_of ⟨_, hyear⟩]
      exact next_date_succ frequency start n hyear
    · have hlater : ¬ (occurrence frequency start.1 (n + 1)).year ≤ 9999 := by
        have := year_mono ((occurrence_strict frequency start.1).monotone (Nat.le_add_right n 1))
        omega
      simp [dated, hyear, hlater, bind, Except.bind]

/-- A weekly occurrence is so many weeks on; any other keeps the start's own day, or the last of
its month where that has not so many. -/
def Anchored (frequency : Frequency) (start : Day) (n : ℕ) : Prop :=
  match months frequency with
  | none => (occurrence frequency start n).ordinal = start.ordinal + 7 * n
  | some step =>
    (occurrence frequency start n).monthIndex = start.monthIndex + step * n ∧
      (occurrence frequency start n).day = min start.day
        (monthDays (occurrence frequency start n).year (occurrence frequency start n).month)

theorem anchored (frequency : Frequency) (start : Day) (n : ℕ) : Anchored frequency start n := by
  unfold Anchored
  cases hmonths : months frequency with
  | none =>
    simp only [occurrence, hmonths]
    exact start.ordinal_add_days _
  | some step =>
    simp only [occurrence, hmonths]
    exact ⟨start.month_index_add _, rfl⟩

/-- A schedule skips nothing and repeats nothing up to the last date there is. -/
theorem schedule_exact (frequency : Frequency) (start : CalendarDate) :
    (∀ ref : CalendarDate, ∃ least,
      IsLeast { d | (∃ n, d = occurrence frequency start.1 n) ∧ ref.1 < d } least ∧
      nextDate frequency start (some ref) = dated least) ∧
    (∀ ref : CalendarDate, ∃ least,
      IsLeast { d | (∃ n, d = occurrence frequency start.1 n) ∧ ref.1 ≤ d } least ∧
      occurrenceOnOrAfter frequency start ref = dated least) ∧
    (∀ n, visits frequency start n = dated (occurrence frequency start.1 n)) ∧
    StrictMono (occurrence frequency start.1) ∧ ∀ n, Anchored frequency start.1 n :=
  ⟨next_date_least frequency start, on_or_after_least frequency start,
    visits_occurrence frequency start, occurrence_strict frequency start.1,
    anchored frequency start.1⟩

/-- The last day there is. -/
def lastDay : CalendarDate := ⟨Day.of 9999 12 31, by decide⟩

/-- A monthly schedule of the last day has no date after it to give. -/
theorem last_day_next : nextDate .monthly lastDay (some lastDay) = .error .outOfCalendar := by
  decide +kernel

example : (nextDate .monthly ⟨Day.of 2024 1 31, by decide⟩
    (some ⟨Day.of 2024 1 31, by decide⟩)).map (·.1) = .ok (Day.of 2024 2 29) := by
  decide +kernel

end Caflow.Recurring
