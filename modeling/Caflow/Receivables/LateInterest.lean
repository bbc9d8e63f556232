import Caflow.Lib.DayCount

namespace Caflow.Receivables.LateInterest
open Calendar (Day)

def yearDays : ℤ := 365

def maxRateBps : ℤ := 10000

def maxGraceDays : ℤ := 365

/-- The date a customer's interest is counted from. -/
inductive Basis where
  | dueDate
  | invoiceDate

/-- A customer's terms. No rate is on record where nobody has stated one. -/
structure Terms where
  rateBps : Option ℤ
  graceDays : ℕ
  basis : Basis

def termsProblem (rateBps : Option ℤ) (graceDays : ℤ) : Option String :=
  if rateBps.any fun rate => rate < 0 ∨ maxRateBps < rate then
    some ("The interest rate must be between 0% and 100% a year (0 to " ++ toString maxRateBps ++
      " basis points); " ++ toString (rateBps.getD 0) ++ " is outside that. 1800 means 18% a year.")
  else if graceDays < 0 ∨ maxGraceDays < graceDays then
    some ("Grace days must be between 0 and " ++ toString maxGraceDays ++ ".")
  else none

/-- Nothing negative is rounded, and nothing is divided by what is not positive. -/
def roundHalfUp (numerator denominator : ℤ) : ℤ :=
  (2 * numerator + denominator) / (2 * denominator)

/-- Simple interest over a year of 365 days, rounded once on the whole product. -/
def interestPaise (outstandingPaise rateBps days : ℤ) : ℤ :=
  if outstandingPaise ≤ 0 ∨ rateBps ≤ 0 ∨ days ≤ 0 then 0
  else roundHalfUp (outstandingPaise * rateBps * days) (10000 * yearDays)

inductive Status where
  | charge
  | notOverdue
  | covered
  | roundsToNil
  | waived
  | noTerms
  | interestInvoice
  | undated
  deriving DecidableEq

/-- What one overdue invoice carries: interest for the days after one date, up to another. -/
structure DocumentInterest where
  status : Status
  interestPaise : ℤ
  countedFrom : Option Day
  startNote : Option String
  daysLate : ℤ
  daysCharged : ℤ
  periodFrom : Option Day
  periodTo : Option Day
  alreadyChargedThrough : Option Day
  note : Option String

/-- An answer that carries no figure. -/
def DocumentInterest.nil (status : Status) (note : Option String) : DocumentInterest :=
  ⟨status, 0, none, none, 0, 0, none, none, none, note⟩

def noDueDate : String :=
  "No due date is recorded for this invoice, so the days are counted from the invoice date."

/-- The date the days are counted from, with what is said where it is not the one the terms name. -/
def startOf (basis : Basis) (invoiceDate dueDate : Option Day) : Option Day × Option String :=
  match basis, dueDate with
  | .invoiceDate, _ => (invoiceDate, none)
  | .dueDate, some due => (some due, none)
  | .dueDate, none => (invoiceDate, invoiceDate.map fun _ => noDueDate)

/-- Days from one day to a later one, and none to an earlier one. -/
def daysAfter (d asOf : Day) : ℤ := max ((asOf.ordinal : ℤ) - d.ordinal) 0

def laterOf (d : Day) (other : Option Day) : Day := other.elim d (max d)

def documentInterest (outstandingPaise : ℤ) (invoiceDate dueDate : Option Day) (terms : Terms)
    (asOf : Day) (chargedThrough : Option Day) : DocumentInterest :=
  match terms.rateBps, startOf terms.basis invoiceDate dueDate with
  | none, _ => .nil .noTerms none
  | some _, (none, _) => .nil .undated (some "This invoice has no date to count from.")
  | some rate, (some start, startNote) =>
    let accruesAfter := start.addDays terms.graceDays
    let daysLate := daysAfter accruesAfter asOf
    if daysLate = 0 then
      ⟨.notOverdue, 0, some start, startNote, 0, 0, some accruesAfter, some asOf, none, none⟩
    else if outstandingPaise ≤ 0 then
      ⟨.notOverdue, 0, some start, none, 0, 0, none, none, none, none⟩
    else
      let periodFrom := laterOf accruesAfter chargedThrough
      let days := daysAfter periodFrom asOf
      let answer (status : Status) (interest days : ℤ) : DocumentInterest :=
        ⟨status, interest, some start, startNote, daysLate, days, some periodFrom, some asOf,
          chargedThrough, none⟩
      let amount := interestPaise outstandingPaise rate days
      if days = 0 then answer .covered 0 0
      else if rate = 0 then answer .waived 0 days
      else if amount = 0 then answer .roundsToNil 0 days
      else answer .charge amount days

/-- The interest drafted for one invoice so far, and the date the drafts charge it through. -/
structure Charging where
  through : Option Day
  charged : List DocumentInterest

/-- A draft prepared as at a date, where the drafts before it left off. -/
def chargeAt (outstandingPaise : ℤ) (invoiceDate dueDate : Option Day) (terms : Terms)
    (s : Charging) (asOf : Day) : Charging :=
  let r := documentInterest outstandingPaise invoiceDate dueDate terms asOf s.through
  if r.status = .charge then ⟨some asOf, s.charged ++ [r]⟩ else s

/-- A whole number of days ahead of what is charged, and interest for them that is not nil. -/
structure Charges (outstandingPaise : ℤ) (invoiceDate dueDate : Option Day) (terms : Terms)
    (asOf : Day) (through : Option Day) (rate : ℤ) (start : Day) : Prop where
  stated : terms.rateBps = some rate
  dated : (startOf terms.basis invoiceDate dueDate).1 = some start
  ahead : laterOf (start.addDays terms.graceDays) through < asOf
  owed : interestPaise outstandingPaise rate
    (daysAfter (laterOf (start.addDays terms.graceDays) through) asOf) ≠ 0

section
variable {outstandingPaise : ℤ} {invoiceDate dueDate through : Option Day} {terms : Terms}
  {asOf : Day}

theorem days_after_pos {d : Day} : daysAfter d asOf ≠ 0 ↔ d < asOf := by
  rw [← Day.ordinal_strict.lt_iff_lt]
  unfold daysAfter
  omega

theorem days_after_eq {d : Day} (h : d ≤ asOf) :
    daysAfter d asOf = (asOf.ordinal : ℤ) - d.ordinal := by
  have := Day.ordinal_strict.monotone h
  unfold daysAfter
  omega

@[simp] theorem later_of_none (d : Day) : laterOf d none = d := rfl

theorem le_later_of (d : Day) (other : Option Day) : d ≤ laterOf d other := by
  cases other with
  | none => exact le_rfl
  | some t => exact le_max_left d t

/-- When an invoice is charged, and what its line then holds. -/
theorem charge_iff :
    (documentInterest outstandingPaise invoiceDate dueDate terms asOf through).status = .charge ↔
      ∃ rate start, Charges outstandingPaise invoiceDate dueDate terms asOf through rate start := by
  rcases hstart : startOf terms.basis invoiceDate dueDate with ⟨_ | start, startNote⟩
  · refine ⟨fun h => ?_, fun ⟨rate, start, h⟩ => ?_⟩
    · cases hrate : terms.rateBps <;>
        simp [documentInterest, hrate, hstart, DocumentInterest.nil] at h
    · simpa [hstart] using h.dated
  cases hrate : terms.rateBps with
  | none =>
    refine ⟨fun h => ?_, fun ⟨rate, start, h⟩ => ?_⟩
    · simp [documentInterest, hrate, DocumentInterest.nil] at h
    · simpa [hrate] using h.stated
  | some rate =>
    simp only [documentInterest, hrate, hstart]
    constructor
    · intro h
      split_ifs at h with hlate howed hdays hwaived hnil
      exact ⟨rate, start, hrate, by rw [hstart], days_after_pos.mp hdays, hnil⟩
    · rintro ⟨rate', start', h⟩
      obtain rfl := Option.some.inj (hrate.symm.trans h.stated)
      obtain rfl : start = start' := by simpa [hstart] using h.dated
      have hlate : daysAfter (start.addDays terms.graceDays) asOf ≠ 0 :=
        days_after_pos.mpr ((le_later_of _ _).trans_lt h.ahead)
      have howed := h.owed
      unfold interestPaise at howed
      split_ifs at howed with hnone
      · exact absurd rfl howed
      rw [if_neg hlate, if_neg (by omega), if_neg (days_after_pos.mpr h.ahead), if_neg (by omega),
        if_neg h.owed]

/-- What an invoice that is charged is charged for. -/
theorem Charges.line {rate : ℤ} {start : Day}
    (h : Charges outstandingPaise invoiceDate dueDate terms asOf through rate start) :
    let r := documentInterest outstandingPaise invoiceDate dueDate terms asOf through
    let periodFrom := laterOf (start.addDays terms.graceDays) through
    r.periodFrom = some periodFrom ∧ r.periodTo = some asOf ∧
      r.daysCharged = (asOf.ordinal : ℤ) - periodFrom.ordinal ∧
      r.interestPaise = interestPaise outstandingPaise rate r.daysCharged := by
  have hcharge := charge_iff.mpr ⟨rate, start, h⟩
  obtain ⟨startNote, hstart⟩ :
      ∃ note, startOf terms.basis invoiceDate dueDate = (some start, note) :=
    ⟨_, Prod.ext h.dated rfl⟩
  simp only [documentInterest, h.stated, hstart] at hcharge ⊢
  split_ifs at hcharge ⊢
  exact ⟨rfl, rfl, days_after_eq h.ahead.le, rfl⟩

/-- A figure is within half a paisa of the exact one. -/
theorem interest_within {rate days : ℤ} (h : interestPaise outstandingPaise rate days ≠ 0) :
    0 < outstandingPaise ∧ 0 < rate ∧ 0 < days ∧
      |2 * (3650000 * interestPaise outstandingPaise rate days - outstandingPaise * rate * days)| ≤
        3650000 := by
  unfold interestPaise at h ⊢
  split_ifs at h ⊢ with hnone
  · exact absurd rfl h
  · refine ⟨by omega, by omega, by omega, ?_⟩
    rw [roundHalfUp, yearDays]
    generalize outstandingPaise * rate * days = n
    rw [abs_le]
    omega

/-- More days never cost less. -/
theorem interest_pos {rate days more : ℤ} (h : interestPaise outstandingPaise rate days ≠ 0)
    (hmore : days ≤ more) : interestPaise outstandingPaise rate more ≠ 0 := by
  obtain ⟨howed, hrate, hdays, -⟩ := interest_within h
  have hproduct : outstandingPaise * rate * days ≤ outstandingPaise * rate * more :=
    mul_le_mul_of_nonneg_left hmore (mul_pos howed hrate).le
  have hpositive : 0 < outstandingPaise * rate * days := by positivity
  rw [interestPaise, if_neg (by omega), roundHalfUp, yearDays] at h ⊢
  omega

/-- The drafts so far: their days run on from one another, and each figure is near the exact one. -/
structure Charged (outstandingPaise : ℤ) (invoiceDate dueDate : Option Day) (terms : Terms)
    (s : Charging) (last start : Day) (rate : ℤ) : Prop where
  through : s.through = some last
  whole : Charges outstandingPaise invoiceDate dueDate terms last none rate start
  days : (s.charged.map DocumentInterest.daysCharged).sum =
    (last.ordinal : ℤ) - (start.addDays terms.graceDays).ordinal
  within : |2 * (3650000 * (s.charged.map DocumentInterest.interestPaise).sum -
    outstandingPaise * rate * (s.charged.map DocumentInterest.daysCharged).sum)| ≤
      3650000 * s.charged.length

theorem charge_at_kept {s : Charging}
    (h : s.through = none ∧ s.charged = [] ∨
      ∃ last start rate, Charged outstandingPaise invoiceDate dueDate terms s last start rate)
    (asOf : Day) :
    let s' := chargeAt outstandingPaise invoiceDate dueDate terms s asOf
    s'.through = none ∧ s'.charged = [] ∨
      ∃ last start rate, Charged outstandingPaise invoiceDate dueDate terms s' last start rate := by
  unfold chargeAt
  dsimp only
  split
  · rename_i hcharge
    right
    obtain ⟨rate, start, hc⟩ := charge_iff.mp hcharge
    obtain ⟨-, -, hdays, hinterest⟩ := hc.line
    have hwithin := interest_within hc.owed
    rw [days_after_eq hc.ahead.le, ← hdays, ← hinterest] at hwithin
    have hlate := (le_later_of (start.addDays terms.graceDays) s.through).trans_lt hc.ahead
    refine ⟨asOf, start, rate, rfl, ⟨hc.stated, hc.dated, hlate, ?_⟩, ?_, ?_⟩
    · refine interest_pos hc.owed ?_
      have hle :=
        Day.ordinal_strict.monotone (le_later_of (start.addDays terms.graceDays) s.through)
      rw [later_of_none, days_after_eq hc.ahead.le,
        days_after_eq ((le_later_of _ _).trans hc.ahead.le)]
      omega
    · rcases h with ⟨hnone, hnil⟩ | ⟨last, start', rate', hold⟩
      · rw [hnone] at hdays
        simpa [hnil, hnone] using hdays
      · obtain rfl := Option.some.inj (hold.whole.dated.symm.trans hc.dated)
        have hlater : laterOf (start'.addDays terms.graceDays) s.through = last := by
          rw [hold.through]
          exact max_eq_right hold.whole.ahead.le
        rw [List.map_append, List.sum_append, hold.days, List.map_singleton, List.sum_singleton,
          hdays, hlater]
        omega
    · rcases h with ⟨hnone, hnil⟩ | ⟨last, start', rate', hold⟩
      · simpa [hnil] using hwithin.2.2.2
      · obtain rfl := Option.some.inj (hold.whole.stated.symm.trans hc.stated)
        have hsum := abs_add_le
          (2 * (3650000 * (s.charged.map DocumentInterest.interestPaise).sum -
            outstandingPaise * rate' * (s.charged.map DocumentInterest.daysCharged).sum))
          (2 * (3650000 * (documentInterest outstandingPaise invoiceDate dueDate terms asOf
              s.through).interestPaise -
            outstandingPaise * rate' * (documentInterest outstandingPaise invoiceDate dueDate terms
              asOf s.through).daysCharged))
        simp only [List.map_append, List.sum_append, List.map_singleton, List.sum_singleton,
          List.length_append, List.length_singleton, Nat.cast_add, Nat.cast_one]
        calc _ = _ := by congr 1; ring
          _ ≤ _ := hsum
          _ ≤ 3650000 * (s.charged.length : ℤ) + 3650000 := add_le_add hold.within hwithin.2.2.2
          _ = _ := by ring
  · exact h

theorem charge_all_kept (dates : List Day) {s : Charging}
    (h : s.through = none ∧ s.charged = [] ∨
      ∃ last start rate, Charged outstandingPaise invoiceDate dueDate terms s last start rate) :
    let s' := dates.foldl (chargeAt outstandingPaise invoiceDate dueDate terms) s
    s'.through = none ∧ s'.charged = [] ∨
      ∃ last start rate, Charged outstandingPaise invoiceDate dueDate terms s' last start rate := by
  induction dates generalizing s with
  | nil => exact h
  | cons d dates ih => exact ih (charge_at_kept h d)

end

/-- An invoice drafted again and again, at whatever dates, is charged the days one draft would have
charged, and the figures add up to that draft's within half a paisa for each of them and for it. -/
theorem pieces_agree (outstandingPaise : ℤ) (invoiceDate dueDate : Option Day) (terms : Terms)
    (dates : List Day) :
    let s := dates.foldl (chargeAt outstandingPaise invoiceDate dueDate terms) ⟨none, []⟩
    s.charged = [] ∧ s.through = none ∨
      ∃ last, s.through = some last ∧
        let one := documentInterest outstandingPaise invoiceDate dueDate terms last none
        one.status = .charge ∧
          (s.charged.map DocumentInterest.daysCharged).sum = one.daysCharged ∧
          |2 * ((s.charged.map DocumentInterest.interestPaise).sum - one.interestPaise)| ≤
            s.charged.length + 1 := by
  intro s
  rcases @charge_all_kept outstandingPaise invoiceDate dueDate terms dates ⟨none, []⟩
    (.inl ⟨rfl, rfl⟩) with ⟨hnone, hnil⟩ | ⟨last, start, rate, h⟩
  · exact .inl ⟨hnil, hnone⟩
  · obtain ⟨-, -, hdays, hinterest⟩ := h.whole.line
    have hwithin := (interest_within h.whole.owed).2.2.2
    rw [days_after_eq h.whole.ahead.le, ← hdays, ← hinterest] at hwithin
    have hsum : (s.charged.map DocumentInterest.daysCharged).sum =
        (documentInterest outstandingPaise invoiceDate dueDate terms last none).daysCharged :=
      h.days.trans hdays.symm
    refine .inr ⟨last, h.through, charge_iff.mpr ⟨rate, start, h.whole⟩, hsum, ?_⟩
    have hpieces := h.within
    change |2 * (3650000 * (s.charged.map DocumentInterest.interestPaise).sum -
      outstandingPaise * rate * (s.charged.map DocumentInterest.daysCharged).sum)| ≤
        3650000 * s.charged.length at hpieces
    rw [hsum] at hpieces
    rw [abs_le] at hwithin hpieces ⊢
    omega

end Caflow.Receivables.LateInterest
