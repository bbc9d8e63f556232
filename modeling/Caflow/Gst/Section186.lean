import Caflow.Gst.CreditHeads
import Caflow.Lib.Calendar
import Caflow.Lib.RoundUp

namespace Caflow.Gst.Section186
open RoundUp Calendar

/-- Dates are days of the calendar here, not ordinals. -/
abbrev Day := Calendar.Day

def pointsPerQuarter : ℤ := 5

def usefulLifeMonths : ℤ := 60

def allowedRatesBps : List ℤ := [0, 500, 1200, 1800, 2800]

/-- Each head times a fraction, rounded up. -/
def scaledUp (t : Heads) (numerator denominator : ℤ) : Heads := fun h =>
  if denominator ≤ 0 then 0 else ceilDiv (t h * max 0 numerator) denominator

inductive Reading
  | byQuarters | byMonths | transactionValueOnly

inductive Basis
  | reducedCredit | transactionValue

/-- One reading of the reduced credit, with its working. -/
structure Limb where
  reading : Reading
  elapsed : ℕ
  remainingFraction : String
  reducedCredit : Heads
  amountPayable : Heads
  basis : Basis

structure Section186Result where
  applies : Bool
  creditTaken : Heads
  taxOnTransactionValue : Heads
  readings : List Limb
  caveats : List String
  gaps : List String

/-- Complete months elapsed. A part month does not count. -/
def wholeMonthsBetween (start finish : Day) : ℕ :=
  (((finish.year : ℤ) - start.year) * 12 + ((finish.month : ℤ) - start.month) -
    if finish.day < start.day then 1 else 0).toNat

/-- Quarters or part of one since the invoice. The day of the sale begins a quarter itself. -/
def quartersOrPart (start finish : Day) : ℕ :=
  let months := wholeMonthsBetween start finish
  let hasPartDays := start.addMonthsClamped months < finish
  let wholeQuarters := months / 3
  let leftoverMonths := months % 3
  max 1 (if leftoverMonths ≠ 0 ∨ hasPartDays then wholeQuarters + 1 else wholeQuarters)

/-- Whichever is higher, compared on the total. -/
def higher (a b : Heads) : Heads × Basis :=
  if b.totalPaise ≤ a.totalPaise then (a, .reducedCredit) else (b, .transactionValue)

/-- The tax inside an amount that includes it. The odd paisa goes to SGST. -/
def splitInclusiveTax (grossPaise rateBps : ℤ) (isInterstate : Bool) : Heads :=
  let tax := grossPaise - grossPaise * 10000 / (10000 + rateBps)
  if isInterstate then Heads.of tax 0 0 else Heads.of 0 (tax / 2) (tax - tax / 2)

/-- What is asked about one disposal. An answer nobody gave is a state of its own. -/
structure Disposal where
  creditTaken : Heads
  itcWasTaken : Option Bool
  invoiceDate : Option Day
  disposalDate : Option Day
  proceedsPaise : ℤ
  rateBps : Option ℤ
  isInterstate : Bool
  isSupply : Option Bool

def provisoCaveat : String :=
  "The proviso to s.18(6) lets refractory bricks, moulds and dies, jigs and fixtures supplied AS " ++
    "SCRAP pay tax on the transaction value alone. It is the taxable person's option and this " ++
    "register does not record the asset class, so it is not applied here."

def twoRulesCaveat : String :=
  "Rule 40(2) reduces the credit by five percentage points a quarter or part quarter; Rule 44(6), " ++
    "through Rule 44(1)(b), pro-rates it over the remaining useful life in months out of sixty. Both " ++
    "readings are shown because they give different figures and neither could be read against the " ++
    "Rules from this environment."

def notASupplyCaveat : String :=
  "Recorded as not a supply, so no output tax is charged and s.18(6) is not reached. s.18(6) still " ++
    "applies to a supply of capital goods on which credit was taken — if this disposal turns out to " ++
    "be one, re-record it."

def noCreditTakenCaveat : String :=
  "No input tax credit was taken on this asset (CGST §17(5) blocked it and the tax was capitalised), " ++
    "so s.18(6) does not reach the supply — only the tax on the transaction value is payable."

def noTaxRecordedCaveat : String :=
  "No input tax is recorded against this asset, so there is no credit for s.18(6) to reduce — only " ++
    "the tax on the transaction value is payable."

def headMismatchCaveat (took sells : String) : String :=
  "The credit was taken as " ++ took ++ " and the sale is charged as " ++ sells ++ ". s.18(6) does " ++
    "not say which head the reduced-credit limb is paid in when they differ, so the working shows it " ++
    "in the head the credit was taken in — confirm the head before paying."

def supplyGap : String :=
  "Nobody has said whether this disposal is a SUPPLY. A sale for consideration is; a scrapping for " ++
    "nothing, or a transfer whose treatment turns on Schedule I, may not be — and no ledger holds the " ++
    "facts that decide it."

def rateGap : String :=
  "No GST rate is recorded for this disposal, so the tax on the transaction value cannot be computed " ++
    "and the s.18(6) comparison has only one side."

def rateNotHeldGap (rate : ℤ) : String :=
  "GST rate " ++ toString rate ++ " bps is not a rate this engine holds."

def itcGap : String :=
  "The asset does not record whether input tax credit was taken on it (a pre-343 row), so the " ++
    "reduced-credit limb of s.18(6) cannot be worked out. It is not assumed to be nil: that would drop " ++
    "the limb that can be the higher one."

def dateGap : String :=
  "The reduced-credit limb runs from the acquisition invoice date to the disposal date, and one of " ++
    "them is missing."

/-- The rate that is read: none where none is recorded, or where the one recorded is not held. -/
def Disposal.rate (d : Disposal) : Option ℤ := d.rateBps.filter (· ∈ allowedRatesBps)

def Disposal.rateGaps (d : Disposal) : List String :=
  match d.rateBps with
  | none => [rateGap]
  | some rate => if rate ∈ allowedRatesBps then [] else [rateNotHeldGap rate]

def Disposal.taxOnValue (d : Disposal) : Heads :=
  match d.rate with
  | none => fun _ => 0
  | some rate =>
    if 0 < d.proceedsPaise ∧ 0 < rate then splitInclusiveTax d.proceedsPaise rate d.isInterstate
    else fun _ => 0

/-- The invoice and disposal dates where the credit can be reduced between them. -/
def Disposal.reducible (d : Disposal) : Option (Day × Day) :=
  if d.itcWasTaken = some true ∧ 0 < d.creditTaken.totalPaise then
    match d.invoiceDate, d.disposalDate with
    | some invoice, some disposal => some (invoice, disposal)
    | _, _ => none
  else none

/-- What is missing for the reduced credit, as gaps and as caveats. -/
def Disposal.creditRemarks (d : Disposal) : List String × List String :=
  match d.itcWasTaken with
  | none => ([itcGap], [])
  | some false => ([], [noCreditTakenCaveat])
  | some true =>
    if d.creditTaken.totalPaise ≤ 0 then ([], [noTaxRecordedCaveat])
    else if d.invoiceDate = none ∨ d.disposalDate = none then ([dateGap], [])
    else ([], [])

def headName (isIgst : Bool) : String := if isIgst then "IGST" else "CGST + SGST"

def Disposal.headCaveats (d : Disposal) : List String :=
  let tookIgst : Bool := 0 < d.creditTaken .igst ∧ d.creditTaken .cgst = 0 ∧ d.creditTaken .sgst = 0
  if 0 < d.creditTaken.totalPaise ∧ d.rate.getD 0 ≠ 0 ∧ tookIgst ≠ d.isInterstate then
    [headMismatchCaveat (headName tookIgst) (headName d.isInterstate)]
  else []

/-- Rule 40(2): five points off for each quarter or part of one. -/
def quarterLimb (credit taxOnValue : Heads) (invoice disposal : Day) : Limb :=
  let quarters := quartersOrPart invoice disposal
  let leftPct := max 0 (100 - pointsPerQuarter * quarters)
  let reduced := scaledUp credit leftPct 100
  { reading := .byQuarters
    elapsed := quarters
    remainingFraction := toString leftPct ++ "% of the credit taken (" ++ toString quarters ++
      " quarter" ++ (if quarters = 1 then "" else "s") ++ " at 5 points)"
    reducedCredit := reduced
    amountPayable := (higher reduced taxOnValue).1
    basis := (higher reduced taxOnValue).2 }

/-- Rule 44(6): the months that remain of sixty. -/
def monthLimb (credit taxOnValue : Heads) (invoice disposal : Day) : Limb :=
  let months := wholeMonthsBetween invoice disposal
  let remaining := max 0 (usefulLifeMonths - months)
  let reduced := scaledUp credit remaining usefulLifeMonths
  { reading := .byMonths
    elapsed := months
    remainingFraction := toString remaining ++ " of 60 months of useful life remaining"
    reducedCredit := reduced
    amountPayable := (higher reduced taxOnValue).1
    basis := (higher reduced taxOnValue).2 }

def valueLimb (taxOnValue : Heads) : Limb :=
  { reading := .transactionValueOnly
    elapsed := 0
    remainingFraction := "s.18(6) not reached — tax on the transaction value under s.15"
    reducedCredit := fun _ => 0
    amountPayable := taxOnValue
    basis := .transactionValue }

def Disposal.readings (d : Disposal) : List Limb :=
  match d.reducible with
  | some (invoice, disposal) =>
    [quarterLimb d.creditTaken d.taxOnValue invoice disposal,
      monthLimb d.creditTaken d.taxOnValue invoice disposal]
  | none => if d.taxOnValue.totalPaise ≠ 0 ∨ d.rate.isSome then [valueLimb d.taxOnValue] else []

/-- The working for one disposal. -/
def compute (d : Disposal) : Section186Result :=
  if d.isSupply = some false then
    { applies := false, creditTaken := d.creditTaken, taxOnTransactionValue := fun _ => 0
      readings := [], caveats := [notASupplyCaveat], gaps := [] }
  else
    { applies := !d.readings.isEmpty
      creditTaken := d.creditTaken
      taxOnTransactionValue := d.taxOnValue
      readings := d.readings
      caveats := [provisoCaveat] ++ d.creditRemarks.2 ++ d.headCaveats ++
        (if d.reducible.isSome then [twoRulesCaveat] else [])
      gaps := (if d.isSupply = none then [supplyGap] else []) ++ d.rateGaps ++ d.creditRemarks.1 }

/-- Complete months only grow with the day counted to. -/
theorem whole_months_mono (start : Day) {a b : Day} (h : a ≤ b) :
    wholeMonthsBetween start a ≤ wholeMonthsBetween start b := by
  have := a.day_lt
  have := b.day_lt
  have := a.monthLe
  have := b.monthLe
  have := a.dayPos
  have := b.dayPos
  have := a.monthPos
  have := b.monthPos
  rw [le_iff] at h
  unfold Day.number at h
  unfold wholeMonthsBetween
  apply Int.toNat_le_toNat
  split_ifs <;> omega

/-- Months begun: the whole ones, and one more for days left over. -/
def begunMonths (start finish : Day) : ℕ :=
  wholeMonthsBetween start finish +
    if start.addMonthsClamped (wholeMonthsBetween start finish) < finish then 1 else 0

theorem quarters_eq (start finish : Day) :
    quartersOrPart start finish = max 1 ((begunMonths start finish + 2) / 3) := by
  unfold quartersOrPart begunMonths
  dsimp only
  by_cases hpart : start.addMonthsClamped (wholeMonthsBetween start finish) < finish
  · simp only [hpart, or_true, ↓reduceIte]
    omega
  · simp only [hpart, or_false, ↓reduceIte]
    split_ifs <;> omega

/-- Within one whole month the anniversary stands still, so the days left over only grow. -/
theorem begun_mono (start : Day) {a b : Day} (h : a ≤ b) : begunMonths start a ≤ begunMonths start b := by
  unfold begunMonths
  rcases (whole_months_mono start h).lt_or_eq with hlt | heq
  · split_ifs <;> omega
  · rw [heq]
    by_cases hpart : start.addMonthsClamped (wholeMonthsBetween start b) < a
    · rw [if_pos hpart, if_pos (hpart.trans_le h)]
    · rw [if_neg hpart]
      omega

theorem quarters_mono (start : Day) {a b : Day} (h : a ≤ b) :
    quartersOrPart start a ≤ quartersOrPart start b := by
  have hbegun := begun_mono start h
  rw [quarters_eq, quarters_eq]
  omega

/-- Three months are never more than the quarters they begin. -/
theorem months_le_quarters (start finish : Day) :
    wholeMonthsBetween start finish ≤ 3 * quartersOrPart start finish := by
  rw [quarters_eq]
  unfold begunMonths
  split_ifs <;> omega

theorem scaled_mono {t : Heads} (ht : ∀ h, 0 ≤ t h) (hd : 0 < d) (hmn : m ≤ n) (h : CreditHead) :
    scaledUp t m d h ≤ scaledUp t n d h := by
  unfold scaledUp
  rw [if_neg (not_le.mpr hd), if_neg (not_le.mpr hd)]
  exact ceil_div_mono hd (mul_le_mul_of_nonneg_left (max_le_max_left 0 hmn) (ht h))

theorem scaled_bounds {t : Heads} (ht : ∀ h, 0 ≤ t h) (hd : 0 < d) (hn : n ≤ d) (h : CreditHead) :
    0 ≤ scaledUp t n d h ∧ scaledUp t n d h ≤ t h := by
  unfold scaledUp
  rw [if_neg (not_le.mpr hd)]
  constructor
  · exact ceil_div_nonneg hd (mul_nonneg (ht h) (le_max_left 0 n))
  · exact (ceil_div_le_iff hd).mpr (mul_le_mul_of_nonneg_left (max_le hd.le hn) (ht h))

theorem quarter_reduced (t taxOnValue : Heads) (invoice disposal : Day) :
    (quarterLimb t taxOnValue invoice disposal).reducedCredit =
      scaledUp t (max 0 (100 - pointsPerQuarter * quartersOrPart invoice disposal)) 100 := rfl

theorem month_reduced (t taxOnValue : Heads) (invoice disposal : Day) :
    (monthLimb t taxOnValue invoice disposal).reducedCredit =
      scaledUp t (max 0 (usefulLifeMonths - wholeMonthsBetween invoice disposal))
        usefulLifeMonths := rfl

/-- Five points a quarter leave no more than the months that remain do. -/
theorem quarter_below_month (t taxOnValue : Heads) (ht : ∀ h, 0 ≤ t h) (invoice disposal : Day)
    (h : CreditHead) :
    (quarterLimb t taxOnValue invoice disposal).reducedCredit h ≤
      (monthLimb t taxOnValue invoice disposal).reducedCredit h := by
  have hmonths := months_le_quarters invoice disposal
  rw [quarter_reduced, month_reduced]
  simp only [scaledUp, pointsPerQuarter, usefulLifeMonths]
  apply ceil_div_le_ceil_div (by decide) (by decide)
  rw [mul_assoc, mul_assoc]
  apply mul_le_mul_of_nonneg_left _ (ht h)
  omega

theorem higher_total (a b : Heads) :
    (higher a b).1.totalPaise = max a.totalPaise b.totalPaise := by
  unfold higher
  split_ifs with h
  · rw [max_eq_left h]
  · rw [max_eq_right (not_le.mp h).le]

theorem tax_on_value_nonneg (d : Disposal) : 0 ≤ d.taxOnValue.totalPaise := by
  unfold Disposal.taxOnValue
  split
  · exact le_rfl
  · split_ifs with hpos
    · rename_i rate _
      have hinside : d.proceedsPaise * 10000 / (10000 + rate) ≤ d.proceedsPaise := by
        apply Int.ediv_le_of_le_mul (by omega)
        exact mul_le_mul_of_nonneg_left (by omega) hpos.1.le
      unfold splitInclusiveTax Heads.totalPaise
      cases d.isInterstate <;> simp only [Heads.of, Bool.false_eq_true, ↓reduceIte] <;> omega
    · exact le_rfl

theorem reducible_dates {d : Disposal} (h : d.reducible = some (invoice, disposal)) :
    d.invoiceDate = some invoice ∧ d.disposalDate = some disposal := by
  unfold Disposal.reducible at h
  split_ifs at h
  split at h
  · rename_i hinvoice hdisposal
    cases h
    exact ⟨hinvoice, hdisposal⟩
  · cases h

/-- A reading is one of the two rules between the dates, or the value's own tax alone. -/
theorem reading_cases {d : Disposal} (h : l ∈ (compute d).readings) :
    (compute d).taxOnTransactionValue = d.taxOnValue ∧
    ((∃ invoice disposal, d.invoiceDate = some invoice ∧ d.disposalDate = some disposal ∧
        (l = quarterLimb d.creditTaken d.taxOnValue invoice disposal ∨
          l = monthLimb d.creditTaken d.taxOnValue invoice disposal)) ∨
      l = valueLimb d.taxOnValue) := by
  by_cases hsupply : d.isSupply = some false
  · rw [compute, if_pos hsupply] at h
    cases h
  · rw [compute, if_neg hsupply] at h ⊢
    refine ⟨rfl, ?_⟩
    change l ∈ d.readings at h
    unfold Disposal.readings at h
    split at h
    · rename_i invoice disposal hdates
      obtain ⟨hinvoice, hdisposal⟩ := reducible_dates hdates
      simp only [List.mem_cons, List.not_mem_nil, or_false] at h
      exact .inl ⟨invoice, disposal, hinvoice, hdisposal, h⟩
    · split_ifs at h
      · exact .inr (List.mem_singleton.mp h)
      · cases h

theorem reduced_bounds {d : Disposal} (hcredit : ∀ h, 0 ≤ d.creditTaken h)
    (hl : l ∈ (compute d).readings) (h : CreditHead) :
    0 ≤ l.reducedCredit h ∧ l.reducedCredit h ≤ d.creditTaken h := by
  obtain ⟨-, ⟨invoice, disposal, -, -, rfl | rfl⟩ | rfl⟩ := reading_cases hl
  · rw [quarter_reduced]
    refine scaled_bounds hcredit (by decide) (max_le (by decide) ?_) h
    unfold pointsPerQuarter
    omega
  · rw [month_reduced]
    exact scaled_bounds hcredit (by decide) (max_le (by decide) (by omega)) h
  · exact ⟨le_rfl, hcredit h⟩

theorem payable_total {d : Disposal} (hl : l ∈ (compute d).readings) :
    l.amountPayable.totalPaise =
      max l.reducedCredit.totalPaise (compute d).taxOnTransactionValue.totalPaise := by
  obtain ⟨htax, hcases⟩ := reading_cases hl
  rw [htax]
  rcases hcases with ⟨invoice, disposal, -, -, rfl | rfl⟩ | rfl
  · exact higher_total _ _
  · exact higher_total _ _
  · exact (max_eq_right (tax_on_value_nonneg d)).symm

/-- Under either reading a later disposal leaves less of the credit. -/
theorem reduced_anti {a b : Disposal} (hsame : a.creditTaken = b.creditTaken)
    (hcredit : ∀ h, 0 ≤ a.creditTaken h) (hinvoice : a.invoiceDate = b.invoiceDate)
    (hlater : ∀ d₁ d₂, a.disposalDate = some d₁ → b.disposalDate = some d₂ → d₁ ≤ d₂)
    (hl : l ∈ (compute a).readings) (hl' : l' ∈ (compute b).readings)
    (hreading : l.reading = l'.reading) (h : CreditHead) :
    l'.reducedCredit h ≤ l.reducedCredit h := by
  obtain ⟨-, ⟨invoice, disposal, hi, hd, rfl | rfl⟩ | rfl⟩ := reading_cases hl <;>
    obtain ⟨-, ⟨invoice', disposal', hi', hd', rfl | rfl⟩ | rfl⟩ := reading_cases hl' <;>
    try cases hreading
  · have hquarters := quarters_mono invoice (hlater _ _ hd hd')
    rw [← hinvoice, hi] at hi'
    cases hi'
    rw [quarter_reduced, quarter_reduced, ← hsame]
    refine scaled_mono hcredit (by decide) (max_le_max_left 0 ?_) h
    unfold pointsPerQuarter
    omega
  · have hmonths := whole_months_mono invoice (hlater _ _ hd hd')
    rw [← hinvoice, hi] at hi'
    cases hi'
    rw [month_reduced, month_reduced, ← hsame]
    exact scaled_mono hcredit (by decide) (max_le_max_left 0 (by omega)) h
  · exact le_rfl

theorem quarter_reading (h : l ∈ (compute d).readings) (hreading : l.reading = .byQuarters) :
    ∃ invoice disposal, d.invoiceDate = some invoice ∧ d.disposalDate = some disposal ∧
      l = quarterLimb d.creditTaken d.taxOnValue invoice disposal := by
  obtain ⟨-, ⟨invoice, disposal, hi, hd, rfl | rfl⟩ | rfl⟩ := reading_cases h
  · exact ⟨invoice, disposal, hi, hd, rfl⟩
  · cases hreading
  · cases hreading

theorem month_reading (h : l ∈ (compute d).readings) (hreading : l.reading = .byMonths) :
    ∃ invoice disposal, d.invoiceDate = some invoice ∧ d.disposalDate = some disposal ∧
      l = monthLimb d.creditTaken d.taxOnValue invoice disposal := by
  obtain ⟨-, ⟨invoice, disposal, hi, hd, rfl | rfl⟩ | rfl⟩ := reading_cases h
  · cases hreading
  · exact ⟨invoice, disposal, hi, hd, rfl⟩
  · cases hreading

/-- A later disposal never leaves more of the credit to pay back, under either reading; the
quarterly reading never leaves more than the monthly one; and each pays the greater of the reduced
credit and the tax on the value. -/
theorem later_disposal_costs_no_more (a b : Disposal) (hsame : a.creditTaken = b.creditTaken)
    (hcredit : ∀ h, 0 ≤ a.creditTaken h) (hinvoice : a.invoiceDate = b.invoiceDate)
    (hlater : ∀ d₁ d₂, a.disposalDate = some d₁ → b.disposalDate = some d₂ → d₁ ≤ d₂) :
    (∀ l ∈ (compute a).readings, ∀ l' ∈ (compute b).readings, l.reading = l'.reading →
      ∀ h, l'.reducedCredit h ≤ l.reducedCredit h) ∧
    (∀ l ∈ (compute a).readings, ∀ h,
      0 ≤ l.reducedCredit h ∧ l.reducedCredit h ≤ a.creditTaken h) ∧
    (∀ q ∈ (compute a).readings, ∀ m ∈ (compute a).readings, q.reading = .byQuarters →
      m.reading = .byMonths → ∀ h, q.reducedCredit h ≤ m.reducedCredit h) ∧
    (∀ l ∈ (compute a).readings, l.amountPayable.totalPaise =
      max l.reducedCredit.totalPaise (compute a).taxOnTransactionValue.totalPaise) ∧
    (a.isSupply ≠ some false → a.itcWasTaken = some true → 0 < a.creditTaken.totalPaise →
      a.invoiceDate ≠ none → a.disposalDate ≠ none →
      (compute a).readings.map (·.reading) = [.byQuarters, .byMonths]) := by
  refine ⟨fun l hl l' hl' hr => reduced_anti hsame hcredit hinvoice hlater hl hl' hr,
    fun l hl => reduced_bounds hcredit hl, ?_, fun l hl => payable_total hl, ?_⟩
  · intro q hq m hm hquarter hmonth h
    obtain ⟨invoice, disposal, hi, hd, rfl⟩ := quarter_reading hq hquarter
    obtain ⟨invoice', disposal', hi', hd', rfl⟩ := month_reading hm hmonth
    rw [hi] at hi'
    rw [hd] at hd'
    cases hi'
    cases hd'
    exact quarter_below_month _ _ hcredit _ _ h
  · intro hsupply hitc htotal hi hd
    obtain ⟨invoice, hi⟩ := Option.ne_none_iff_exists'.mp hi
    obtain ⟨disposal, hd⟩ := Option.ne_none_iff_exists'.mp hd
    have hdates : a.reducible = some (invoice, disposal) := by
      unfold Disposal.reducible
      rw [if_pos ⟨hitc, htotal⟩, hi, hd]
    unfold compute
    rw [if_neg hsupply]
    change a.readings.map (·.reading) = _
    unfold Disposal.readings
    rw [hdates]
    rfl

def pressInvoiced : Day := .of 2024 1 31

/-- A press with credit of Rs 180 under CGST and SGST each, sold some months after its invoice. -/
def pressSold (months : ℕ) : Disposal where
  creditTaken := Heads.of 0 18000 18000
  itcWasTaken := some true
  invoiceDate := some pressInvoiced
  disposalDate := some (pressInvoiced.addMonthsClamped months)
  proceedsPaise := 59000
  rateBps := some 1800
  isInterstate := false
  isSupply := some true

theorem press_costs_no_more_later :
    ∃ l ∈ (compute (pressSold 38)).readings, ∃ l' ∈ (compute (pressSold 39)).readings,
      l.reading = l'.reading ∧ ∀ h, l'.reducedCredit h ≤ l.reducedCredit h :=
  ⟨_, List.mem_cons_self, _, List.mem_cons_self, rfl,
    (later_disposal_costs_no_more (pressSold 38) (pressSold 39) rfl
      (fun h => by cases h <;> decide) rfl
      (fun _ _ h₁ h₂ => by cases h₁; cases h₂; decide)).1 _ List.mem_cons_self _ List.mem_cons_self
      rfl⟩

example : (compute (pressSold 38)).readings.map (fun l => (l.elapsed, l.reducedCredit .cgst)) =
    [(13, 6300), (38, 6600)] := by decide

end Caflow.Gst.Section186
