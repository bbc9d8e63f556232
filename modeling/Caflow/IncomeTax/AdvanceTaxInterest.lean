import Caflow.Failure
import Caflow.Lib.Calendar
import Caflow.Lib.Dict
import Caflow.Lib.SortByKey
import Caflow.Text

set_option linter.all false

namespace Caflow.IncomeTax.AdvanceTax
open Calendar (Day)
open IsoDate (digits)
open Text (rupeeText)

/-- Rounding a quotient, a half away from zero. -/
def roundPaise (numerator denominator : ℤ) : ℤ :=
  if denominator = 0 then 0
  else
    let half := denominator / 2
    if 0 ≤ numerator then (numerator + half) / denominator
    else -((-numerator + half) / denominator)

/-- What an instalment asks for: the share of the year's tax due by its date, the share below which
interest runs, and for how many months. -/
structure InstallmentRule where
  number : ℕ
  cumulativeRequiredPercent : ℤ
  triggerPercent : ℤ
  interestMonths : ℤ

def generalInstallmentRules : List InstallmentRule :=
  [⟨1, 15, 12, 3⟩, ⟨2, 45, 36, 3⟩, ⟨3, 75, 75, 3⟩, ⟨4, 100, 100, 1⟩]

/-- One instalment, under the number of the general schedule's fourth. -/
def presumptiveInstallmentRules : List InstallmentRule := [⟨4, 100, 100, 1⟩]

def interestRatePercentPerMonth : ℤ := 1

def installmentRules (isPresumptive : Bool) : List InstallmentRule :=
  if isPresumptive then presumptiveInstallmentRules else generalInstallmentRules

/-- A financial year by its label and the year it starts in. -/
structure FinancialYear where
  label : String
  startYear : ℕ

def FinancialYear.start (fy : FinancialYear) : Day := .of fy.startYear 4 1

def FinancialYear.finish (fy : FinancialYear) : Day := .of (fy.startYear + 1) 3 31

def installmentSchedule (fy : FinancialYear) (isPresumptive : Bool) : List (ℕ × Day) :=
  if isPresumptive then [(4, .of (fy.startYear + 1) 3 15)]
  else
    [(1, .of fy.startYear 6 15), (2, .of fy.startYear 9 15), (3, .of fy.startYear 12 15),
      (4, .of (fy.startYear + 1) 3 15)]

/-- A recorded payment. One without a date is not paid yet. -/
structure InstallmentPayment where
  installmentNumber : ℕ
  paidAmountPaise : ℤ
  paidDate : Option Day

def unforeseenKinds : List String := ["capital_gain", "winnings", "dividend"]

def dividendCaveat : String :=
  "The dividend limb of the proviso reaches dividend income and not a deemed dividend under " ++
    "§2(22)(e); nothing recorded here can tell the two apart, so confirm the dividend is a real one."

def provisoCaveat : String :=
  "§234C(1)'s proviso is applied as written: each instalment is measured against the tax due on the " ++
    "returned income LESS the tax on income that arose AFTER that instalment's date, and only where " ++
    "the tax on that income is then paid in the instalments that remain — or, where none remains, " ++
    "by 31 March. Payments are taken against each such income in the order it arose, from the day " ++
    "it arose. The figures behind it ([S]-graded) were not read against the Act in this environment."

def cappedCaveat : String :=
  "The tax on the income handed to the proviso exceeds the estimated tax it is part of, so what each " ++
    "instalment excluded was capped at the estimate. Check the two figures against each other."

/-- An income that could not have been estimated when an instalment fell due, and the tax it adds. -/
structure UnforeseenIncome where
  kind : String
  aroseOn : Day
  taxPaise : ℤ
  description : String

/-- What the proviso did with one income. -/
structure UnforeseenLine where
  kind : String
  aroseOn : Day
  taxPaise : ℤ
  description : String
  relief : Bool
  settleBy : Day
  paidTowardPaise : ℤ
  reason : String

structure InstallmentInterestResult where
  installmentNumber : ℕ
  dueDate : Day
  cumulativeRequiredPercent : ℤ
  triggerPercent : ℤ
  requiredCumulativePaise : ℤ
  actualCumulativePaidPaise : ℤ
  isShort : Bool
  shortfallPaise : ℤ
  interestMonths : ℤ
  interestPaise : ℤ
  unforeseenExcludedPaise : ℤ
  basePaise : ℤ

structure AdvanceTaxInterestResult where
  installments : List InstallmentInterestResult
  totalInterestPaise : ℤ
  isPresumptive : Bool
  basis : String
  unforeseenLines : List UnforeseenLine
  caveats : List String

def generalBasis : String :=
  "IT Act §208 — four instalments (15%/45%/75%/100%), with §234C(1)(a)'s 12%/36% tolerance on the " ++
    "first two and a fixed 3/3/3/1-month interest period."

def presumptiveBasis : String :=
  "IT Act §211(1) proviso — a §44AD/§44ADA assessee pays the whole advance tax by 15 March, so there " ++
    "is one instalment. §234C(1)(b) charges 1% on the shortfall from 100%, for one month, with no " ++
    "tolerance."

def basisOf (isPresumptive : Bool) : String :=
  if isPresumptive then presumptiveBasis else generalBasis

def dayText (d : Day) : String :=
  String.ofList (digits 4 d.year ++ '-' :: (digits 2 d.month ++ '-' :: digits 2 d.day))

/-! ### The proviso -/

/-- A payment of the pool, with what of it no income has been counted against. -/
structure Paid where
  paidOn : Day
  amount : ℤ

def dated (p : InstallmentPayment) : Option Paid :=
  p.paidDate.bind fun paidOn => if 0 < p.paidAmountPaise then some ⟨paidOn, p.paidAmountPaise⟩ else none

def poolOf (payments : List InstallmentPayment) : List Paid :=
  (payments.filterMap dated).insertionSort fun a b => a.paidOn ≤ b.paidOn

def refuse (fy : FinancialYear) (item : UnforeseenIncome) : Except Failure Unit :=
  if item.kind ∉ unforeseenKinds then
    .error (.valueError ("'" ++ item.kind ++ "' is not an income §234C(1)'s proviso reaches. It " ++
      "names capital gains, winnings under §2(24)(ix) and dividend income: " ++
      ", ".intercalate unforeseenKinds ++ "."))
  else if item.aroseOn < fy.start ∨ fy.finish < item.aroseOn then
    .error (.valueError ("An income that arose on " ++ dayText item.aroseOn ++
      " is not income of FY " ++ fy.label ++ " (" ++ dayText fy.start ++ " to " ++
      dayText fy.finish ++ "), so the proviso has nothing to say about it."))
  else if item.taxPaise < 0 then
    .error (.valueError "The tax on an unforeseen income is integer paise, and not negative.")
  else .ok ()

/-- What the pool has toward a tax from one day to another, and the pool with that taken. -/
def draw (aroseOn settleBy : Day) (needed : ℤ) : ℤ → List Paid → ℤ × List Paid
  | got, [] => (got, [])
  | got, p :: pool =>
    if p.amount ≤ 0 ∨ p.paidOn < aroseOn ∨ settleBy < p.paidOn then
      let rest := draw aroseOn settleBy needed got pool
      (rest.1, p :: rest.2)
    else
      let take := min p.amount (needed - got)
      if take ≤ 0 then (got, p :: pool)
      else if needed ≤ got + take then (got + take, { p with amount := p.amount - take } :: pool)
      else
        let rest := draw aroseOn settleBy needed (got + take) pool
        (rest.1, { p with amount := p.amount - take } :: rest.2)

/-- The first and the last of the due dates. -/
def firstDue (fy : FinancialYear) (due : List Day) : Day := due.min?.getD fy.finish

def lastDue (fy : FinancialYear) (due : List Day) : Day := due.max?.getD fy.finish

/-- Where an instalment remains the last of them, and else the end of the year. -/
def settleBy (fy : FinancialYear) (due : List Day) (aroseOn : Day) : Day :=
  if due.any (aroseOn ≤ ·) then lastDue fy due else fy.finish

/-- What the proviso makes of one income, and what it leaves of the pool. -/
def relieve (fy : FinancialYear) (due : List Day) (pool : List Paid) (item : UnforeseenIncome) :
    UnforeseenLine × List Paid :=
  let settle := settleBy fy due item.aroseOn
  let drawn := draw item.aroseOn settle item.taxPaise 0 pool
  let line (relief : Bool) (reason : String) : UnforeseenLine :=
    { kind := item.kind
      aroseOn := item.aroseOn
      taxPaise := item.taxPaise
      description := item.description
      relief := relief
      settleBy := settle
      paidTowardPaise := drawn.1
      reason := reason }
  if item.aroseOn ≤ firstDue fy due then
    (line false ("It arose on or before the first instalment date (" ++ dayText (firstDue fy due) ++
      "), so it was foreseeable at every instalment and the proviso has nothing to excuse."), pool)
  else if item.taxPaise = 0 then
    (line false "No tax was supplied for it, so there is nothing to leave out.", pool)
  else if item.taxPaise ≤ drawn.1 then
    (line true ("Its tax was paid in full between " ++ dayText item.aroseOn ++ " and " ++
      dayText settle ++ ", so the shortfall it caused at every earlier instalment is excused."), drawn.2)
  else
    let place :=
      if due.any (item.aroseOn ≤ ·) then "the instalments that remain"
      else "31 March, there being no instalment left"
    (line false ("Only " ++ rupeeText drawn.1 ++ " of the " ++ rupeeText item.taxPaise ++
      " of tax on it was paid in " ++ place ++ " (by " ++ dayText settle ++
      "), so the proviso's condition is not met and it is treated as foreseeable at every " ++
      "instalment."), pool)

/-- Each income draws on what those before it left. -/
def relieveAll (fy : FinancialYear) (due : List Day) : List Paid → List UnforeseenIncome →
    List UnforeseenLine
  | _, [] => []
  | pool, item :: items =>
    let r := relieve fy due pool item
    r.1 :: relieveAll fy due r.2 items

/-- In the order they arose, and by kind where they arose together. -/
def inOrder (items : List UnforeseenIncome) : List UnforeseenIncome :=
  items.insertionSort fun a b => toLex (a.aroseOn, a.kind) ≤ toLex (b.aroseOn, b.kind)

def applyProviso (fy : FinancialYear) (due : List Day) (payments : List InstallmentPayment)
    (items : List UnforeseenIncome) : Except Failure (List UnforeseenLine × List String) :=
  if items = [] then .ok ([], [])
  else do
    items.forM (refuse fy)
    pure (relieveAll fy due (poolOf payments) (inOrder items),
      provisoCaveat :: if items.any (·.kind = "dividend") then [dividendCaveat] else [])

/-! ### The interest -/

/-- What had been paid by a day. -/
def paidBy (payments : List InstallmentPayment) (day : Day) : ℤ :=
  ((payments.filter fun p => p.paidDate.any (· ≤ day)).map (·.paidAmountPaise)).sum

/-- The tax of the relieved incomes that arose after a day. -/
def relievedAfter (lines : List UnforeseenLine) (day : Day) : ℤ :=
  ((lines.filter fun line => line.relief && day < line.aroseOn).map (·.taxPaise)).sum

def installmentInterest (estimatedTaxPaise : ℤ) (payments : List InstallmentPayment)
    (lines : List UnforeseenLine) (rule : InstallmentRule) (dueDate : Day) :
    InstallmentInterestResult :=
  let actualCumulative := paidBy payments dueDate
  let excluded := min estimatedTaxPaise (relievedAfter lines dueDate)
  let base := estimatedTaxPaise - excluded
  let requiredCumulative := roundPaise (base * rule.cumulativeRequiredPercent) 100
  let isShort := actualCumulative < roundPaise (base * rule.triggerPercent) 100
  let shortfall := if isShort then max 0 (requiredCumulative - actualCumulative) else 0
  { installmentNumber := rule.number
    dueDate := dueDate
    cumulativeRequiredPercent := rule.cumulativeRequiredPercent
    triggerPercent := rule.triggerPercent
    requiredCumulativePaise := requiredCumulative
    actualCumulativePaidPaise := actualCumulative
    isShort := isShort
    shortfallPaise := shortfall
    interestMonths := rule.interestMonths
    interestPaise := roundPaise (shortfall * interestRatePercentPerMonth * rule.interestMonths) 100
    unforeseenExcludedPaise := excluded
    basePaise := base }

/-- The instalments of a year with their dates. -/
def installmentsOf (fy : FinancialYear) (isPresumptive : Bool) : List (InstallmentRule × Day) :=
  (installmentRules isPresumptive).filterMap fun rule =>
    (Dict.get (installmentSchedule fy isPresumptive) rule.number).map (rule, ·)

def compute234cInterest (fy : FinancialYear) (estimatedTaxPaise : ℤ)
    (payments : List InstallmentPayment) (isPresumptive : Bool) (unforeseen : List UnforeseenIncome) :
    Except Failure AdvanceTaxInterestResult :=
  if estimatedTaxPaise ≤ 0 then .ok ⟨[], 0, isPresumptive, basisOf isPresumptive, [], []⟩
  else do
    let due := (installmentSchedule fy isPresumptive).map Prod.snd
    let (lines, caveats) ← applyProviso fy due payments unforeseen
    let installments := (installmentsOf fy isPresumptive).map fun i =>
      installmentInterest estimatedTaxPaise payments lines i.1 i.2
    let relieved := ((lines.filter (·.relief)).map (·.taxPaise)).sum
    pure
      { installments := installments
        totalInterestPaise := (installments.map (·.interestPaise)).sum
        isPresumptive := isPresumptive
        basis := basisOf isPresumptive
        unforeseenLines := lines
        caveats := if estimatedTaxPaise < relieved then caveats ++ [cappedCaveat] else caveats }

end Caflow.IncomeTax.AdvanceTax
