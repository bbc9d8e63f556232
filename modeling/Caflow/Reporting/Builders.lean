import Caflow.Lib.Tally
import Caflow.Reporting.Captions
import Caflow.Reporting.Resolver

set_option linter.all false

namespace Caflow.Reporting
open Accounting (JournalLine)
open IsoDate Tally

/-- Debit less credit. -/
def net (l : JournalLine) : ℤ := l.debitPaise - l.creditPaise

/-- An account of the chart; one that is not there goes by its id and has no type. -/
def Chart.acc (chart : Chart) (id : String) : Account :=
  (chart.get id).getD ⟨id, "", id, "", none, none, none⟩

/-- An account of income or of expense. -/
def Account.isPl (a : Account) : Prop := a.isIncome ∨ a.isExpense

instance (a : Account) : Decidable a.isPl := inferInstanceAs (Decidable (_ ∨ _))

/-- The debit side of an amount. -/
def debitSide (paise : ℤ) : ℤ := if 0 < paise then paise else 0

def creditSide (paise : ℤ) : ℤ := if paise < 0 then -paise else 0

@[simp] theorem sides (paise : ℤ) : debitSide paise - creditSide paise = paise := by
  unfold debitSide creditSide
  split_ifs <;> omega

/-- The columns that only the trial balance of a period has. -/
structure PeriodColumns where
  openingDebitPaise : ℤ
  openingCreditPaise : ℤ
  periodDebitPaise : ℤ
  periodCreditPaise : ℤ

structure TrialBalanceRow where
  accountId : String
  accountCode : String
  accountName : String
  accountType : String
  period : Option PeriodColumns
  netPaise : ℤ
  totalDebitPaise : ℤ
  totalCreditPaise : ℤ

structure TrialBalance where
  asOfDate : Date
  startDate : Option Date
  lines : List TrialBalanceRow
  totalDebitPaise : ℤ
  totalCreditPaise : ℤ
  isBalanced : Bool
  differencePaise : ℤ
  cash : Bool

/-- An account's row, its closing balance on the side it falls on. -/
def Chart.trialRow (chart : Chart) (id : String) (period : Option PeriodColumns) (net : ℤ) :
    TrialBalanceRow :=
  let a := chart.acc id
  ⟨id, a.code, a.name, a.type, period, net, debitSide net, creditSide net⟩

/-- The row of an account since inception; none where it closes at nothing. -/
def Chart.cumulativeRow (chart : Chart) (total : String × ℤ × ℤ) : Option TrialBalanceRow :=
  let net := total.2.1 - total.2.2
  if net = 0 then none else some (chart.trialRow total.1 none net)

/-- The row of an account over a period. The prior movement of income and expense is in the surplus
brought forward. -/
def Chart.periodRow (chart : Chart) (openingNet : List (String × ℤ)) (total : String × ℤ × ℤ) :
    Option TrialBalanceRow :=
  let opening :=
    if (chart.acc total.1).isPl then 0 else (openingNet.lookup total.1).getD 0
  let net := opening + (total.2.1 - total.2.2)
  if net = 0 ∧ total.2.1 = 0 ∧ total.2.2 = 0 then none
  else some (chart.trialRow total.1
    (some ⟨debitSide opening, creditSide opening, total.2.1, total.2.2⟩) net)

/-- The earlier years' result, which no entry closes into equity. -/
def surplusRow (bf : ℤ) : TrialBalanceRow :=
  ⟨"__surplus_bf__", "", "Surplus brought forward", "Equity",
    some ⟨debitSide bf, creditSide bf, 0, 0⟩, bf, debitSide bf, creditSide bf⟩

def postedSides (lines : List ProjectedLine) : List (String × ℤ × ℤ) :=
  lines.map fun l => (l.account, l.debitPaise, l.creditPaise)

namespace Chart

variable (chart : Chart)

def cumulativeRows (lines : List ProjectedLine) : List TrialBalanceRow :=
  (grouped (postedSides lines)).filterMap chart.cumulativeRow

def openingNet (openingLines : List ProjectedLine) : List (String × ℤ) :=
  grouped (openingLines.map fun l => (l.account, net l))

/-- What income and expense came to before the period, a credit where it was a profit. -/
def broughtForward (openingLines : List ProjectedLine) : ℤ :=
  (((openingNet openingLines).filter fun t => (chart.acc t.1).isPl).map Prod.snd).sum

def periodRows (lines openingLines : List ProjectedLine) : List TrialBalanceRow :=
  -- an account that only moved before the period has a row too
  let totals := grouped (postedSides lines ++ openingLines.map fun l => (l.account, 0, 0))
  let bf := chart.broughtForward openingLines
  totals.filterMap (chart.periodRow (openingNet openingLines)) ++
    if bf ≠ 0 then [surplusRow bf] else []

end Chart

/-- The trial balance as at a date, or with a start and the lines before it that of a period. -/
def trialBalance (chart : Chart) (lines : List ProjectedLine) (asOfDate : Date) (cash : Bool)
    (period : Option (Date × List ProjectedLine)) : TrialBalance :=
  let rows :=
    match period with
    | none => chart.cumulativeRows lines
    | some (_, openingLines) => chart.periodRows lines openingLines
  let grandDr := (rows.map TrialBalanceRow.totalDebitPaise).sum
  let grandCr := (rows.map TrialBalanceRow.totalCreditPaise).sum
  ⟨asOfDate, period.map Prod.fst, rows.insertionSort fun r r' => r.accountCode ≤ r'.accountCode,
    grandDr, grandCr, grandDr - grandCr = 0, grandDr - grandCr, cash⟩

/-- A row of the Profit & Loss account or of the Balance Sheet. -/
structure StatementLine where
  accountId : String
  accountName : String
  accountCode : String
  accountType : String
  accountSubtype : Option String
  scheduleIIIMapping : Option String
  scheduleIIICaption : Option Caption
  scheduleIIIBasis : Basis
  paise : ℤ

structure Section where
  label : String
  lines : List StatementLine
  totalPaise : ℤ

def Chart.statementLine (chart : Chart) (id : String) (paise : ℤ) : StatementLine :=
  let a := chart.acc id
  ⟨id, a.name, a.code, a.type, a.subtype, a.scheduleIIIMapping, (captionOf a).1, (captionOf a).2,
    paise⟩

def byName (lines : List StatementLine) : List StatementLine :=
  lines.insertionSort fun l l' => l.accountName ≤ l'.accountName

structure ProfitLoss where
  startDate : Date
  endDate : Date
  revenue : Section
  costOfSales : Section
  grossProfitPaise : ℤ
  operatingExpenses : Section
  netProfitPaise : ℤ
  cash : Bool

namespace Chart

variable (chart : Chart)

/-- What an account is counted as in the Profit & Loss account. -/
inductive PlGroup where
  | revenue | costOfSales | operatingExpenses
  deriving DecidableEq

def plGroup (id : String) : Option PlGroup :=
  if (chart.acc id).isIncome then some .revenue
  else if chart.isCogs id then some .costOfSales
  else if (chart.acc id).isExpense then some .operatingExpenses
  else none

/-- The running totals of one group: income counts its credits, the others their debits. -/
def plTotals (group : PlGroup) (lines : List ProjectedLine) : List (String × ℤ) :=
  grouped ((lines.filter fun l => chart.plGroup l.account = some group).map fun l =>
    (l.account, if group = .revenue then l.creditPaise - l.debitPaise else net l))

def plSection (label : String) (totals : List (String × ℤ)) : Section :=
  ⟨label, byName ((totals.filter (·.2 ≠ 0)).map fun t => chart.statementLine t.1 t.2),
    (totals.map Prod.snd).sum⟩

end Chart

def profitLoss (chart : Chart) (lines : List ProjectedLine) (startDate endDate : Date)
    (cash : Bool) : ProfitLoss :=
  let revenue := chart.plSection "Revenue" (chart.plTotals .revenue lines)
  let costOfSales := chart.plSection "Cost of Sales" (chart.plTotals .costOfSales lines)
  let opex := chart.plSection "Operating Expenses" (chart.plTotals .operatingExpenses lines)
  let grossProfit := revenue.totalPaise - costOfSales.totalPaise
  ⟨startDate, endDate, revenue, costOfSales, grossProfit, opex, grossProfit - opex.totalPaise, cash⟩

structure BalanceSheet where
  asOfDate : Date
  assets : Section
  liabilities : Section
  equity : Section
  totalAssetsPaise : ℤ
  totalLiabilitiesEquityPaise : ℤ
  isBalanced : Bool
  cash : Bool

namespace Chart

variable (chart : Chart)

/-- The accounts of a type with a balance, assets by their debits and the others by their credits. -/
def linesFor (balances : List (String × ℤ)) (type : String) : List StatementLine :=
  byName (balances.filterMap fun t =>
    let a := chart.acc t.1
    let bal := if a.type = "Asset" then t.2 else -t.2
    if a.type = type ∧ bal ≠ 0 then some (chart.statementLine t.1 bal) else none)

end Chart

/-- The profit since inception, which no entry has closed. -/
def retainedLine (netProfit : ℤ) : StatementLine :=
  ⟨"__retained__", "Retained Earnings / Net Profit", "", "Equity", some "Reserves & Surplus", none,
    some .reservesSurplus, .mapping, netProfit⟩

def sect (label : String) (rows : List StatementLine) : Section :=
  ⟨label, rows, (rows.map StatementLine.paise).sum⟩

def balanceSheet (chart : Chart) (lines : List ProjectedLine) (asOfDate : Date) (cash : Bool) :
    BalanceSheet :=
  let balances := grouped (lines.map fun l => (l.account, net l))
  let assets := sect "Assets" (chart.linesFor balances "Asset")
  let liabilities := sect "Liabilities" (chart.linesFor balances "Liability")
  let incomeNet := ((balances.filter fun t => (chart.acc t.1).isIncome).map fun t => -t.2).sum
  let expenseNet := ((balances.filter fun t => (chart.acc t.1).isExpense).map Prod.snd).sum
  let netProfit := incomeNet - expenseNet
  let equity := sect "Equity" (chart.linesFor balances "Equity" ++
    if netProfit ≠ 0 then [retainedLine netProfit] else [])
  let totalLe := liabilities.totalPaise + equity.totalPaise
  ⟨asOfDate, assets, liabilities, equity, assets.totalPaise, totalLe,
    assets.totalPaise - totalLe = 0, cash⟩

structure LedgerRow where
  entryId : String
  entryDate : Date
  referenceNo : Option String
  narration : Option String
  debitPaise : ℤ
  creditPaise : ℤ
  runningBalancePaise : ℤ
  isDebit : Bool
  sourceType : Option String
  sourceId : Option String

structure GeneralLedger where
  accountId : String
  accountCode : String
  accountName : String
  accountType : String
  startDate : Option Date
  endDate : Option Date
  openingBalancePaise : ℤ
  openingIsDebit : Bool
  closingBalancePaise : ℤ
  closingIsDebit : Bool
  totalDebitPaise : ℤ
  totalCreditPaise : ℤ
  lines : List LedgerRow

/-- The order of the rows: by date, then the moment of recording, then the id. -/
def recordedBefore (e e' : JournalEntry) : Prop :=
  e.entryDate < e'.entryDate ∨ (e.entryDate = e'.entryDate ∧
    (e.createdAt.getD "" < e'.createdAt.getD "" ∨
      (e.createdAt.getD "" = e'.createdAt.getD "" ∧ e.id ≤ e'.id)))

instance (e e' : JournalEntry) : Decidable (recordedBefore e e') :=
  inferInstanceAs (Decidable (_ ∨ _))

/-- The rows of a ledger, each with the balance up to it. -/
def ledgerRows : ℤ → List (JournalEntry × JournalLine) → List LedgerRow
  | _, [] => []
  | running, (e, ln) :: rest =>
    let running := running + net ln
    ⟨e.id, e.entryDate, e.referenceNo, e.narration, ln.debitPaise, ln.creditPaise, running,
      0 ≤ running, e.sourceType, e.sourceId⟩ :: ledgerRows running rest

/-- An account's general ledger between two days, either of which may be open. -/
def ledger (entries : List JournalEntry) (chart : Chart) (accountId : String)
    (start finish : Option Date) : GeneralLedger :=
  let acct := chart.acc accountId
  let hits := (entries.flatMap fun e =>
    (e.lines.filter (·.account = accountId)).map fun ln => (e, ln)).insertionSort
      fun h h' => recordedBefore h.1 h'.1
  let earlier (e : JournalEntry) : Bool := start.any (e.entryDate < ·)
  let later (e : JournalEntry) : Bool := finish.any (· < e.entryDate)
  let opening := ((hits.filter fun h => earlier h.1).map fun h => net h.2).sum
  let inRange := hits.filter fun h => !earlier h.1 && !later h.1
  let rows := ledgerRows opening inRange
  let running := inRange.foldl (fun running h => running + net h.2) opening
  ⟨accountId, acct.code, acct.name, acct.type, start, finish, opening, 0 ≤ opening, running,
    0 ≤ running, (inRange.map fun h => h.2.debitPaise).sum,
    (inRange.map fun h => h.2.creditPaise).sum, rows⟩

end Caflow.Reporting
