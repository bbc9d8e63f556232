import Caflow.Reporting.Model
import Caflow.Text

set_option linter.all false

namespace Caflow.Reporting
open Text

/-- The captions of the Balance Sheet and of the Statement of Profit & Loss. -/
inductive Caption where
  | shareCapital | reservesSurplus | deferredTaxLiability | tradePayables | shortTermBorrowings
  | longTermBorrowings | otherCurrentLiabilities
  | intangibleFixedAssets | tangibleFixedAssets | capitalWorkInProgress | longTermInvestments
  | inventories | tradeReceivables | cashEquivalents | shortTermLoansAdvances | otherCurrentAssets
  | revenueFromOperations | otherIncome
  | costOfMaterialsConsumed | employeeBenefitsExpense | financeCosts | depreciationAmortisation
  | taxExpense | otherExpenses
  deriving DecidableEq

/-- The part of the statements that a caption is read into. -/
inductive Side where
  | equityLiabilities | assets | revenue | expenses
  deriving DecidableEq

namespace Caption

def text : Caption → String
  | shareCapital => "Share Capital"
  | reservesSurplus => "Reserves & Surplus"
  | deferredTaxLiability => "Deferred Tax Liability"
  | tradePayables => "Trade Payables"
  | shortTermBorrowings => "Short-term Borrowings"
  | longTermBorrowings => "Long-term Borrowings"
  | otherCurrentLiabilities => "Other Current Liabilities"
  | intangibleFixedAssets => "Intangible Fixed Assets"
  | tangibleFixedAssets => "Tangible Fixed Assets"
  | capitalWorkInProgress => "Capital Work-in-Progress"
  | longTermInvestments => "Long-term Investments"
  | inventories => "Inventories"
  | tradeReceivables => "Trade Receivables"
  | cashEquivalents => "Cash & Cash Equivalents"
  | shortTermLoansAdvances => "Short-term Loans & Advances"
  | otherCurrentAssets => "Other Current Assets"
  | revenueFromOperations => "Revenue from Operations"
  | otherIncome => "Other Income"
  | costOfMaterialsConsumed => "Cost of Materials Consumed"
  | employeeBenefitsExpense => "Employee Benefits Expense"
  | financeCosts => "Finance Costs"
  | depreciationAmortisation => "Depreciation & Amortisation"
  | taxExpense => "Tax Expense"
  | otherExpenses => "Other Expenses"

def side : Caption → Side
  | shareCapital | reservesSurplus | deferredTaxLiability | tradePayables | shortTermBorrowings
  | longTermBorrowings | otherCurrentLiabilities => .equityLiabilities
  | intangibleFixedAssets | tangibleFixedAssets | capitalWorkInProgress | longTermInvestments
  | inventories | tradeReceivables | cashEquivalents | shortTermLoansAdvances
  | otherCurrentAssets => .assets
  | revenueFromOperations | otherIncome => .revenue
  | costOfMaterialsConsumed | employeeBenefitsExpense | financeCosts | depreciationAmortisation
  | taxExpense | otherExpenses => .expenses

/-- `BALANCE_SHEET_CAPTIONS`. -/
def onBalanceSheet (c : Caption) : Prop := c.side = .equityLiabilities ∨ c.side = .assets

/-- `PROFIT_LOSS_CAPTIONS`. -/
def onProfitLoss (c : Caption) : Prop := c.side = .revenue ∨ c.side = .expenses

instance (c : Caption) : Decidable c.onBalanceSheet := inferInstanceAs (Decidable (_ ∨ _))

instance (c : Caption) : Decidable c.onProfitLoss := inferInstanceAs (Decidable (_ ∨ _))

/-- The "Other" lines that a balance reaches when nothing more specific matched. -/
def residual (c : Caption) : Prop :=
  c = otherCurrentAssets ∨ c = otherCurrentLiabilities ∨ c = otherExpenses

instance (c : Caption) : Decidable c.residual := inferInstanceAs (Decidable (_ ∨ _))

def all : List Caption :=
  [shareCapital, reservesSurplus, deferredTaxLiability, tradePayables, shortTermBorrowings,
    longTermBorrowings, otherCurrentLiabilities, intangibleFixedAssets, tangibleFixedAssets,
    capitalWorkInProgress, longTermInvestments, inventories, tradeReceivables, cashEquivalents,
    shortTermLoansAdvances, otherCurrentAssets, revenueFromOperations, otherIncome,
    costOfMaterialsConsumed, employeeBenefitsExpense, financeCosts, depreciationAmortisation,
    taxExpense, otherExpenses]

end Caption

/-- Older spellings that a stored mapping may use. -/
def captionAliases : List (String × Caption) :=
  [("Short Term Borrowings", .shortTermBorrowings),
    ("Long Term Borrowings", .longTermBorrowings),
    ("Short Term Loans & Advances", .shortTermLoansAdvances),
    ("Long Term Investments", .longTermInvestments),
    ("Employee Benefit Expense", .employeeBenefitsExpense)]

/-- `pattern in text`. -/
def within (pattern text : String) : Bool := text.toList.tails.any pattern.toList.isPrefixOf

/-- The caption a stored mapping means. -/
def canonicalCaption (mapping subtype : Option String) : Option Caption :=
  (given mapping).bind fun stored =>
    let mapping := strip stored
    let sub := lower (subtype.getD "")
    (Caption.all.find? (·.text = mapping)).or
      (((captionAliases.find? (·.1 = mapping)).map Prod.snd).or
        (if mapping = "Fixed Assets" then
          some (if within "intangible" sub ∨ within "goodwill" sub then .intangibleFixedAssets
            else .tangibleFixedAssets)
        else none))

/-- A subtype in lower case, its hyphens read as spaces. -/
def foldSubtype (subtype : Option String) : String :=
  String.ofList ((lower (subtype.getD "")).toList.map fun c => if c = '-' then ' ' else c)

/-- The caption a subtype gives a balance-sheet account. -/
def bsKeyword (typ sub : String) : Option Caption :=
  if typ = "equity" then
    some (if within "share capital" sub ∨ within "capital" sub then .shareCapital
      else .reservesSurplus)
  else if typ = "liability" then
    some (if within "deferred tax" sub then .deferredTaxLiability
      else if within "trade payable" sub ∨ within "creditor" sub then .tradePayables
      else if within "payable" sub ∧ ¬ ["gst", "tds", "tax", "duty", "pf", "esi", "salary", "wage",
        "statutory"].any (within · sub) then .tradePayables
      else if within "short term" sub ∨ within "overdraft" sub ∨ within "cc limit" sub ∨
        within "credit card" sub then .shortTermBorrowings
      else if within "long term" sub ∨ within "term loan" sub ∨ within "debenture" sub then
        .longTermBorrowings
      else .otherCurrentLiabilities)
  else if typ = "asset" then
    some (if within "intangible" sub ∨ within "goodwill" sub ∨ within "software" sub then
        .intangibleFixedAssets
      else if within "work in progress" sub ∨ within "cwip" sub ∨ within "capital work" sub ∨
        within "under construction" sub then .capitalWorkInProgress
      else if ["fixed asset", "tangible", "plant", "machinery", "furniture", "building",
        "vehicle"].any (within · sub) then .tangibleFixedAssets
      else if within "long term investment" sub ∨ within "investment" sub then .longTermInvestments
      else if within "inventor" sub ∨ within "stock" sub then .inventories
      else if within "trade receivable" sub ∨ within "debtor" sub ∨ within "receivable" sub then
        .tradeReceivables
      else if within "cash" sub ∨ within "bank" sub then .cashEquivalents
      else if within "short term loan" sub ∨ within "advance" sub then .shortTermLoansAdvances
      else .otherCurrentAssets)
  else none

/-- The caption a subtype gives a profit and loss account. -/
def plKeyword (typ sub : String) : Option Caption :=
  if typ = "revenue" then
    some (if within "other income" sub ∨ within "interest income" sub ∨ within "dividend" sub then
        .otherIncome
      else .revenueFromOperations)
  else if typ = "expense" then
    some (if within "material" sub ∨ within "cost of goods" sub ∨ within "purchase" sub ∨
        within "raw material" sub then .costOfMaterialsConsumed
      else if within "employee" sub ∨ within "salary" sub ∨ within "wages" sub ∨
        within "staff" sub then .employeeBenefitsExpense
      else if within "finance" sub ∨ within "interest expense" sub ∨ within "bank charge" sub then
        .financeCosts
      else if within "depreciation" sub ∨ within "amortisation" sub ∨ within "amortization" sub then
        .depreciationAmortisation
      else if within "tax" sub ∨ within "income tax" sub ∨ within "deferred tax" sub then .taxExpense
      else .otherExpenses)
  else none

/-- An account's Balance Sheet caption: its mapping's where that is one, and else its subtype's. -/
def bsBucket (type : String) (subtype mapping : Option String) : Option Caption :=
  let typ := lower type
  let chosen :=
    if typ = "equity" ∨ typ = "liability" ∨ typ = "asset" then
      (canonicalCaption mapping subtype).filter (·.onBalanceSheet)
    else none
  chosen.or (bsKeyword typ (foldSubtype subtype))

/-- An account's caption in the Statement of Profit & Loss. -/
def plBucket (type : String) (subtype mapping : Option String) : Option Caption :=
  let typ := lower type
  let chosen :=
    if typ = "revenue" ∨ typ = "expense" then
      (canonicalCaption mapping subtype).filter (·.onProfitLoss)
    else none
  chosen.or (plKeyword typ (foldSubtype subtype))

/-- How a caption was arrived at. -/
inductive Basis where
  | mapping | subtype | residual

/-- The caption and how it was arrived at. -/
def classify (type : String) (subtype mapping : Option String) : Option Caption × Basis :=
  let chosen := canonicalCaption mapping subtype
  let caption := (bsBucket type subtype mapping).or (plBucket type subtype mapping)
  if chosen ≠ none ∧ caption = chosen then (caption, .mapping)
  else match (bsBucket type subtype none).or (plBucket type subtype none) with
    | none => (none, .residual)
    | some c => (some c, if c.residual then .residual else .subtype)

/-- An account's caption, as the P&L and the Balance Sheet print it. -/
def captionOf (a : Account) : Option Caption × Basis := classify a.type a.subtype a.scheduleIIIMapping

end Caflow.Reporting
