import Caflow.Accounting.Journal
import Caflow.Lib.Dict
import Caflow.Purchases.BillComputation

set_option linter.all false

namespace Caflow.Purchases
open Accounting

/-- A bill as it is stored, beside its lines. -/
structure Bill extends BillFigures where
  id : String
  billNo : String
  billDate : String
  expenseAccountId : Option String
  tdsSection : Option String
  isReverseCharge : Bool

/-- A line of an entry with what it is narrated by. -/
structure NarratedLine extends JournalLine where
  narration : String
  deriving DecidableEq

def NarratedLine.debit (account : String) (paise : ℤ) (narration : String) : NarratedLine :=
  ⟨⟨account, paise, 0⟩, narration⟩

def NarratedLine.credit (account : String) (paise : ℤ) (narration : String) : NarratedLine :=
  ⟨⟨account, 0, paise⟩, narration⟩

section
variable (chart : List AccountRow) (clientId : String) (bill : Bill)

def purchasesAccount : Except Failure String :=
  bill.expenseAccountId.elim
    ((findAccount chart clientId "Purchase" none).orElseLazy fun _ =>
      findAccount chart clientId "Expense" none)
    .ok

end

/-- `d[k] = d.get(k, 0) + paise` -/
def addTo (d : List (String × ℤ)) (k : String) (paise : ℤ) : List (String × ℤ) :=
  Dict.set k ((Dict.get d k).getD 0 + paise) d

def sumOf (d : List (String × ℤ)) : ℤ := (d.map Prod.snd).sum

section
variable (purchasesId : String) (bill : Bill) (rows : List BillLine)

def account (row : BillLine) : String := row.expenseAccountId.getD purchasesId

/-- The taxable value on each account the lines name. Lines that do not come to the bill are passed
over, and the whole of it is put on one account. -/
def byAccount : List (String × ℤ) :=
  let grouped := rows.foldl (fun d row => addTo d (account purchasesId row) row.taxableAmountPaise) []
  if grouped = [] ∨ sumOf grouped ≠ bill.taxableAmountPaise then
    [(purchasesId, bill.taxableAmountPaise)]
  else grouped

/-- The tax that earns no credit, on the account of the line that bears it. The bill is the authority
where the lines come to another figure. -/
def blockedByAccount : List (String × ℤ) :=
  let perLine := (rows.filter (!·.itcEligible)).foldl
    (fun d row => addTo d (account purchasesId row) row.tax.total) []
  if sumOf perLine ≠ bill.ineligibleItc.total then [(purchasesId, bill.ineligibleItc.total)]
  else perLine

/-- What each account is charged with: its purchases, and the blocked tax that is part of their
cost. -/
def costs : List (String × ℤ) :=
  if bill.ineligibleItc.total = 0 then byAccount purchasesId bill rows
  else
    (blockedByAccount purchasesId bill rows).foldl
      (fun d p => if p.2 = 0 then d else addTo d p.1 p.2) (byAccount purchasesId bill rows)

def costLines : List NarratedLine :=
  ((costs purchasesId bill rows).filter (·.2 ≠ 0)).map
    fun p => .debit p.1 p.2 "Purchase / expense"

end

/-- The tax of each head that earns credit. -/
def creditableHeads (bill : Bill) : List (ℤ × String) :=
  [(bill.tax.cgst - bill.ineligibleItc.cgst, "CGST input tax credit"),
    (bill.tax.sgst - bill.ineligibleItc.sgst, "SGST input tax credit"),
    (bill.tax.igst - bill.ineligibleItc.igst, "IGST input tax credit")]

def gstCreditLines (gstInputId : String) (bill : Bill) : List NarratedLine :=
  ((creditableHeads bill).filter (0 < ·.1)).map fun p => .debit gstInputId p.1 p.2

/-- The tax of each head, with its name and the key of its output account. -/
def outputHeads (bill : Bill) : List (ℤ × String × String) :=
  [(bill.tax.cgst, "CGST", "gst_cgst"), (bill.tax.sgst, "SGST", "gst_sgst"),
    (bill.tax.igst, "IGST", "gst_igst")]

section
variable (chart : List AccountRow) (clientId : String) (bill : Bill)

def cessCreditLines : Except Failure (List NarratedLine) :=
  let creditable := bill.tax.cess - bill.ineligibleItc.cess
  if 0 < creditable then do
    let cessInputId ← findAccount chart clientId "Compensation Cess Input" (some "gst_cess_input")
    .ok [.debit cessInputId creditable "Compensation cess input credit — Compensation Act s.8"]
  else .ok []

def payableLine (payablesId : String) : NarratedLine :=
  .credit payablesId bill.netPayablePaise "Trade payable to vendor"

def tdsLines (tdsPayId : String) : List NarratedLine :=
  if 0 < bill.tdsPaise then
    [.credit tdsPayId bill.tdsPaise ("TDS payable — IT Act §" ++ bill.tdsSection.getD "None")]
  else []

/-- The output tax a recipient owes on one head of a supply under reverse charge. -/
def outputLine (head : ℤ × String × String) : Except Failure NarratedLine := do
  let outId ← findAccount chart clientId "GST Output" (some head.2.2)
  .ok (.credit outId head.1 (head.2.1 ++ " payable under reverse charge — CGST Act §9(3)/(4)"))

def cessOutputLines : Except Failure (List NarratedLine) :=
  if 0 < bill.tax.cess then do
    let cessOutId ← findAccount chart clientId "Compensation Cess Payable" (some "gst_cess_output")
    .ok [.credit cessOutId bill.tax.cess
      "Compensation cess payable under reverse charge — Compensation Act s.8 with s.11(2)"]
  else .ok []

def reverseChargeLines : Except Failure (List NarratedLine) :=
  if bill.isReverseCharge then do
    let heads ← ((outputHeads bill).filter (0 < ·.1)).mapM (outputLine chart clientId)
    let cess ← cessOutputLines chart clientId bill
    .ok (heads ++ cess)
  else .ok []

/-- The lines of a purchase bill's entry. -/
def billLines (rows : List BillLine) : Except Failure (List NarratedLine) := do
  let purchasesId ← purchasesAccount chart clientId bill
  let gstInputId ← findAccount chart clientId "GST Input" (some "gst_input")
  let payablesId ← findAccount chart clientId "Trade Payable" (some "ap")
  let tdsPayId ← findAccount chart clientId "TDS Payable" (some "tds_payable")
  let cess ← cessCreditLines chart clientId bill
  let output ← reverseChargeLines chart clientId bill
  .ok (costLines purchasesId bill rows ++ gstCreditLines gstInputId bill ++ cess ++
    payableLine bill payablesId :: (tdsLines bill tdsPayId ++ output))

/-- A bill is posted under a number of its own. -/
def purchaseBillJournalRef (billId : String) : String :=
  "PB-" ++ Text.upper (String.ofList (billId.toList.take 8))

def Bill.reference : String :=
  if bill.id = "" then bill.billNo else purchaseBillJournalRef bill.id

def journalForPurchaseBill (journal : List JournalEntry) (rows : List BillLine) :
    Except Failure (List JournalEntry) := do
  let lines ← billLines chart clientId bill rows
  createJournal journal bill.billDate bill.reference (lines.map NarratedLine.toJournalLine)

end

end Caflow.Purchases
