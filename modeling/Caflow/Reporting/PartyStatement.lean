import Caflow.Lib.IsoDate
import Caflow.Lib.RunningBalance
import Caflow.Lib.SortByKey
import Caflow.Lib.Tally
import Caflow.Text

set_option linter.all false

namespace Caflow.Reporting.PartyStatement
open IsoDate (Date)
open RunningBalance (running)
open Tally (grouped)
open Text (strip upper)

/-- A customer's balance is what they owe, a vendor's what is owed to them. -/
inductive Side where
  | receivable | payable

inductive EventType where
  | invoice | bill | debitNote | creditNote | receipt | payment
  deriving DecidableEq

/-- A row of client_sales_invoices. -/
structure Invoice where
  invoiceDate : Date
  invoiceNo : Option String
  totalPaise : Option ℤ
  txnCurrency : Option String
  exchangeRate : Option String
  txnTotal : Option ℤ

/-- A row of purchase_bills. -/
structure Bill where
  billDate : Date
  billNo : Option String
  netPayablePaise : Option ℤ
  txnCurrency : Option String
  exchangeRate : Option String
  txnNetPayable : Option ℤ

/-- A row of credit_notes, sales_debit_notes, debit_notes or purchase_credit_notes. -/
structure Note where
  noteDate : Date
  noteNo : Option String
  totalPaise : Option ℤ
  txnCurrency : Option String
  exchangeRate : Option String

/-- A row of receipts, with what it takes off the receivable where the caller has that. -/
structure Receipt where
  receiptDate : Date
  receiptNo : Option String
  arReliefPaise : Option ℤ
  amountPaise : Option ℤ
  tdsPaise : Option ℤ
  txnCurrency : Option String
  exchangeRate : Option String
  txnAmount : Option ℤ

/-- A row of purchase_payments, with what it takes off the payable where the caller has that. -/
structure Payment where
  paymentDate : Date
  paymentNo : Option String
  apReliefPaise : Option ℤ
  amountPaise : Option ℤ
  txnCurrency : Option String
  exchangeRate : Option String
  txnAmount : Option ℤ

structure Event where
  date : Date
  rank : ℕ
  type : EventType
  reference : Option String
  particulars : String
  debitPaise : ℤ
  creditPaise : ℤ
  txnCurrency : String
  exchangeRate : String
  txnAmount : ℤ

/-- A text, or another where it is missing or empty. -/
def orElse (text : Option String) (other : String) : String :=
  if text.getD "" = "" then other else text.getD ""

/-- A line's own words; a number that is missing reads None. -/
def particulars (label : String) (number : Option String) : String :=
  strip (label ++ " " ++ number.getD "None")

def invoiceEvent (inv : Invoice) : Event :=
  let total := inv.totalPaise.getD 0
  ⟨inv.invoiceDate, 0, .invoice, inv.invoiceNo, particulars "Invoice" inv.invoiceNo, total, 0,
    orElse inv.txnCurrency "INR", orElse inv.exchangeRate "1", inv.txnTotal.getD total⟩

def billEvent (b : Bill) : Event :=
  let net := b.netPayablePaise.getD 0
  ⟨b.billDate, 0, .bill, b.billNo, particulars "Bill" b.billNo, 0, net,
    orElse b.txnCurrency "INR", orElse b.exchangeRate "1", b.txnNetPayable.getD net⟩

/-- A debit note adds to what a customer owes and takes off what is owed to a vendor. -/
def debitNoteEvent (rank : ℕ) (dn : Note) : Event :=
  let total := dn.totalPaise.getD 0
  ⟨dn.noteDate, rank, .debitNote, dn.noteNo, particulars "Debit Note" dn.noteNo, total, 0,
    orElse dn.txnCurrency "INR", orElse dn.exchangeRate "1", dn.totalPaise.getD total⟩

def creditNoteEvent (rank : ℕ) (cn : Note) : Event :=
  let total := cn.totalPaise.getD 0
  ⟨cn.noteDate, rank, .creditNote, cn.noteNo, particulars "Credit Note" cn.noteNo, 0, total,
    orElse cn.txnCurrency "INR", orElse cn.exchangeRate "1", cn.totalPaise.getD total⟩

def receiptEvent (r : Receipt) : Event :=
  let settlement := r.arReliefPaise.getD (r.amountPaise.getD 0 + r.tdsPaise.getD 0)
  ⟨r.receiptDate, 3, .receipt, r.receiptNo, particulars "Receipt" r.receiptNo, 0, settlement,
    orElse r.txnCurrency "INR", orElse r.exchangeRate "1", r.txnAmount.getD settlement⟩

def paymentEvent (p : Payment) : Event :=
  let amount := p.apReliefPaise.getD (p.amountPaise.getD 0)
  ⟨p.paymentDate, 3, .payment, p.paymentNo, particulars "Payment" p.paymentNo, amount, 0,
    orElse p.txnCurrency "INR", orElse p.exchangeRate "1", p.txnAmount.getD amount⟩

namespace Event
variable (e : Event)

/-- The day, the rank of the document and its number. -/
def key : Date ×ₗ ℕ ×ₗ String := toLex (e.date, toLex (e.rank, e.reference.getD ""))

def delta (side : Side) : ℤ :=
  match side with
  | .receivable => e.debitPaise - e.creditPaise
  | .payable => e.creditPaise - e.debitPaise

def within (start stop : Date) : Bool := start ≤ e.date && e.date ≤ stop

/-- What an event adds in its own currency goes the way its rupees go. -/
def signedTxn (side : Side) : ℤ := if 0 ≤ e.delta side then e.txnAmount else -e.txnAmount

end Event

def currencyOf (raw : Option String) : String := upper (orElse raw "INR")

/-- What an event adds to the split: its currency, its rupees and its own amount. -/
def Event.movement (side : Side) (e : Event) : String × ℤ × ℤ :=
  (currencyOf (some e.txnCurrency), e.delta side, e.signedTxn side)

def Event.isForeign (e : Event) : Bool := currencyOf (some e.txnCurrency) ≠ "INR"

/-- A currency of the position before a statement's window. -/
structure CurrencyPosition where
  currency : Option String
  basePaise : Option ℤ
  foreignMinor : Option ℤ

structure OpeningPosition where
  openingBalancePaise : Option ℤ
  byCurrency : List CurrencyPosition

def CurrencyPosition.entry (row : CurrencyPosition) : String × ℤ × ℤ :=
  (currencyOf row.currency, row.basePaise.getD 0, row.foreignMinor.getD 0)

/-- What is outstanding in one currency; in rupees there is no other amount. -/
structure CurrencyLine where
  currency : String
  outstandingBasePaise : ℤ
  outstandingForeignMinor : Option ℤ
  deriving DecidableEq

structure Transaction where
  date : Date
  type : EventType
  reference : Option String
  particulars : String
  debitPaise : ℤ
  creditPaise : ℤ
  runningBalancePaise : ℤ
  txnCurrency : String
  exchangeRate : String
  txnAmount : ℤ

/-- What was invoiced or billed, received or paid, credited and debited in the window. -/
structure Totals where
  documentsPaise : ℤ
  settledPaise : ℤ
  creditedPaise : ℤ
  debitedPaise : ℤ
  transactionCount : ℕ

structure Statement where
  startDate : Date
  endDate : Date
  openingBalancePaise : ℤ
  transactions : List Transaction
  closingBalancePaise : ℤ
  totals : Totals
  outstandingByCurrency : Option (List CurrencyLine)

/-- What the split starts from: the position before the window, or the seed in rupees. -/
def openingEntries (seed : ℤ) (position : Option OpeningPosition) : List (String × ℤ × ℤ) :=
  match position with
  | some p => p.byCurrency.map CurrencyPosition.entry ++ [("INR", 0, 0)]
  | none => [("INR", seed, seed)]

def currencyLine (slot : String × ℤ × ℤ) : CurrencyLine :=
  ⟨slot.1, slot.2.1, if slot.1 = "INR" then none else some slot.2.2⟩

def sortedSlots (slots : List (String × ℤ × ℤ)) : List (String × ℤ × ℤ) :=
  slots.insertionSort fun a b => a.1 ≤ b.1

/-- The closing outstanding by currency, where a currency other than the rupee comes up at all. -/
def attachCurrencyOutstanding (side : Side) (seed : ℤ) (events : List Event) (stop : Date)
    (position : Option OpeningPosition) : Option (List CurrencyLine) :=
  let openingCcy := (position.map (·.byCurrency)).getD []
  if events.any (·.isForeign) || openingCcy.any (currencyOf ·.currency ≠ "INR") then
    let slots := grouped (openingEntries seed position ++
      (events.filter (·.date ≤ stop)).map (·.movement side))
    some ((sortedSlots slots).map currencyLine)
  else none

def transactionOf (line : Event × ℤ) : Transaction :=
  let e := line.1
  ⟨e.date, e.type, e.reference, e.particulars, e.debitPaise, e.creditPaise, line.2,
    e.txnCurrency, e.exchangeRate, e.txnAmount⟩

/-- What the events of one type come to, as a debit or a credit. -/
def totalOf (type : EventType) (amount : Event → ℤ) (window : List Event) : ℤ :=
  ((window.filter (·.type = type)).map amount).sum

def totalsOf (side : Side) (window : List Event) : Totals :=
  match side with
  | .receivable => ⟨totalOf .invoice Event.debitPaise window, totalOf .receipt Event.creditPaise window,
      totalOf .creditNote Event.creditPaise window, totalOf .debitNote Event.debitPaise window,
      window.length⟩
  | .payable => ⟨totalOf .bill Event.creditPaise window, totalOf .payment Event.debitPaise window,
      totalOf .creditNote Event.creditPaise window, totalOf .debitNote Event.debitPaise window,
      window.length⟩

def sortEvents (events : List Event) : List Event := events.insertionSort fun a b => a.key ≤ b.key

/-- The balance a statement opens with: the position's, or the seed and all that was before. -/
def openingOf (side : Side) (seed : ℤ) (start : Date) (events : List Event)
    (position : Option OpeningPosition) : ℤ :=
  match position with
  | some p => p.openingBalancePaise.getD 0
  | none => seed + ((events.filter (·.date < start)).map (·.delta side)).sum

/-- A statement of the events of a party. -/
def statementOf (side : Side) (seed : ℤ) (start stop : Date) (events : List Event)
    (position : Option OpeningPosition) : Statement :=
  let sorted := sortEvents events
  let opening := openingOf side seed start sorted position
  let window := sorted.filter (·.within start stop)
  { startDate := start
    endDate := stop
    openingBalancePaise := opening
    transactions := (running (·.delta side) opening window).map transactionOf
    closingBalancePaise := opening + (window.map (·.delta side)).sum
    totals := totalsOf side window
    outstandingByCurrency := attachCurrencyOutstanding side seed sorted stop position }

/-- The position before a day: the seed and every earlier movement, by currency. -/
def positionOf (side : Side) (seed : ℤ) (before : Date) (events : List Event) : OpeningPosition :=
  let earlier := events.filter (·.date < before)
  { openingBalancePaise := some (seed + (earlier.map (·.delta side)).sum)
    byCurrency := (sortedSlots (grouped
      (("INR", seed, seed) :: earlier.map (·.movement side)))).map fun slot =>
        ⟨some slot.1, some slot.2.1, some slot.2.2⟩ }

/-- The customer's statement. -/
def customerStatement (seed : ℤ) (start stop : Date) (invoices : List Invoice)
    (receipts : List Receipt) (creditNotes debitNotes : List Note)
    (position : Option OpeningPosition) : Statement :=
  statementOf .receivable seed start stop
    (invoices.map invoiceEvent ++ debitNotes.map (debitNoteEvent 1) ++
      creditNotes.map (creditNoteEvent 2) ++ receipts.map receiptEvent) position

/-- The vendor's statement. -/
def vendorStatement (seed : ℤ) (start stop : Date) (bills : List Bill) (payments : List Payment)
    (debitNotes creditNotes : List Note) (position : Option OpeningPosition) : Statement :=
  statementOf .payable seed start stop
    (bills.map billEvent ++ creditNotes.map (creditNoteEvent 1) ++
      debitNotes.map (debitNoteEvent 2) ++ payments.map paymentEvent) position

/-- The documents of a party. -/
inductive Documents where
  | customer (invoices : List Invoice) (receipts : List Receipt)
      (creditNotes debitNotes : List Note)
  | vendor (bills : List Bill) (payments : List Payment) (debitNotes creditNotes : List Note)

namespace Documents

def side : Documents → Side
  | customer .. => .receivable
  | vendor .. => .payable

def events : Documents → List Event
  | customer invoices receipts creditNotes debitNotes =>
    invoices.map invoiceEvent ++ debitNotes.map (debitNoteEvent 1) ++
      creditNotes.map (creditNoteEvent 2) ++ receipts.map receiptEvent
  | vendor bills payments debitNotes creditNotes =>
    bills.map billEvent ++ creditNotes.map (creditNoteEvent 1) ++
      debitNotes.map (debitNoteEvent 2) ++ payments.map paymentEvent

/-- The documents dated in a window. -/
def within (start stop : Date) : Documents → Documents
  | customer invoices receipts creditNotes debitNotes =>
    customer (invoices.filter fun d => start ≤ d.invoiceDate && d.invoiceDate ≤ stop)
      (receipts.filter fun d => start ≤ d.receiptDate && d.receiptDate ≤ stop)
      (creditNotes.filter fun d => start ≤ d.noteDate && d.noteDate ≤ stop)
      (debitNotes.filter fun d => start ≤ d.noteDate && d.noteDate ≤ stop)
  | vendor bills payments debitNotes creditNotes =>
    vendor (bills.filter fun d => start ≤ d.billDate && d.billDate ≤ stop)
      (payments.filter fun d => start ≤ d.paymentDate && d.paymentDate ≤ stop)
      (debitNotes.filter fun d => start ≤ d.noteDate && d.noteDate ≤ stop)
      (creditNotes.filter fun d => start ≤ d.noteDate && d.noteDate ≤ stop)

def statement (seed : ℤ) (start stop : Date) (position : Option OpeningPosition) :
    Documents → Statement
  | customer invoices receipts creditNotes debitNotes =>
    customerStatement seed start stop invoices receipts creditNotes debitNotes position
  | vendor bills payments debitNotes creditNotes =>
    vendorStatement seed start stop bills payments debitNotes creditNotes position

def position (seed : ℤ) (before : Date) (docs : Documents) : OpeningPosition :=
  positionOf docs.side seed before docs.events

end Documents

end Caflow.Reporting.PartyStatement
