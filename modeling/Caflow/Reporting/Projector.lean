import Caflow.Lib.Tally
import Caflow.Reporting.Resolver

set_option linter.all false

namespace Caflow.Reporting
open Accounting (JournalLine)
open Tally

/-- A line as it is, or negated by exchanging its sides. -/
def signed (sign : ℤ) (l : ProjectedLine) : ProjectedLine := if 0 ≤ sign then l else swap l

namespace LedgerSnapshot

variable (s : LedgerSnapshot)

/-- Credits less debits on the receivable accounts. -/
def arNet (lines : List JournalLine) : ℤ :=
  ((lines.filter fun l => s.accounts.isAr l.account).map
    fun l => l.creditPaise - l.debitPaise).sum

/-- Debits less credits on the payable accounts that are not receivable too. -/
def passthroughApNet (lines : List JournalLine) : ℤ :=
  ((lines.filter fun l => ¬ s.accounts.isAr l.account ∧ s.accounts.isAp l.account).map
    fun l => l.debitPaise - l.creditPaise).sum

def apNet (lines : List JournalLine) : ℤ :=
  ((lines.filter fun l => s.accounts.isAp l.account).map
    fun l => l.debitPaise - l.creditPaise).sum

/-- The lines of an entry without a document: what is on a control account moves to the advances. -/
def passthrough (entry : JournalEntry) (sign : ℤ) : List ProjectedLine :=
  let arNet := s.arNet entry.lines
  let apNet := s.passthroughApNet entry.lines
  let kept := entry.lines.filter fun l =>
    ¬ s.accounts.isAr l.account ∧ ¬ s.accounts.isAp l.account
  let customer :=
    if arNet = 0 then []
    else if 0 < arNet then [⟨s.accounts.advanceCustomer, 0, arNet⟩]
    else [⟨s.accounts.advanceCustomer, -arNet, 0⟩]
  let vendor :=
    if apNet = 0 then []
    else if 0 < apNet then [⟨s.accounts.advanceVendor, apNet, 0⟩]
    else [⟨s.accounts.advanceVendor, 0, -apNet⟩]
  (kept ++ customer ++ vendor).map (signed sign)

/-- What the credit notes against an invoice take off its accounts. -/
def creditNoteDebits (invoiceId : String) : List (String × ℤ) :=
  s.creditNotes.flatMap fun cn =>
    if cn.salesInvoiceId ≠ some invoiceId then []
    else match (given cn.journalEntryId).bind s.entriesById with
      | none => []
      | some cje => (cje.lines.filter fun l =>
          ¬ s.accounts.isAr l.account ∧ 0 < l.debitPaise).map fun l => (l.account, -l.debitPaise)

/-- The accounts an invoice was credited to, less its credit notes, with their weights. -/
def invoiceDistribution (invoiceId : String) : List (String × ℤ) :=
  match (s.invoice invoiceId).bind fun inv => (given inv.journalEntryId).bind s.entriesById with
  | none => []
  | some je =>
    let credits := (je.lines.filter fun l =>
      ¬ s.accounts.isAr l.account ∧ 0 < l.creditPaise).map fun l => (l.account, l.creditPaise)
    (grouped (credits ++ s.creditNoteDebits invoiceId)).filter fun leg => 0 < leg.2

/-- The accounts a bill was debited to, with their weights. -/
def billDistribution (billId : String) : List (String × ℤ) :=
  match (s.bill billId).bind fun bill => (given bill.journalEntryId).bind s.entriesById with
  | none => []
  | some je =>
    let debits := (je.lines.filter fun l =>
      ¬ s.accounts.isAp l.account ∧ 0 < l.debitPaise).map fun l => (l.account, l.debitPaise)
    (grouped debits).filter fun leg => 0 < leg.2

/-- Legs that money can be split over. -/
def Resolvable (legs : List (String × ℤ)) : Prop := legs ≠ [] ∧ 0 < (legs.map Prod.snd).sum

instance (legs : List (String × ℤ)) : Decidable (Resolvable legs) :=
  inferInstanceAs (Decidable (_ ∧ _))

/-- The shares of an amount on the legs that get one. -/
def shares (amount : ℤ) (legs : List (String × ℤ)) : List (String × ℤ) :=
  ((legs.map Prod.fst).zip (apportion amount (legs.map Prod.snd))).filter fun p => p.2 ≠ 0

/-- The walk over a receipt's allocations: what each invoice that can take it gets, until the
receivable cleared is used up. -/
def collect (arCleared : ℤ) : ℤ → List ReceiptAllocation → List (String × ℤ) × ℤ
  | recognised, [] => ([], recognised)
  | recognised, alloc :: rest =>
    if arCleared ≤ recognised then ([], recognised)
    else
      let amount := min (alloc.allocatedPaise : ℤ) (arCleared - recognised)
      let legs := s.invoiceDistribution alloc.salesInvoiceId
      if Resolvable legs then
        let later := collect arCleared (recognised + amount) rest
        (shares amount legs ++ later.1, later.2)
      else collect arCleared recognised rest

/-- The bank side of a receipt stays; what it clears of the receivables becomes income. -/
def projectReceipt (receipt : Receipt) (entry : JournalEntry) (sign : ℤ) : List ProjectedLine :=
  let kept := entry.lines.filter fun l => ¬ s.accounts.isAr l.account
  let arCleared := s.arNet entry.lines
  if arCleared ≤ 0 then kept.map (signed sign)
  else
    let collected := s.collect arCleared 0 (s.allocationsByReceipt receipt.id)
    let remaining := arCleared - collected.2
    let income := collected.1.map fun p => (⟨p.1, 0, p.2⟩ : ProjectedLine)
    let advance : List ProjectedLine :=
      if 0 < remaining then [⟨s.accounts.advanceCustomer, 0, remaining⟩] else []
    (kept ++ income ++ advance).map (signed sign)

/-- The shares of a payment on the bill it names, and what it recognises so. -/
def settleBill (apCleared : ℤ) (payment : Payment) : List (String × ℤ) × ℤ :=
  match given payment.purchaseBillId with
  | none => ([], 0)
  | some billId =>
    let legs := s.billDistribution billId
    if Resolvable legs then (shares apCleared legs, apCleared) else ([], 0)

/-- The bank side of a payment stays; what it clears of the payables becomes expense. -/
def projectPayment (payment : Payment) (entry : JournalEntry) (sign : ℤ) : List ProjectedLine :=
  let kept := entry.lines.filter fun l => ¬ s.accounts.isAp l.account
  let apCleared := s.apNet entry.lines
  if apCleared ≤ 0 then kept.map (signed sign)
  else
    let settled := s.settleBill apCleared payment
    let remaining := apCleared - settled.2
    let expense := settled.1.map fun p => (⟨p.1, p.2, 0⟩ : ProjectedLine)
    let advance : List ProjectedLine :=
      if 0 < remaining then [⟨s.accounts.advanceVendor, remaining, 0⟩] else []
    (kept ++ expense ++ advance).map (signed sign)

/-- An inventory posting that goes with a bill or an invoice of the books. -/
def isInventoryMovementCompanion (entry : JournalEntry) : Bool :=
  match entry.sourceId with
  | none => false
  | some sourceId =>
    if entry.sourceType = some "purchase_bill" then (s.bill sourceId).isSome
    else if entry.sourceType = some "sales_invoice" then (s.invoice sourceId).isSome
    else false

/-- An entry that reverses nothing, by the document it belongs to. -/
def projectOwn (entry : JournalEntry) (sign : ℤ) : List ProjectedLine :=
  match s.receiptByJournal entry.id with
  | some receipt => s.projectReceipt receipt entry sign
  | none =>
    match s.paymentByJournal entry.id with
    | some payment => s.projectPayment payment entry sign
    | none =>
      if (s.invoiceByJournal entry.id).isSome ∨ (s.billByJournal entry.id).isSome ∨
          (s.creditnoteByJournal entry.id).isSome then []
      else if s.isInventoryMovementCompanion entry then []
      else s.passthrough entry sign

/-- A reversal projects its original with the sign turned, as deep as the calls may nest. -/
def projectEntry : ℕ → JournalEntry → ℤ → Option (List ProjectedLine)
  | 0, _, _ => none
  | frames + 1, entry, sign =>
    match given entry.reversalOf with
    | some originalId =>
      match s.entriesById originalId with
      | some original => projectEntry frames original (-sign)
      | none => some (s.passthrough entry sign)
    | none => some (s.projectOwn entry sign)

/-- The whole stream of the entries in range. -/
def project (frames : ℕ) : Option (List ProjectedLine) :=
  (s.entriesInRange.mapM fun e => s.projectEntry frames e 1).map List.flatten

end LedgerSnapshot

end Caflow.Reporting
