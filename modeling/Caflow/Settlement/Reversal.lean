import Caflow.Accounting.Journal
import Caflow.Text
import Caflow.Lib.Interrupted

set_option linter.all false

namespace Caflow.Settlement
open Interrupted

/-- What is reversed: a customer's receipt, or a payment to a vendor. -/
inductive Kind where
  | receipt
  | payment

def Kind.noun : Kind → String
  | .receipt => "receipt"
  | .payment => "payment"

def Kind.title : Kind → String
  | .receipt => "Receipt"
  | .payment => "Payment"

inductive DocumentStatus where
  | issued
  | received
  | partiallyPaid
  | paid
  | other (text : String)
  deriving DecidableEq

/-- The header of an invoice or of a bill. The first three amounts are `total_paise`,
`debit_note_paise` and `credited_paise` of an invoice, and `net_payable_paise`,
`credit_note_paise` and `debited_paise` of a bill. -/
structure DocumentHeader where
  firmId : String
  clientId : String
  facePaise : ℤ
  raisedPaise : ℤ
  notedPaise : ℤ
  paidPaise : ℤ
  paidTxn : ℤ
  status : DocumentStatus

/-- What of a receipt or a payment went to one document. -/
structure Allocation where
  settlementId : String
  documentId : Option String
  allocatedPaise : ℤ
  allocatedTxn : Option ℤ
  isVoided : Bool
  deriving DecidableEq

/-- The allocations, one for a document of a settlement. -/
structure AllocationTable where
  rows : List Allocation
  unique : (rows.map fun a => (a.settlementId, a.documentId)).Nodup

/-- A receipt or a payment. Only a payment made to a single bill names its document. -/
structure SettlementRow where
  firmId : String
  clientId : String
  isReversed : Bool
  journalEntryId : Option String
  documentId : Option String
  amountPaise : ℤ
  txnAmount : Option ℤ
  deriving DecidableEq

structure FxAdjustment where
  firmId : String
  clientId : String
  documentType : String
  documentId : String
  baseDeltaPaise : ℤ

structure LedgerEntry where
  id : String
  firmId : String
  clientId : String
  entryDate : String
  referenceNo : String
  isPosted : Bool
  reversalOf : Option String
  lines : List Accounting.JournalLine

/-- The tables a reversal reads and writes: those of sales for a receipt, those of purchases for
a payment. -/
structure Books where
  documents : String → Option DocumentHeader
  allocations : AllocationTable
  settlements : String → Option SettlementRow
  fxAdjustments : List FxAdjustment
  entries : List LedgerEntry

/-- What becomes of an update that names the paid amount it was read with. -/
inductive Guarded where
  | matched
  /-- Another writer was there first: it changes nothing. -/
  | beaten
  | refused (failure : Failure)
  | lost

structure Attempt where
  read : Option Failure := none
  write : Guarded := .matched

/-- What becomes of each statement of a call. A read is answered, or raises what it names. -/
structure Plan where
  settlement : Option Failure := none
  period : Option Failure := none
  fx : Option Failure := none
  allocations : Option Failure := none
  /-- For the allocation in a place, each attempt at its document. -/
  attempts : ℕ → ℕ → Attempt := fun _ _ => {}
  void : Outcome Failure := .done
  entry : Option Failure := none
  earlier : Option Failure := none
  lines : Option Failure := none
  post : Outcome Failure := .done
  /-- The id the reversing entry is given. -/
  reversalId : String := ""
  mark : Outcome Failure := .done

abbrev Call := EStateM Failure Books

def answer (read : Option Failure) : Call Unit :=
  match read with
  | none => pure ()
  | some failure => throw failure

def invoiceStatus (header : DocumentHeader) (reverted : ℤ) : DocumentStatus :=
  let total := header.facePaise + header.raisedPaise
  if total > 0 ∧ reverted + header.notedPaise ≥ total then .paid
  else if reverted > 0 then .partiallyPaid
  else .issued

def billStatus (header : DocumentHeader) (reverted : ℤ) : DocumentStatus :=
  let effectivePayable := header.facePaise + header.raisedPaise
  if reverted + header.notedPaise ≥ effectivePayable then .paid
  else if reverted > 0 then .partiallyPaid
  else .received

/-- An amount and its count in the billing currency, taken off what a document was paid. -/
def DocumentHeader.reverted (header : DocumentHeader)
    (statusOf : DocumentHeader → ℤ → DocumentStatus) (amountPaise txnAmount : ℤ) :
    DocumentHeader :=
  let reverted := max (header.paidPaise - amountPaise) 0
  { header with
    paidPaise := reverted
    paidTxn := max (header.paidTxn - txnAmount) 0
    status := statusOf header reverted }

def Books.writeDocument (books : Books) (documentId : String) (header : DocumentHeader) : Books :=
  { books with documents := Function.update books.documents documentId (some header) }

/-- The retries of a rollback, from an attempt on. -/
def rollbackFrom (statusOf : DocumentHeader → ℤ → DocumentStatus) (title firmId clientId : String)
    (documentId : String) (amountPaise txnAmount : ℤ) (attempts : ℕ → Attempt) (attempt : ℕ) :
    ℕ → Call Unit
  | 0 => throw (.http 409
      (title ++ " " ++ documentId ++ " is being updated concurrently — please retry."))
  | retries + 1 => do
    answer (attempts attempt).read
    let books ← get
    match (books.documents documentId).filter
        (fun h => h.firmId = firmId ∧ h.clientId = clientId) with
    | none => return ()
    | some header =>
      let written := books.writeDocument documentId (header.reverted statusOf amountPaise txnAmount)
      match (attempts attempt).write with
      | .matched => set written
      | .refused failure => throw failure
      | .lost => do
        set written
        throw .fault
      | .beaten =>
        rollbackFrom statusOf title firmId clientId documentId amountPaise txnAmount attempts
          (attempt + 1) retries

def rollbackInvoicePaid (firmId clientId invoiceId : String) (amountPaise txnAmount : ℤ)
    (attempts : ℕ → Attempt) : Call Unit :=
  rollbackFrom invoiceStatus "Invoice" firmId clientId invoiceId amountPaise txnAmount attempts 0 5

def rollbackBillPaid (firmId clientId billId : String) (amountPaise txnAmount : ℤ)
    (attempts : ℕ → Attempt) : Call Unit :=
  rollbackFrom billStatus "Bill" firmId clientId billId amountPaise txnAmount attempts 0 5

/-- What an allocation put on a document, if it put anything there. -/
def Allocation.taken (alloc : Allocation) : Option (String × ℤ × ℤ) :=
  let txn := alloc.allocatedTxn.getD 0
  match alloc.documentId with
  | some documentId =>
    if alloc.allocatedPaise > 0 ∨ txn > 0 then some (documentId, alloc.allocatedPaise, txn) else none
  | none => none

/-- The loop over the allocations of a settlement, from a place on. -/
def undoAllocations (rollback : String → ℤ → ℤ → (ℕ → Attempt) → Call Unit)
    (attempts : ℕ → ℕ → Attempt) : ℕ → List Allocation → Call Unit
  | _, [] => pure ()
  | place, alloc :: rest => do
    match alloc.taken with
    | some (documentId, paise, txn) => rollback documentId paise txn (attempts place)
    | none => pure ()
    undoAllocations rollback attempts (place + 1) rest

def AllocationTable.void (table : AllocationTable) (settlementId : String) : AllocationTable where
  rows := table.rows.map fun a => if a.settlementId = settlementId then { a with isVoided := true } else a
  unique := by
    rw [List.map_map]
    convert table.unique using 1
    apply List.map_congr_left
    intro a _
    dsimp only [Function.comp]
    split <;> rfl

def Books.voidAllocations (settlementId : String) (books : Books) : Books :=
  { books with allocations := books.allocations.void settlementId }

/-- The allocations of a settlement that still count. -/
def Books.liveAllocations (books : Books) (settlementId : String) : List Allocation :=
  books.allocations.rows.filter fun a => a.settlementId = settlementId ∧ a.isVoided = false

/-- The equal and opposite entry. -/
def LedgerEntry.reversal (orig : LedgerEntry) (reversalId reversalDate : String) : LedgerEntry where
  id := reversalId
  firmId := orig.firmId
  clientId := orig.clientId
  entryDate := reversalDate
  referenceNo := "REV-" ++ Text.upper (String.ofList (orig.id.toList.take 8))
  isPosted := true
  reversalOf := some orig.id
  lines := orig.lines.map fun l => ⟨l.account, l.creditPaise, l.debitPaise⟩

def Books.post (entry : LedgerEntry) (books : Books) : Books :=
  { books with entries := books.entries ++ [entry] }

def reverseEntry (plan : Plan) (firmId entryId reversalDate : String) : Call Unit := do
  answer plan.entry
  let books ← get
  match books.entries.find? (fun e => e.id = entryId ∧ e.firmId = firmId) with
  | none => throw (.http 404 "Journal entry not found")
  | some orig =>
    if orig.isPosted = false then throw (.http 422 "Only posted journal entries can be reversed")
    else if orig.reversalOf ≠ none then
      throw (.http 409 "This entry is itself a reversal — cannot reverse a reversal")
    else do
      answer plan.earlier
      if books.entries.any (fun e => e.firmId = firmId ∧ e.reversalOf = some entryId) then
        throw (.http 409 ("Journal " ++ entryId ++ " has already been reversed"))
      else do
        answer plan.lines
        if orig.lines = [] then throw (.http 422 "Cannot reverse a journal entry with no lines")
        else statement plan.post (Books.post (orig.reversal plan.reversalId reversalDate))

def Books.markReversed (settlementId firmId clientId : String) (books : Books) : Books :=
  { books with
    settlements := fun id =>
      (books.settlements id).map fun s =>
        if id = settlementId ∧ s.firmId = firmId ∧ s.clientId = clientId then
          { s with isReversed := true }
        else s }

/-- What the reversal of a receipt answers with. -/
structure ReversedReceipt where
  id : String
  invoicesAdjusted : ℕ
  journalReversed : String

/-- What the reversal of a payment answers with. -/
structure ReversedPayment where
  id : String
  billAdjusted : Option String
  billsAdjusted : List String
  journalReversed : String

/-- The settlement a call is about, if it may still be reversed on the date. -/
def openSettlement (kind : Kind) (plan : Plan) (firmId settlementId : String) : Call SettlementRow := do
  answer plan.settlement
  let books ← get
  match (books.settlements settlementId).filter (fun s => s.firmId = firmId) with
  | none => throw (.http 404 (kind.title ++ " not found"))
  | some settlement =>
    if settlement.isReversed then
      throw (.http 422 ("This " ++ kind.noun ++ " has already been reversed"))
    else do
      answer plan.period
      return settlement

/-- The end of a call: the journal is reversed, and the settlement marked. -/
def closeSettlement (kind : Kind) (plan : Plan) (firmId settlementId reversalDate : String)
    (settlement : SettlementRow) : Call String :=
  match settlement.journalEntryId with
  | none => throw (.http 422 ("No posted journal found for this " ++ kind.noun ++ " to reverse."))
  | some journalId => do
    reverseEntry plan firmId journalId reversalDate
    statement plan.mark (Books.markReversed settlementId firmId settlement.clientId)
    return journalId

def reverseReceipt (plan : Plan) (firmId receiptId reversalDate : String) :
    Call ReversedReceipt := do
  let receipt ← openSettlement .receipt plan firmId receiptId
  answer plan.allocations
  let allocations := (← get).liveAllocations receiptId
  undoAllocations (rollbackInvoicePaid firmId receipt.clientId) plan.attempts 0 allocations
  if allocations ≠ [] then statement plan.void (Books.voidAllocations receiptId)
  let journalId ← closeSettlement .receipt plan firmId receiptId reversalDate receipt
  return ⟨receiptId, allocations.length, journalId⟩

/-- What a payment truly took off the payable: a foreign one at the rate the bill was booked at. -/
def Books.paymentApRelief (books : Books) (firmId clientId paymentId : String)
    (payment : SettlementRow) : ℤ :=
  let rows := books.fxAdjustments.filter fun r =>
    r.firmId = firmId ∧ r.clientId = clientId ∧ r.documentType = "purchase_payment" ∧
      r.documentId = paymentId
  payment.amountPaise + (rows.map FxAdjustment.baseDeltaPaise).sum

def reversePayment (plan : Plan) (firmId paymentId reversalDate : String) :
    Call ReversedPayment := do
  let payment ← openSettlement .payment plan firmId paymentId
  match payment.documentId with
  | some billId =>
    answer plan.fx
    let apRelief := (← get).paymentApRelief firmId payment.clientId paymentId payment
    let txnAmount := payment.txnAmount.getD 0
    if apRelief > 0 ∨ txnAmount > 0 then
      rollbackBillPaid firmId payment.clientId billId apRelief txnAmount (plan.attempts 0)
    let journalId ← closeSettlement .payment plan firmId paymentId reversalDate payment
    return ⟨paymentId, some billId, [billId], journalId⟩
  | none =>
    answer plan.allocations
    let allocations := (← get).liveAllocations paymentId
    undoAllocations (rollbackBillPaid firmId payment.clientId) plan.attempts 0 allocations
    if allocations ≠ [] then statement plan.void (Books.voidAllocations paymentId)
    let journalId ← closeSettlement .payment plan firmId paymentId reversalDate payment
    return ⟨paymentId, none, (allocations.filterMap Allocation.taken).map (·.1), journalId⟩

/-- A call that reverses a settlement of either kind. -/
def reverse (kind : Kind) (plan : Plan) (firmId settlementId reversalDate : String) : Call Unit :=
  match kind with
  | .receipt => do
    let _ ← reverseReceipt plan firmId settlementId reversalDate
    return ()
  | .payment => do
    let _ ← reversePayment plan firmId settlementId reversalDate
    return ()

end Caflow.Settlement
