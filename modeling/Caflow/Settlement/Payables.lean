import Caflow.Failure
import Caflow.Text
import Caflow.Lib.Interrupted
import Caflow.Lib.Interleaving
import Caflow.Lib.Tally

set_option linter.all false

namespace Caflow.Settlement.Payables
open Interrupted Tally Text

inductive BillStatus where
  | draft
  | received
  | partiallyPaid
  | paid
  | cancelled
  deriving DecidableEq

def BillStatus.text : BillStatus → String
  | .draft => "draft"
  | .received => "received"
  | .partiallyPaid => "partially_paid"
  | .paid => "paid"
  | .cancelled => "cancelled"

/-- The header of a purchase bill. The last four columns are in the currency it is billed in. -/
structure Bill where
  status : BillStatus
  isOpening : Bool
  netPayablePaise : ℤ
  paidPaise : ℤ
  debitedPaise : ℤ
  creditNotePaise : ℤ
  txnCurrency : String
  exchangeRate : ℚ
  txnNetPayable : ℤ
  paidTxn : ℤ
  deriving DecidableEq

/-- What is payable on a bill: a credit note of the vendor raises it. -/
def Bill.effectivePayable (bill : Bill) : ℤ := bill.netPayablePaise + bill.creditNotePaise

structure PaymentRow where
  amountPaise : ℤ
  unallocatedPaise : ℤ
  deriving DecidableEq

structure PaymentAllocation where
  paymentId : String
  billId : String
  allocatedPaise : ℤ
  allocatedTxn : Option ℤ

/-- The allocations of payments, one for a bill of a payment. -/
structure PaymentAllocations where
  rows : List PaymentAllocation
  unique : (rows.map fun a => (a.paymentId, a.billId)).Nodup

def PaymentAllocations.empty : PaymentAllocations := ⟨[], List.nodup_nil⟩

@[simp] theorem PaymentAllocations.empty_rows : PaymentAllocations.empty.rows = [] := rfl

/-- The rows of the other payments. -/
def PaymentAllocations.without (allocations : PaymentAllocations) (paymentId : String) :
    PaymentAllocations where
  rows := allocations.rows.filter (·.paymentId ≠ paymentId)
  unique := allocations.unique.sublist (List.filter_sublist.map _)

inductive NoteStatus where
  | draft
  | issued
  deriving DecidableEq

/-- A debit note. None is made with a total that is not positive. -/
structure DebitNote where
  id : String
  purchaseBillId : Option String
  totalPaise : ℤ
  status : NoteStatus
  appliedPaise : ℤ
  positive : 0 < totalPaise
  deriving DecidableEq

structure DebitNotes where
  rows : List DebitNote
  unique : (rows.map DebitNote.id).Nodup

def DebitNotes.empty : DebitNotes := ⟨[], List.nodup_nil⟩

@[simp] theorem DebitNotes.empty_rows : DebitNotes.empty.rows = [] := rfl

structure NoteAllocation where
  noteId : String
  billId : String
  allocatedPaise : ℤ

/-- The applications of debit notes, one for a bill of a note. -/
structure NoteAllocations where
  rows : List NoteAllocation
  unique : (rows.map fun a => (a.noteId, a.billId)).Nodup

def NoteAllocations.empty : NoteAllocations := ⟨[], List.nodup_nil⟩

@[simp] theorem NoteAllocations.empty_rows : NoteAllocations.empty.rows = [] := rfl

/-- What the rupees of a payment in another currency gained or lost on the bills it settled. -/
structure FxAdjustment where
  paymentId : String
  baseDeltaPaise : ℤ

/-- The tables of one client's purchases. -/
structure Tables where
  bills : String → Option Bill
  payments : String → Option PaymentRow
  allocations : PaymentAllocations
  fxAdjustments : List FxAdjustment
  notes : DebitNotes
  noteAllocations : NoteAllocations

/-- An update of a bill's header, if there is one that the guard lets through. -/
def Tables.updateHeader (tables : Tables) (billId : String) (expect : Bill → Prop)
    [DecidablePred expect] (values : Bill → Bill) : Option Tables :=
  match tables.bills billId with
  | some bill =>
    if expect bill then
      some { tables with bills := Function.update tables.bills billId (some (values bill)) }
    else none
  | none => none

/-- One bill that a request allocates to. A missing id and a blank one are alike. -/
structure AllocationIn where
  purchaseBillId : Option String
  allocatedPaise : ℤ
  deriving DecidableEq

/-- The bill and the amount of a request's row, unless the loops pass it by. -/
def AllocationIn.named (a : AllocationIn) : Option (String × ℤ) :=
  match a.purchaseBillId with
  | some billId => if a.allocatedPaise > 0 then some (billId, a.allocatedPaise) else none
  | none => none

/-- A call of `create_payment_core` in rupees, with the id its payment is given. -/
structure PaymentCall where
  paymentId : String
  amountPaise : ℤ
  allocations : List AllocationIn
  deriving DecidableEq

def PaymentCall.totalAllocated (call : PaymentCall) : ℤ :=
  (call.allocations.map AllocationIn.allocatedPaise).sum

def PaymentCall.unallocatedPaise (call : PaymentCall) : ℤ := call.amountPaise - call.totalAllocated

/-- The rows that name a bill and an amount. -/
def PaymentCall.named (call : PaymentCall) : List (String × ℤ) :=
  call.allocations.filterMap AllocationIn.named

/-- The statement that a payment comes to, with the attempts left after this one. -/
inductive PayPhase where
  | vendor
  | period
  | checkStatus (rest : List (String × ℤ))
  | prevalidate (rest : List (String × ℤ))
  /-- The tax, the number and the journal. -/
  | journal
  | insertPayment
  | readBill (billId : String) (amount : ℤ) (rest : List (String × ℤ)) (left : ℕ)
  | writeBill (billId : String) (amount : ℤ) (rest : List (String × ℤ)) (left : ℕ) (read : Bill)
  | insertAllocations
  | compensate (failure : Failure)
  | finished
  | raised (failure : Failure)
  deriving DecidableEq

def retries : ℕ := 5

/-- Where a payment's loop over its bills goes. -/
def settleNext (call : PaymentCall) : List (String × ℤ) → PayPhase
  | (billId, amount) :: rest => .readBill billId amount rest retries
  | [] => if call.named = [] then .finished else .insertAllocations

/-- A read: the call goes on or raises. -/
def reading (tables : Tables) (reply : Outcome Failure) (raise : Failure → π) (next : π) :
    Tables × π :=
  match reply with
  | .done => (tables, next)
  | .refused failure | .lost failure => (tables, raise failure)

def opened (call : PaymentCall) : PayPhase :=
  if call.amountPaise ≤ 0 then .raised (.http 422 "Payment amount must be positive.")
  else if call.totalAllocated > call.amountPaise then
    .raised (.http 422 ("Total allocated (" ++ rupeeText call.totalAllocated ++
      ") exceeds payment amount (" ++ rupeeText call.amountPaise ++ ")."))
  else .period

/-- A bill that can be paid is the client's, and neither cancelled nor a draft. -/
def payable (billId : String) (bill : Option Bill) : Except Failure Bill :=
  match bill with
  | none => .error (.http 422 ("Bill " ++ billId ++ " is not part of this client's books."))
  | some bill =>
    if bill.status = .cancelled then
      .error (.http 409 ("Bill " ++ billId ++ " is cancelled and cannot be paid."))
    else if bill.status = .draft then
      .error (.http 409 ("Bill " ++ billId ++ " is still a draft and has not been received yet."))
    else .ok bill

def exceeds (billId : String) : Failure :=
  .http 422 ("Bill " ++ billId ++ ": allocation would exceed bill outstanding")

def statusChecked (call : PaymentCall) : List (String × ℤ) → PayPhase
  | [] => if call.named = [] then .journal else .prevalidate (grouped call.named)
  | rest => .checkStatus rest

def prevalidated : List (String × ℤ) → PayPhase
  | [] => .journal
  | rest => .prevalidate rest

/-- A bill once a payment's amount is put on what was read of it. -/
def Bill.paying (bill read : Bill) (amount : ℤ) : Bill :=
  { bill with
    paidPaise := read.paidPaise + amount
    status := if read.paidPaise + amount + read.debitedPaise ≥ read.effectivePayable then .paid
      else .partiallyPaid }

def Tables.insertPayment (tables : Tables) (paymentId : String) (row : PaymentRow) : Tables :=
  { tables with payments := Function.update tables.payments paymentId (some row) }

/-- The allocation rows go with the payment. -/
def Tables.deletePayment (tables : Tables) (paymentId : String) : Tables :=
  { tables with
    payments := Function.update tables.payments paymentId none
    allocations := tables.allocations.without paymentId }

/-- Rows are inserted together, or none where two would be for one bill of one payment. -/
def Tables.insertAllocations (tables : Tables) (added : List PaymentAllocation) : Option Tables :=
  if h : ((tables.allocations.rows ++ added).map fun a => (a.paymentId, a.billId)).Nodup then
    some { tables with allocations := ⟨tables.allocations.rows ++ added, h⟩ }
  else none

def PaymentCall.rows (call : PaymentCall) : List PaymentAllocation :=
  call.named.map fun (billId, amount) => ⟨call.paymentId, billId, amount, none⟩

def collision : Failure := .http 409 "A payment numbering collision was detected; please retry."

/-- One statement of `create_payment_core`. -/
def payStep (call : PaymentCall) (tables : Tables) (phase : PayPhase) (reply : Outcome Failure) :
    Tables × PayPhase :=
  match phase with
  | .vendor => reading tables reply .raised (opened call)
  | .period => reading tables reply .raised (statusChecked call call.named)
  | .checkStatus [] => (tables, statusChecked call [])
  | .checkStatus ((billId, _) :: rest) =>
    reading tables reply .raised
      (match payable billId (tables.bills billId) with
        | .error failure => .raised failure
        | .ok _ => statusChecked call rest)
  | .prevalidate [] => (tables, .journal)
  | .prevalidate ((billId, amount) :: rest) =>
    reading tables reply .raised
      (match tables.bills billId with
        | none => prevalidated rest
        | some bill =>
          if bill.paidPaise + bill.debitedPaise + amount > bill.effectivePayable then
            .raised (exceeds billId)
          else prevalidated rest)
  | .journal => reading tables reply .raised .insertPayment
  | .insertPayment =>
    let inserted := tables.insertPayment call.paymentId ⟨call.amountPaise, call.unallocatedPaise⟩
    match reply with
    | .done => (inserted, settleNext call call.named)
    | .refused failure => (tables, .compensate failure)
    | .lost failure => (inserted, .compensate failure)
  | .readBill billId amount rest left =>
    reading tables reply .compensate
      (match tables.bills billId with
        | none => settleNext call rest
        | some read =>
          if read.paidPaise + amount + read.debitedPaise > read.effectivePayable then
            .compensate (exceeds billId)
          else .writeBill billId amount rest left read)
  | .writeBill billId amount rest left read =>
    let written := tables.updateHeader billId (·.paidPaise = read.paidPaise) (·.paying read amount)
    match reply with
    | .refused failure => (tables, .compensate failure)
    | .lost failure => (written.getD tables, .compensate failure)
    | .done =>
      match written, left with
      | some tables, _ => (tables, settleNext call rest)
      | none, 0 => (tables, .compensate (.http 409
          ("Bill " ++ billId ++ " is being paid concurrently — please retry.")))
      | none, left + 1 => (tables, .readBill billId amount rest left)
  | .insertAllocations =>
    match reply, tables.insertAllocations call.rows with
    | .done, some inserted => (inserted, .finished)
    | .done, none => (tables, .compensate collision)
    | .refused failure, _ => (tables, .compensate failure)
    | .lost failure, inserted => (inserted.getD tables, .compensate failure)
  | .compensate failure =>
    -- what fails in here is only logged
    match reply with
    | .refused _ => (tables, .raised failure)
    | .done | .lost _ => (tables.deletePayment call.paymentId, .raised failure)
  | .finished | .raised _ => (tables, phase)

/-- The statement that issuing a debit note comes to. -/
inductive NotePhase where
  | readNote
  | checks (note : DebitNote)
  | readBill (note : DebitNote) (billId : String) (left : ℕ)
  | writeBill (note : DebitNote) (billId : String) (left : ℕ) (read : Bill)
  | insertAllocation (note : DebitNote) (billId : String) (read : Bill)
  /-- The application could not be recorded. -/
  | undoUnrecorded (note : DebitNote) (billId : String) (read : Bill) (failure : Failure)
  | journal (note : DebitNote) (prior : Option (String × Bill))
  | deleteAllocation (note : DebitNote) (billId : String) (read : Bill) (failure : Failure)
  /-- The journal could not be posted. -/
  | undoUnposted (note : DebitNote) (billId : String) (read : Bill) (failure : Failure)
  | writeNote (note : DebitNote) (applied : Option String)
  | finished
  | raised (failure : Failure)
  deriving DecidableEq

def noteRefusal : String :=
  "That bill was carried over from the system this client migrated from, so its GST was charged " ++
    "and declared there. A section 34 note here would adjust tax this client's own returns never " ++
    "carried. Raise the note in the system that issued the bill, or correct the opening balance instead."

/-- A bill that a debit note can be put on, with room for its total. -/
def debitable (note : DebitNote) (bill : Option Bill) : Except Failure Bill :=
  match bill with
  | none => .error (.http 422 "Linked bill is not part of this client's books.")
  | some bill =>
    if bill.status = .draft ∨ bill.status = .cancelled then
      .error (.http 422 ("Cannot debit-note a " ++ bill.status.text ++ " bill."))
    else if bill.isOpening then .error (.http 422 noteRefusal)
    else
      let outstanding := bill.effectivePayable - bill.paidPaise - bill.debitedPaise
      if note.totalPaise > outstanding then
        .error (.http 422 ("Debit note (" ++ rupeeText note.totalPaise ++
          ") exceeds the bill's outstanding (" ++ rupeeText outstanding ++ ")."))
      else .ok bill

/-- A bill once a debit note's total is put on what was read of it. -/
def Bill.debiting (bill read : Bill) (total : ℤ) : Bill :=
  let settled := read.paidPaise + (read.debitedPaise + total)
  { bill with
    debitedPaise := read.debitedPaise + total
    status := if settled ≥ read.effectivePayable then .paid
      else if settled > 0 then .partiallyPaid
      else read.status }

/-- A bill given back what was read of it before a debit note. -/
def Bill.restored (bill read : Bill) : Bill :=
  { bill with debitedPaise := read.debitedPaise, status := read.status }

/-- A rollback's update names no amount that it expects. -/
def Tables.restoreBill (tables : Tables) (billId : String) (read : Bill) : Tables :=
  (tables.updateHeader billId (fun _ => True) (·.restored read)).getD tables

def Tables.insertNoteAllocation (tables : Tables) (added : NoteAllocation) : Option Tables :=
  if h : ((tables.noteAllocations.rows ++ [added]).map fun a => (a.noteId, a.billId)).Nodup then
    some { tables with noteAllocations := ⟨tables.noteAllocations.rows ++ [added], h⟩ }
  else none

def Tables.deleteNoteAllocation (tables : Tables) (noteId billId : String) : Tables :=
  { tables with
    noteAllocations :=
      { rows := tables.noteAllocations.rows.filter fun a => ¬ (a.noteId = noteId ∧ a.billId = billId)
        unique := tables.noteAllocations.unique.sublist (List.filter_sublist.map _) } }

def DebitNote.issue (note : DebitNote) (applied : ℤ) : DebitNote :=
  { note with status := .issued, appliedPaise := applied }

def DebitNotes.issue (notes : DebitNotes) (noteId : String) (applied : ℤ) : DebitNotes where
  rows := notes.rows.map fun n => if n.id = noteId then n.issue applied else n
  unique := by
    rw [List.map_map]
    convert notes.unique using 1
    apply List.map_congr_left
    intro n _
    dsimp only [Function.comp]
    split <;> rfl

def Tables.issueNote (tables : Tables) (noteId : String) (applied : ℤ) : Tables :=
  { tables with notes := tables.notes.issue noteId applied }

/-- A note that names its bill is put on it. -/
def checked (note : DebitNote) : NotePhase :=
  match note.purchaseBillId with
  | some billId => if note.totalPaise > 0 then .readBill note billId retries else .journal note none
  | none => .journal note none

def unposted (note : DebitNote) (prior : Option (String × Bill)) (failure : Failure) : NotePhase :=
  match prior with
  | some (billId, read) => .deleteAllocation note billId read failure
  | none => .raised failure

/-- One statement of `issue_debit_note`. -/
def noteStep (noteId : String) (tables : Tables) (phase : NotePhase) (reply : Outcome Failure) :
    Tables × NotePhase :=
  match phase with
  | .readNote =>
    reading tables reply .raised
      (match tables.notes.rows.find? (·.id = noteId) with
        | none => .raised (.http 404 ("Debit note " ++ noteId ++ " not found"))
        | some note =>
          if note.status ≠ .draft then .raised (.http 422 "Only draft debit notes can be issued")
          else .checks note)
  | .checks note => reading tables reply .raised (checked note)
  | .readBill note billId left =>
    reading tables reply .raised
      (match debitable note (tables.bills billId) with
        | .error failure => .raised failure
        | .ok read => .writeBill note billId left read)
  | .writeBill note billId left read =>
    let written := tables.updateHeader billId (·.debitedPaise = read.debitedPaise)
      (·.debiting read note.totalPaise)
    match reply with
    | .refused failure => (tables, .raised failure)
    | .lost failure => (written.getD tables, .raised failure)
    | .done =>
      match written, left with
      | some tables, _ => (tables, .insertAllocation note billId read)
      | none, 0 => (tables, .raised (.http 409
          ("Bill " ++ billId ++ " is being updated concurrently — please retry.")))
      | none, left + 1 => (tables, .readBill note billId left)
  | .insertAllocation note billId read =>
    match reply, tables.insertNoteAllocation ⟨noteId, billId, note.totalPaise⟩ with
    | .done, some inserted => (inserted, .journal note (some (billId, read)))
    | .done, none => (tables, .undoUnrecorded note billId read .fault)
    | .refused failure, _ => (tables, .undoUnrecorded note billId read failure)
    | .lost failure, inserted => (inserted.getD tables, .undoUnrecorded note billId read failure)
  | .undoUnrecorded _ billId read failure =>
    match reply with
    | .done => (tables.restoreBill billId read, .raised failure)
    | .refused failure => (tables, .raised failure)
    | .lost failure => (tables.restoreBill billId read, .raised failure)
  | .journal note prior =>
    reading tables reply (unposted note prior) (.writeNote note (prior.map Prod.fst))
  | .deleteAllocation note billId read failure =>
    match reply with
    | .done => (tables.deleteNoteAllocation noteId billId, .undoUnposted note billId read failure)
    | .refused _ => (tables, .raised failure)
    | .lost _ => (tables.deleteNoteAllocation noteId billId, .raised failure)
  | .undoUnposted _ billId read failure =>
    match reply with
    | .refused _ => (tables, .raised failure)
    | .done | .lost _ => (tables.restoreBill billId read, .raised failure)
  | .writeNote note applied =>
    let issued := tables.issueNote noteId (if applied.isSome then note.totalPaise else 0)
    match reply with
    | .done => (issued, .finished)
    | .refused failure => (tables, .raised failure)
    | .lost failure => (issued, .raised failure)
  | .finished | .raised _ => (tables, phase)

/-- Where a call on the purchases stands. -/
inductive Phase where
  | paying (call : PaymentCall) (phase : PayPhase)
  | noting (noteId : String) (phase : NotePhase)
  deriving DecidableEq

def advance (tables : Tables) (phase : Phase) (reply : Outcome Failure) : Tables × Phase :=
  match phase with
  | .paying call phase =>
    let next := payStep call tables phase reply
    (next.1, .paying call next.2)
  | .noting noteId phase =>
    let next := noteStep noteId tables phase reply
    (next.1, .noting noteId next.2)

/-- A payment or a debit note, about to begin. -/
inductive BillCall where
  | createPayment (call : PaymentCall)
  | issueDebitNote (noteId : String)

def BillCall.begin : BillCall → Phase
  | .createPayment call => .paying call .vendor
  | .issueDebitNote noteId => .noting noteId .readNote

end Caflow.Settlement.Payables
