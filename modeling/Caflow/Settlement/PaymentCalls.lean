import Caflow.Settlement.Payables
import Caflow.Currency.ForeignSettlement

set_option linter.all false

namespace Caflow.Settlement.Payables
open Currency Interrupted Tally Text

/-- A call of `create_foreign_payment_core`. The amounts are in the currency of the payment, which
has so many decimals; the rate is the one its cash is taken at. A payment in rupees never comes to
it. -/
structure ForeignCall where
  paymentId : String
  currency : String
  foreign : currency ≠ "INR"
  minor : ℕ
  rate : ℚ
  totalForeign : ℤ
  allocations : List AllocationIn

/-- A part of a foreign payment: its bill, the amount of it, and the rupees it takes off the bill. -/
structure Settled where
  billId : String
  foreign : ℤ
  apRelieved : ℤ
  deriving DecidableEq

def ForeignCall.asked (call : ForeignCall) : List AllocationIn :=
  call.allocations.filter (·.allocatedPaise > 0)

/-- The rate a bill is booked at. One that was never recorded is one. -/
def Bill.bookedRate (bill : Bill) : ℚ := if bill.exchangeRate = 0 then 1 else bill.exchangeRate

def Bill.foreignOut (bill : Bill) : ℤ := bill.txnNetPayable - bill.paidTxn

/-- The rupees a part takes off a bill: at its own rate, or all there are when it pays the rest. -/
def Bill.apRelieved (bill : Bill) (foreign : ℤ) (minor : ℕ) : ℤ :=
  relieved (bill.netPayablePaise - bill.paidPaise - bill.debitedPaise) bill.foreignOut foreign
    bill.bookedRate minor

/-- A part of a foreign payment as it is planned from what is read of its bill. -/
def ForeignCall.plan (call : ForeignCall) (a : AllocationIn) (bills : String → Option Bill) :
    Except Failure Settled :=
  let billId := a.purchaseBillId.getD "None"
  match payable billId (a.purchaseBillId.bind bills) with
  | .error failure => .error failure
  | .ok bill =>
    if upper bill.txnCurrency ≠ call.currency then
      .error (.http 422 ("Currency mismatch: payment is " ++ call.currency ++ " but bill " ++ billId ++
        " is billed in " ++ bill.txnCurrency ++ "."))
    else if a.allocatedPaise > bill.foreignOut then
      .error (.http 422 ("Allocation " ++ minorUnitsText a.allocatedPaise call.minor ++
        " exceeds bill " ++ billId ++ " outstanding " ++ minorUnitsText bill.foreignOut call.minor ++
        " " ++ call.currency ++ "."))
    else if a.allocatedPaise ≠ bill.foreignOut ∧ bill.bookedRate ≤ 0 then
      .error (.valueError "exchange rate must be positive")
    else .ok ⟨billId, a.allocatedPaise, bill.apRelieved a.allocatedPaise call.minor⟩

def totalApRelieved (plan : List Settled) : ℤ := (plan.map Settled.apRelieved).sum

def totalForeignSettled (plan : List Settled) : ℤ := (plan.map Settled.foreign).sum

def ForeignCall.cashBase (call : ForeignCall) : ℤ :=
  toBaseMinor call.totalForeign call.rate call.minor

def ForeignCall.settledCashBase (call : ForeignCall) (plan : List Settled) : ℤ :=
  toBaseMinor (totalForeignSettled plan) call.rate call.minor

/-- The part of the cash that settles no bill: an advance at the payment's own rate. -/
def ForeignCall.unallocBase (call : ForeignCall) (plan : List Settled) : ℤ :=
  call.cashBase - call.settledCashBase plan

/-- The realized gain, or the loss. -/
def ForeignCall.fxDiff (call : ForeignCall) (plan : List Settled) : ℤ :=
  totalApRelieved plan - call.settledCashBase plan

/-- The statement that a foreign payment comes to. -/
inductive ForeignPhase where
  | vendor
  | period
  /-- The currency and the rate. -/
  | policy
  | plan (rest : List AllocationIn) (plan : List Settled)
  | journal (plan : List Settled)
  | insertPayment (plan : List Settled)
  | readBill (plan : List Settled) (part : Settled) (rest : List Settled) (left : ℕ)
  | writeBill (plan : List Settled) (part : Settled) (rest : List Settled) (left : ℕ) (read : Bill)
  | insertAllocations (plan : List Settled)
  | insertFx (plan : List Settled)
  | compensate (failure : Failure)
  /-- Whether tax should have been withheld. -/
  | readVendor
  | finished
  | raised (failure : Failure)

def ForeignCall.recordFx (call : ForeignCall) (plan : List Settled) : ForeignPhase :=
  if call.fxDiff plan ≠ 0 then .insertFx plan else .readVendor

def ForeignCall.settleNext (call : ForeignCall) (plan : List Settled) : List Settled → ForeignPhase
  | part :: rest => .readBill plan part rest retries
  | [] => if plan = [] then call.recordFx plan else .insertAllocations plan

def ForeignCall.planned (call : ForeignCall) (plan : List Settled) : List AllocationIn → ForeignPhase
  | [] =>
    if totalForeignSettled plan > call.totalForeign then
      .raised (.http 422 "Allocated foreign exceeds the payment amount.")
    else .journal plan
  | rest => .plan rest plan

def ForeignCall.priced (call : ForeignCall) : ForeignPhase :=
  if call.rate ≤ 0 then .raised (.http 422 "Exchange rate must be positive.")
  else if call.totalForeign ≤ 0 then .raised (.http 422 "Payment amount must be positive.")
  else call.planned [] call.asked

/-- A bill once a part of a foreign payment is put on what was read of it. -/
def Bill.payingForeign (bill read : Bill) (part : Settled) : Bill :=
  { bill with
    paidPaise := read.paidPaise + part.apRelieved
    paidTxn := read.paidTxn + part.foreign
    status := if read.paidTxn + part.foreign ≥ read.txnNetPayable then .paid else .partiallyPaid }

def ForeignCall.row (call : ForeignCall) (plan : List Settled) : PaymentRow :=
  ⟨call.cashBase, call.unallocBase plan⟩

def ForeignCall.rows (call : ForeignCall) (plan : List Settled) : List PaymentAllocation :=
  plan.map fun part => ⟨call.paymentId, part.billId, part.apRelieved, some part.foreign⟩

def Tables.insertFx (tables : Tables) (row : FxAdjustment) : Tables :=
  { tables with fxAdjustments := tables.fxAdjustments ++ [row] }

/-- One statement of `create_foreign_payment_core`. -/
def foreignStep (call : ForeignCall) (tables : Tables) (phase : ForeignPhase)
    (reply : Outcome Failure) : Tables × ForeignPhase :=
  match phase with
  | .vendor => reading tables reply .raised .period
  | .period => reading tables reply .raised .policy
  | .policy => reading tables reply .raised call.priced
  | .plan [] plan => (tables, call.planned plan [])
  | .plan (a :: rest) plan =>
    reading tables reply .raised
      (match call.plan a tables.bills with
        | .error failure => .raised failure
        | .ok part => call.planned (plan ++ [part]) rest)
  | .journal plan => reading tables reply .raised (.insertPayment plan)
  | .insertPayment plan =>
    let inserted := tables.insertPayment call.paymentId (call.row plan)
    match reply with
    | .done => (inserted, call.settleNext plan plan)
    | .refused failure => (tables, .compensate failure)
    | .lost failure => (inserted, .compensate failure)
  | .readBill plan part rest left =>
    reading tables reply .compensate
      (match tables.bills part.billId with
        | none => call.settleNext plan rest
        | some read =>
          if read.paidTxn + part.foreign > read.txnNetPayable then .compensate (exceeds part.billId)
          else .writeBill plan part rest left read)
  | .writeBill plan part rest left read =>
    let written := tables.updateHeader part.billId (·.paidPaise = read.paidPaise)
      (·.payingForeign read part)
    match reply with
    | .refused failure => (tables, .compensate failure)
    | .lost failure => (written.getD tables, .compensate failure)
    | .done =>
      match written, left with
      | some tables, _ => (tables, call.settleNext plan rest)
      | none, 0 => (tables, .compensate (.http 409
          ("Bill " ++ part.billId ++ " is being updated concurrently — please retry.")))
      | none, left + 1 => (tables, .readBill plan part rest left)
  | .insertAllocations plan =>
    match reply, tables.insertAllocations (call.rows plan) with
    | .done, some inserted => (inserted, call.recordFx plan)
    | .done, none => (tables, .compensate collision)
    | .refused failure, _ => (tables, .compensate failure)
    | .lost failure, inserted => (inserted.getD tables, .compensate failure)
  | .insertFx plan =>
    let inserted := tables.insertFx ⟨call.paymentId, call.fxDiff plan⟩
    match reply with
    | .done => (inserted, .readVendor)
    | .refused failure => (tables, .compensate failure)
    | .lost failure => (inserted, .compensate failure)
  | .compensate failure =>
    match reply with
    | .refused _ => (tables, .raised failure)
    | .done | .lost _ => (tables.deletePayment call.paymentId, .raised failure)
  | .readVendor => reading tables reply .raised .finished
  | .finished | .raised _ => (tables, phase)

/-! ### The same plans on both sides of the books -/

def BillStatus.document : BillStatus → DocumentStatus
  | .draft => .draft
  | .received => .issued
  | .partiallyPaid => .partiallyPaid
  | .paid => .paid
  | .cancelled => .cancelled

def Bill.document (bill : Bill) : Document where
  status := bill.status.document
  totalPaise := bill.netPayablePaise
  paidPaise := bill.paidPaise
  loweredPaise := bill.debitedPaise
  raisedPaise := bill.creditNotePaise
  txnCurrency := bill.txnCurrency
  exchangeRate := bill.exchangeRate
  txnTotal := bill.txnNetPayable
  paidTxn := bill.paidTxn

/-- A foreign payment as a settlement, under the number and the accounts it is given. -/
def ForeignCall.settlement (call : ForeignCall)
    (entryDate referenceNo cashAccount controlAccount fxAccount : String) : Settlement where
  currency := call.currency
  minor := call.minor
  rate := call.rate
  totalForeign := call.totalForeign
  tdsPaise := 0
  allocations := call.allocations.map fun a => ⟨a.purchaseBillId, a.allocatedPaise⟩
  entryDate := entryDate
  referenceNo := referenceNo
  cashAccount := cashAccount
  controlAccount := controlAccount
  fxAccount := fxAccount

/-- A part is planned of a bill as it is planned of the bill's document. -/
theorem plan_document (call : ForeignCall) (a : AllocationIn) (bills : String → Option Bill)
    (entryDate referenceNo cashAccount controlAccount fxAccount : String) :
    ((call.settlement entryDate referenceNo cashAccount controlAccount fxAccount).plan .payable
        (fun billId => (bills billId).map Bill.document)
        ⟨a.purchaseBillId, a.allocatedPaise⟩).toOption =
      (call.plan a bills).toOption.map fun part => ⟨part.billId, part.foreign, part.apRelieved⟩ := by
  have hfound : a.purchaseBillId.bind (fun billId => (bills billId).map Bill.document) =
      (a.purchaseBillId.bind bills).map Bill.document := by
    cases a.purchaseBillId <;> rfl
  unfold Settlement.plan ForeignCall.plan
  dsimp only
  rw [hfound]
  cases a.purchaseBillId.bind bills with
  | none => rfl
  | some bill =>
    have hforeign : bill.document.foreignOut = bill.foreignOut := rfl
    have hrate : bill.document.bookedRate = bill.bookedRate := rfl
    have hcurrency : bill.document.txnCurrency = bill.txnCurrency := rfl
    have hstanding : bill.document.status = bill.status.document := rfl
    simp only [Option.map_some, hforeign, hrate, hcurrency, hstanding, ForeignCall.settlement]
    cases hstatus : bill.status <;>
      simp only [payable, hstatus, BillStatus.document, Side.closed, reduceCtorEq, if_false,
        if_true] <;>
      first
      | rfl
      | split_ifs <;> rfl

theorem paying_foreign_document (bill : Bill) (part : Settled) :
    (bill.payingForeign bill part).document = bill.document.settle part.apRelieved part.foreign := by
  simp only [Bill.payingForeign, Bill.document, Document.settle]
  by_cases hsettled : bill.paidTxn + part.foreign ≥ bill.txnNetPayable
  · simp only [hsettled, if_true]
    rfl
  · simp only [hsettled, if_false]
    rfl

/-- A call of `update_allocations_core`. -/
structure UpdateCall where
  paymentId : String
  allocations : List AllocationIn

def UpdateCall.totalRequested (call : UpdateCall) : ℤ :=
  (call.allocations.map AllocationIn.allocatedPaise).sum

def UpdateCall.named (call : UpdateCall) : List (String × ℤ) :=
  call.allocations.filterMap AllocationIn.named

def UpdateCall.rows (call : UpdateCall) : List PaymentAllocation :=
  call.named.map fun (billId, amount) => ⟨call.paymentId, billId, amount, none⟩

/-- Whether a re-allocation takes its earlier rows off the bills, or puts its new ones on. -/
inductive Side where
  | undo
  | redo

/-- The statement that a re-allocation comes to. -/
inductive UpdatePhase where
  | readPayment
  | readPrior (amountPaise : ℤ)
  | check (amountPaise : ℤ) (prior : List PaymentAllocation) (rest : List (String × ℤ))
  | adjustRead (amountPaise : ℤ) (side : Side) (billId : String) (delta : ℤ)
      (rest : List (String × ℤ)) (left : ℕ)
  | adjustWrite (amountPaise : ℤ) (side : Side) (billId : String) (delta : ℤ)
      (rest : List (String × ℤ)) (left : ℕ) (read : Bill)
  | deletePrior (amountPaise : ℤ)
  | insertAllocations (amountPaise : ℤ)
  | writePayment (amountPaise : ℤ)
  | finished
  | raised (failure : Failure)

def adjustRetries : ℕ := 4

/-- Where the loops of a re-allocation go. A change of nothing is passed by. -/
def UpdateCall.adjustNext (call : UpdateCall) (amountPaise : ℤ) (side : Side) :
    List (String × ℤ) → UpdatePhase
  | (billId, delta) :: rest =>
    if delta = 0 then call.adjustNext amountPaise side rest
    else .adjustRead amountPaise side billId delta rest adjustRetries
  | [] =>
    match side with
    | .undo => .deletePrior amountPaise
    | .redo => if call.named = [] then .writePayment amountPaise else .insertAllocations amountPaise

/-- What the earlier rows of a payment come off their bills by. -/
def takenOff (prior : List PaymentAllocation) : List (String × ℤ) :=
  prior.map fun a => (a.billId, -a.allocatedPaise)

def UpdateCall.checked (call : UpdateCall) (amountPaise : ℤ) (prior : List PaymentAllocation) :
    List (String × ℤ) → UpdatePhase
  | [] => call.adjustNext amountPaise .undo (takenOff prior)
  | rest => .check amountPaise prior rest

/-- What a payment's earlier rows have on a bill. -/
def priorOn (prior : List PaymentAllocation) (billId : String) : ℤ :=
  ((prior.filter (·.billId = billId)).map PaymentAllocation.allocatedPaise).sum

/-- A bill that can take what is asked for it, once the payment's earlier rows are off. -/
def allocatable (prior : List PaymentAllocation) (billId : String) (amount : ℤ)
    (bill : Option Bill) : Except Failure Bill :=
  match payable billId bill with
  | .error failure => .error failure
  | .ok bill =>
    let outstanding := bill.effectivePayable - bill.debitedPaise - bill.paidPaise +
      priorOn prior billId
    if amount > outstanding then
      .error (.http 422 ("Allocation (" ++ rupeeText amount ++ ") exceeds the bill's outstanding (" ++
        rupeeText (max outstanding 0) ++ ")."))
    else .ok bill

/-- A bill with a change put on what was read of its paid amount, which is never below nil. -/
def Bill.adjusted (bill read : Bill) (delta : ℤ) : Bill :=
  let newPaid := max (read.paidPaise + delta) 0
  { bill with
    paidPaise := newPaid
    status := if newPaid + read.debitedPaise ≥ read.effectivePayable then .paid
      else if newPaid > 0 then .partiallyPaid
      else .received }

def Tables.paymentRows (tables : Tables) (paymentId : String) : List PaymentAllocation :=
  tables.allocations.rows.filter (·.paymentId = paymentId)

def Tables.deleteAllocations (tables : Tables) (paymentId : String) : Tables :=
  { tables with allocations := tables.allocations.without paymentId }

def Tables.writeUnallocated (tables : Tables) (paymentId : String) (unallocatedPaise : ℤ) : Tables :=
  { tables with
    payments := fun id => (tables.payments id).map fun row =>
      if id = paymentId then { row with unallocatedPaise := unallocatedPaise } else row }

/-- One statement of `update_allocations_core`. -/
def updateStep (call : UpdateCall) (tables : Tables) (phase : UpdatePhase)
    (reply : Outcome Failure) : Tables × UpdatePhase :=
  match phase with
  | .readPayment =>
    reading tables reply .raised
      (match tables.payments call.paymentId with
        | none => .raised (.http 404 ("Payment " ++ call.paymentId ++ " not found"))
        | some row =>
          if call.totalRequested > row.amountPaise then
            .raised (.http 422 "Allocated amount exceeds payment amount")
          else .readPrior row.amountPaise)
  | .readPrior amountPaise =>
    reading tables reply .raised
      (call.checked amountPaise (tables.paymentRows call.paymentId) (grouped call.named))
  | .check amountPaise prior [] => (tables, call.checked amountPaise prior [])
  | .check amountPaise prior ((billId, amount) :: rest) =>
    reading tables reply .raised
      (match allocatable prior billId amount (tables.bills billId) with
        | .error failure => .raised failure
        | .ok _ => call.checked amountPaise prior rest)
  | .adjustRead amountPaise side billId delta rest left =>
    reading tables reply .raised
      (match tables.bills billId with
        | none => call.adjustNext amountPaise side rest
        | some read => .adjustWrite amountPaise side billId delta rest left read)
  | .adjustWrite amountPaise side billId delta rest left read =>
    let written := tables.updateHeader billId (·.paidPaise = read.paidPaise) (·.adjusted read delta)
    match reply with
    | .refused failure => (tables, .raised failure)
    | .lost failure => (written.getD tables, .raised failure)
    | .done =>
      match written, left with
      | some tables, _ => (tables, call.adjustNext amountPaise side rest)
      | none, 0 => (tables, .raised (.http 409
          ("Bill " ++ billId ++ " is being updated concurrently — please retry.")))
      | none, left + 1 => (tables, .adjustRead amountPaise side billId delta rest left)
  | .deletePrior amountPaise =>
    let deleted := tables.deleteAllocations call.paymentId
    match reply with
    | .done => (deleted, call.adjustNext amountPaise .redo call.named)
    | .refused failure => (tables, .raised failure)
    | .lost failure => (deleted, .raised failure)
  | .insertAllocations amountPaise =>
    match reply, tables.insertAllocations call.rows with
    | .done, some inserted => (inserted, .writePayment amountPaise)
    | .done, none => (tables, .raised .fault)
    | .refused failure, _ => (tables, .raised failure)
    | .lost failure, inserted => (inserted.getD tables, .raised failure)
  | .writePayment amountPaise =>
    let written := tables.writeUnallocated call.paymentId (amountPaise - call.totalRequested)
    match reply with
    | .done => (written, .finished)
    | .refused failure => (tables, .raised failure)
    | .lost failure => (written, .raised failure)
  | .finished | .raised _ => (tables, phase)

/-- A call on payments. -/
inductive Request where
  | createPayment (call : PaymentCall)
  | createForeignPayment (call : ForeignCall)
  | updateAllocations (call : UpdateCall)

end Caflow.Settlement.Payables
