import Caflow.Failure
import Caflow.Lib.Interleaving
import Caflow.Lib.Interrupted
import Caflow.Limits.SlidingWindow

namespace Caflow.Payments
open Interleaving Interrupted Limits

/-- The statuses a gateway's own are mapped onto. -/
inductive EventStatus where
  | created
  | authorized
  | captured
  | failed
  | refunded
  deriving DecidableEq

/-- A payment has the status of an event, or is being settled. -/
inductive PaymentStatus where
  | event (status : EventStatus)
  | capturing
  deriving DecidableEq

/-- A delivery, once its signature has been looked at and it has been read. -/
structure VerifiedEvent where
  provider : String
  eventId : String
  eventType : String
  status : EventStatus
  signatureVerified : Bool
  providerPaymentId : Option String
  providerOrderId : Option String
  providerLinkId : Option String
  amountPaise : Option ℤ

/-- Whose invoice a link and its payments are for. -/
structure Subject where
  firmId : String
  clientId : String
  customerId : String
  invoiceId : String

inductive LinkStatus where
  | created
  | active
  | paid
  | expired
  | cancelled

/-- A row of `customer_payment_links`. -/
structure PaymentLink where
  id : String
  subject : Subject
  amountPaise : ℤ
  provider : String
  providerLinkId : Option String
  providerOrderId : Option String
  status : LinkStatus

/-- A row of `customer_payments`; its id is its place, rows are only added. -/
structure Payment where
  subject : Subject
  linkId : Option String
  amountPaise : ℤ
  status : PaymentStatus
  provider : String
  providerPaymentId : Option String
  providerOrderId : Option String
  receiptId : Option ℕ

/-- A row of `customer_payment_events`. -/
structure EventRow where
  firmId : Option String
  paymentId : Option ℕ
  provider : String
  eventId : Option String
  eventType : String
  status : EventStatus
  signatureVerified : Bool
  createdAt : ℚ

/-- What a receipt is asked for with. -/
structure ReceiptData where
  clientId : String
  customerId : String
  amountPaise : ℤ
  paymentMode : String
  referenceNo : String
  notes : String
  allocations : List (String × ℤ)

/-- A receipt, with the payment and the delivery it was made for; its id is its place. -/
structure Receipt where
  payment : ℕ
  event : VerifiedEvent
  data : ReceiptData

/-- The columns of an invoice that say what is outstanding on it. -/
structure InvoiceFigures where
  totalPaise : ℤ
  debitNotePaise : ℤ
  paidPaise : ℤ
  creditedPaise : ℤ

/-- The tables, and what the process holds of the unsigned requests it has had. -/
structure Store where
  clock : ℚ
  links : List PaymentLink
  payments : List Payment
  events : List EventRow
  receipts : List Receipt
  perIp : Table
  samples : Table

structure Call where
  event : VerifiedEvent
  clientIp : Option String

inductive Answer where
  | rateLimited
  | invalidSignature
  | duplicate
  | ignored
  | ok (status : EventStatus) (payment : ℕ)

/-- Where a delivery stands: the statement it sends next, with what it has read so far. -/
inductive Phase where
  | received
  | verified
  | correlating
  | linking
  | ordering
  | opening (link : PaymentLink)
  | noting (known : Option (Payment × ℕ))
  | applying (payment : Payment) (id : ℕ)
  | settling (payment : Payment) (id : ℕ)
  | receipting (payment : Payment) (id : ℕ) (data : ReceiptData)
  | reverting (id : ℕ)
  | sealing (payment : Payment) (id receipt : ℕ)
  | paying (payment : Payment) (id : ℕ)
  | answered (answer : Answer)
  | raised

/-- What becomes of a statement: how long after the last one it comes, what others have done to the
links by then, whether the database carries it out, and the invoice it reads. -/
structure Reply where
  elapsed : ℚ
  elapsedPos : 0 ≤ elapsed
  meanwhile : List PaymentLink → List PaymentLink
  written : Outcome Failure
  invoice : Option InvoiceFigures

def outstanding (inv : InvoiceFigures) : ℤ :=
  inv.totalPaise + inv.debitNotePaise - inv.paidPaise - inv.creditedPaise

/-- A text that is there and not empty. -/
def given (text : Option String) : Option String := text.filter (· ≠ "")

/-- What a statement leaves that was to leave the tables so. -/
def carried (written : Outcome Failure) (before after : Store) : Store :=
  match written with
  | .refused _ => before
  | _ => after

def answeredBy (written : Outcome Failure) (next : Phase) : Phase :=
  match written with
  | .done => next
  | _ => .raised

def Store.eventSeen (store : Store) (provider eventId : String) : Bool :=
  store.events.any fun row => row.provider = provider ∧ row.eventId = some eventId

/-- An event is recorded unless one of its id is; the failure to is swallowed. -/
def Store.recordEvent (store : Store) (payment : Option ℕ) (event : VerifiedEvent)
    (firmId : Option String) (written : Outcome Failure) : Store :=
  if event.eventId ≠ "" ∧ store.eventSeen event.provider event.eventId then store
  else
    carried written store { store with
      events := store.events ++ [⟨firmId, payment, event.provider, given (some event.eventId),
        event.eventType, event.status, event.signatureVerified, store.clock⟩] }

def Store.findPayment (store : Store) (event : VerifiedEvent) : Option (Payment × ℕ) :=
  (given event.providerPaymentId).bind fun id => store.payments.zipIdx.find? fun p =>
    p.1.provider = event.provider ∧ p.1.providerPaymentId = some id

def findByLink (links : List PaymentLink) (event : VerifiedEvent) : Option PaymentLink :=
  (given event.providerLinkId).bind fun id => links.find? fun link =>
    link.provider = event.provider ∧ link.providerLinkId = some id

def findByOrder (links : List PaymentLink) (event : VerifiedEvent) : Option PaymentLink :=
  (given event.providerOrderId).bind fun id => links.find? fun link =>
    link.provider = event.provider ∧ link.providerOrderId = some id

/-- The payment a link's first event opens. -/
def newPayment (link : PaymentLink) (event : VerifiedEvent) : Payment where
  subject := link.subject
  linkId := some link.id
  amountPaise := if event.amountPaise.getD 0 = 0 then link.amountPaise else event.amountPaise.getD 0
  status := .event event.status
  provider := event.provider
  providerPaymentId := event.providerPaymentId
  providerOrderId := event.providerOrderId
  receiptId := none

/-- The row breaks no constraint: its amount is positive, and no other payment has its id of the
gateway's. -/
def Store.admits (store : Store) (payment : Payment) : Prop :=
  0 < payment.amountPaise ∧ (payment.providerPaymentId ≠ none →
    ∀ p ∈ store.payments, p.provider = payment.provider →
      p.providerPaymentId ≠ payment.providerPaymentId)

instance (store : Store) (payment : Payment) : Decidable (store.admits payment) :=
  inferInstanceAs (Decidable (_ ∧ (_ → ∀ _ ∈ _, _ → _)))

def Store.update (store : Store) (id : ℕ) (f : Payment → Payment) : Store :=
  { store with payments := store.payments.modify id f }

/-- A payment that a settlement may claim. -/
def Payment.Claimable (payment : Payment) : Prop :=
  payment.receiptId = none ∧ payment.status ≠ .capturing

instance (payment : Payment) : Decidable payment.Claimable :=
  inferInstanceAs (Decidable (_ ∧ _))

def Store.claimable (store : Store) (id : ℕ) : Bool :=
  (store.payments[id]?).any fun payment => payment.Claimable

/-- The receipt a payment is settled with, for as much of the invoice as it covers. -/
def settlement (payment : Payment) (id : ℕ) (invoice : Option InvoiceFigures) : ReceiptData :=
  let left := invoice.elim 0 outstanding
  let alloc := if 0 < left then min payment.amountPaise left else 0
  { clientId := payment.subject.clientId
    customerId := payment.subject.customerId
    amountPaise := payment.amountPaise
    paymentMode := "online"
    referenceNo := (given payment.providerPaymentId).getD (toString id)
    notes := "Online payment via " ++ payment.provider
    allocations := if 0 < alloc then [(payment.subject.invoiceId, alloc)] else [] }

/-- A capture settles its payment, unless what was read of it has a receipt already. -/
def settles (event : VerifiedEvent) (payment : Payment) : Prop :=
  event.status = .captured ∧ payment.receiptId = none

instance (event : VerifiedEvent) (payment : Payment) : Decidable (settles event payment) :=
  inferInstanceAs (Decidable (_ ∧ _))

def unsignedPerIp : SlidingWindowLimiter := .capped 100 60 ⟨by decide, by norm_num⟩

def unsignedSamples : SlidingWindowLimiter := .capped 20 3600 ⟨by decide, by norm_num⟩

def boundedSample (event : VerifiedEvent) : VerifiedEvent :=
  { event with eventId := String.ofList (event.eventId.toList.take 128) }

/-- An unsigned request is counted by its address, and leaves a row in a few cases. -/
def refuseUnsigned (store : Store) (call : Call) (written : Outcome Failure) : Store × Phase :=
  let ip := (given call.clientIp).getD "unknown"
  let budget := unsignedPerIp.hit store.perIp ip store.clock
  if budget.1 then
    let sample := unsignedSamples.hit store.samples "process" store.clock
    let store := { store with perIp := budget.2, samples := sample.2 }
    (if sample.1 then store.recordEvent none (boundedSample call.event) none written else store,
      .answered .invalidSignature)
  else ({ store with perIp := budget.2 }, .answered .rateLimited)

/-- The tables as a statement finds them. -/
def Store.later (store : Store) (r : Reply) : Store :=
  { store with
    clock := store.clock + r.elapsed
    links := r.meanwhile store.links }

/-- One statement of a delivery. -/
def advance (calls : ι → Call) (i : ι) (before : Store) (phase : Phase) (r : Reply) :
    Store × Phase :=
  let store := before.later r
  let event := (calls i).event
  match phase with
  | .received =>
    if event.signatureVerified then (store, .verified)
    else refuseUnsigned store (calls i) r.written
  | .verified =>
    if event.eventId = "" then (store, .correlating)
    else (store, answeredBy r.written
      (if store.eventSeen event.provider event.eventId then .answered .duplicate
      else .correlating))
  | .correlating =>
    if given event.providerPaymentId = none then (store, .linking)
    else (store, answeredBy r.written (match store.findPayment event with
      | some known => .noting (some known)
      | none => .linking))
  | .linking =>
    if given event.providerLinkId = none then (store, .ordering)
    else (store, answeredBy r.written (match findByLink store.links event with
      | some link => .opening link
      | none => .ordering))
  | .ordering =>
    if given event.providerOrderId = none then (store, .noting none)
    else (store, answeredBy r.written (match findByOrder store.links event with
      | some link => .opening link
      | none => .noting none))
  | .opening link =>
    let payment := newPayment link event
    if store.admits payment then
      (carried r.written store { store with payments := store.payments ++ [payment] },
        answeredBy r.written (.noting (some (payment, store.payments.length))))
    else (store, .raised)
  | .noting none => (store.recordEvent none event none r.written, .answered .ignored)
  | .noting (some known) =>
    (store.recordEvent (some known.2) event (some known.1.subject.firmId) r.written,
      .applying known.1 known.2)
  | .applying payment id =>
    if settles event payment then
      -- one conditional update, which matches no row where another delivery is settling it
      if store.claimable id then
        (carried r.written store (store.update id fun p => { p with status := .capturing }),
          answeredBy r.written (.settling payment id))
      else (store, answeredBy r.written (.answered (.ok event.status id)))
    else
      (carried r.written store (store.update id fun p => { p with status := .event event.status }),
        answeredBy r.written (.answered (.ok event.status id)))
  | .settling payment id =>
    match r.written with
    | .done => (store, .receipting payment id (settlement payment id r.invoice))
    | _ => (store, .reverting id)
  | .receipting payment id data =>
    let made := { store with receipts := store.receipts ++ [⟨id, event, data⟩] }
    match r.written with
    | .done => (made, .sealing payment id store.receipts.length)
    | _ => (carried r.written store made, .reverting id)
  | .reverting id =>
    (carried r.written store (store.update id fun p => { p with status := .event event.status }),
      .raised)
  | .sealing payment id receipt =>
    (carried r.written store (store.update id fun p =>
        { p with status := .event .captured, receiptId := some receipt }),
      answeredBy r.written (.paying payment id))
  | .paying payment id =>
    if payment.linkId = none then (store, .answered (.ok event.status id))
    else
      (carried r.written store { store with
          links := store.links.map fun link =>
            if some link.id = payment.linkId then { link with status := .paid } else link },
        answeredBy r.written (.answered (.ok event.status id)))
  | .answered answer => (store, .answered answer)
  | .raised => (store, .raised)

end Caflow.Payments
