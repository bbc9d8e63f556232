import Caflow.Failure
import Caflow.Lib.Interleaving
import Caflow.Lib.IsoDate
import Caflow.Receivables.LateInterest

namespace Caflow.Receivables.InterestDrafts
open Calendar (Day)
open Interleaving LateInterest

/-- A row of the sales invoices, with the rates its lines carry. A prepared draft is one too. -/
structure Invoice where
  id : String
  customerId : String
  invoiceNo : String
  invoiceDate : Option Day
  dueDate : Option Day
  outstandingPaise : ℤ
  status : String
  deleted : Bool
  isInterstate : Bool
  supplyStateCode : String
  supplyType : String
  invoiceType : String
  isReverseCharge : Bool
  lineRatesBps : List ℤ

/-- What a draft was prepared for: an overdue invoice's interest, for the days after one date up to
another. Its draft is not named once that row is gone. -/
structure Charge where
  id : ℕ
  salesInvoiceId : String
  interestInvoiceId : Option String
  periodFrom : Day
  periodTo : Day
  days : ℤ
  outstandingPaise : ℤ
  rateBps : ℤ
  interestPaise : ℤ

structure Store where
  invoices : List Invoice
  charges : List Charge
  terms : String → Terms
  drawn : ℕ

/-- An invoice that is neither deleted nor cancelled. -/
def Invoice.Stands (row : Invoice) : Prop := row.deleted = false ∧ row.status ≠ "cancelled"

instance (row : Invoice) : Decidable row.Stands := inferInstanceAs (Decidable (_ ∧ _))

/-- A charge stands while its draft does. -/
def Charge.Stands (invoices : List Invoice) (c : Charge) : Prop :=
  ∃ row ∈ invoices, some row.id = c.interestInvoiceId ∧ row.Stands

instance (invoices : List Invoice) (c : Charge) : Decidable (c.Stands invoices) :=
  inferInstanceAs (Decidable (∃ row ∈ invoices, _))

def standingOn (store : Store) (invoiceId : String) : List Charge :=
  store.charges.filter fun c => c.Stands store.invoices ∧ c.salesInvoiceId = invoiceId

/-- The date an invoice's interest is charged through by the drafts that stand. -/
def chargedThrough (store : Store) (invoiceId : String) : Option Day :=
  ((standingOn store invoiceId).map Charge.periodTo).max?

def isInterestInvoice (store : Store) (invoiceId : String) : Bool :=
  store.charges.any fun c => c.Stands store.invoices ∧ c.interestInvoiceId = some invoiceId

def openInvoices (store : Store) (customerId : String) : List Invoice :=
  store.invoices.filter fun row => row.customerId = customerId ∧ row.deleted = false ∧
    row.status ≠ "draft" ∧ row.status ≠ "cancelled" ∧ 0 < row.outstandingPaise

/-- A document of the preview, with the invoice it is about. -/
structure PreviewRow where
  invoice : Invoice
  result : DocumentInterest

def previewRow (store : Store) (terms : Terms) (asOf : Day) (row : Invoice) : PreviewRow where
  invoice := row
  result :=
    if isInterestInvoice store row.id then
      .nil .interestInvoice (some ("This is an interest invoice. Interest is simple, so it is " ++
        "never charged on interest."))
    else documentInterest row.outstandingPaise row.invoiceDate row.dueDate terms asOf
      (chargedThrough store row.id)

/-- The documents of a customer that has terms: those that are late, and the interest drafts. -/
def partyPreview (store : Store) (customerId : String) (terms : Terms) (asOf : Day) :
    List PreviewRow :=
  (((openInvoices store customerId).map (previewRow store terms asOf)).filter fun r =>
    r.result.status ≠ .notOverdue).insertionSort fun a b =>
      toLex (-a.result.daysLate, a.invoice.invoiceNo) ≤
        toLex (-b.result.daysLate, b.invoice.invoiceNo)

/-- An invoice with interest due. -/
structure Chargeable where
  invoice : Invoice
  interestPaise : ℤ
  periodFrom : Day
  periodTo : Day
  days : ℤ
  rateBps : ℤ

/-- The one rate of an invoice's lines. -/
def Invoice.gstRateBps (row : Invoice) : Option ℤ :=
  match row.lineRatesBps.dedup with
  | [rate] => some rate
  | _ => none

/-- Why no draft can be made for a document. -/
def blockReason (row : Invoice) : Option String :=
  if row.supplyType ≠ "taxable" ∨ row.invoiceType ≠ "Regular" ∨ row.isReverseCharge then
    some ("Invoice " ++ row.invoiceNo ++ " is not an ordinary domestic taxable supply (export, " ++
      "SEZ, exempt, nil-rated or reverse charge). Interest follows the treatment of the supply " ++
      "it arises from (CGST Act s.15(2)(d) [S]), which a draft cannot reproduce — raise it by " ++
      "hand.")
  else if 2 ≤ row.lineRatesBps.dedup.length then
    some ("Invoice " ++ row.invoiceNo ++ " has lines at more than one GST rate, so the interest " ++
      "would have to be apportioned between them. That is a judgement, not a computation — " ++
      "raise it by hand.")
  else if row.gstRateBps = none then
    some ("Invoice " ++ row.invoiceNo ++ " has no lines to take a GST rate from.")
  else none

/-- What makes one draft's tax right: one rate and one place of supply. -/
def groupKey (doc : Chargeable) : ℤ ×ₗ Bool ×ₗ String :=
  toLex (doc.invoice.gstRateBps.getD 0,
    toLex (doc.invoice.isInterstate, doc.invoice.supplyStateCode))

def planDrafts (chargeable : List Chargeable) : List (List Chargeable) × List String :=
  let drafted := chargeable.filter fun doc => blockReason doc.invoice = none
  (((drafted.map groupKey).dedup.insertionSort (· ≤ ·)).map fun key =>
      (drafted.filter fun doc => groupKey doc = key).insertionSort fun a b =>
        a.invoice.invoiceNo ≤ b.invoice.invoiceNo,
    chargeable.filterMap fun doc => blockReason doc.invoice)

def isoDate (d : Day) : String :=
  String.ofList (IsoDate.digits 4 d.year ++ '-' :: (IsoDate.digits 2 d.month ++
    '-' :: IsoDate.digits 2 d.day))

/-- What a caller asks for: the interest of one customer to a date, of all its invoices or some. -/
structure Request where
  customerId : String
  asOf : Day
  invoiceIds : Option (List String)

def chargeableOf (rate : ℤ) (r : PreviewRow) : Option Chargeable :=
  match r.result.status, r.result.periodFrom, r.result.periodTo with
  | .charge, some periodFrom, some periodTo =>
    some ⟨r.invoice, r.result.interestPaise, periodFrom, periodTo, r.result.daysCharged, rate⟩
  | _, _, _ => none

/-- Whether the customer of no terms has an invoice past its date. -/
def anyOverdue (store : Store) (request : Request) : Bool :=
  (openInvoices store request.customerId).any fun row =>
    isInterestInvoice store row.id ∨
      (row.dueDate.or row.invoiceDate).any fun due => due < request.asOf

/-- What is read before the first draft: the drafts there are to make. -/
def plan (store : Store) (request : Request) : Except Failure (List (List Chargeable)) :=
  let nothingOverdue := Except.error (.http 409 ("This customer has nothing overdue as at " ++
    isoDate request.asOf ++ ", so there is no interest to charge."))
  let terms := store.terms request.customerId
  match terms.rateBps with
  | none =>
    if anyOverdue store request then
      .error (.http 422 ("This customer has no interest rate on record, so no interest is " ++
        "computed and none can be drafted. Record the rate first."))
    else nothingOverdue
  | some rate =>
    let rows := partyPreview store request.customerId terms request.asOf
    let due := (rows.filterMap (chargeableOf rate)).filter fun doc =>
      request.invoiceIds.all fun ids => ids.contains doc.invoice.id
    let covered := rows.countP fun r => r.result.status = .covered
    let planned := planDrafts due
    if rows = [] then nothingOverdue
    else if due = [] then
      .error (.http 409 ("There is no interest to charge as at " ++ isoDate request.asOf ++ "." ++
        if covered = 0 then ""
        else " A draft already covers the days up to this date for " ++ toString covered ++
          " invoice(s)."))
    else if planned.1 = [] then .error (.http 422 (" ".intercalate planned.2))
    else .ok planned.1

/-- The claims whose draft is gone, where they hold a key a draft is about to claim. -/
def staleClaims (store : Store) (group : List Chargeable) : List ℕ :=
  (store.charges.filter fun c => ¬ c.Stands store.invoices ∧
    ∃ doc ∈ group, doc.invoice.id = c.salesInvoiceId ∧ doc.periodTo = c.periodTo).map Charge.id

/-- The unique key of the charges. -/
def Charge.key (c : Charge) : String × Day := (c.salesInvoiceId, c.periodTo)

def claimOf (draftId : String) (id : ℕ) (doc : Chargeable) : Charge where
  id := id
  salesInvoiceId := doc.invoice.id
  interestInvoiceId := some draftId
  periodFrom := doc.periodFrom
  periodTo := doc.periodTo
  days := doc.days
  outstandingPaise := doc.invoice.outstandingPaise
  rateBps := doc.rateBps
  interestPaise := doc.interestPaise

/-- The claims of one draft, in one statement: all of them, or none where one meets a key. -/
def claim (store : Store) (draftId : String) (group : List Chargeable) : Option Store :=
  let charges := store.charges ++ (group.zipIdx store.drawn).map fun p => claimOf draftId p.2 p.1
  if (charges.map Charge.key).Nodup then
    some { store with charges := charges, drawn := store.drawn + group.length }
  else none

/-- A row that goes leaves no charge naming it. -/
def Store.withInvoices (store : Store) (invoices : List Invoice) : Store :=
  { store with
    invoices := invoices
    charges := store.charges.map fun c =>
      if ∃ row ∈ invoices, some row.id = c.interestInvoiceId then c
      else { c with interestInvoiceId := none } }

/-- Takes back a draft that nobody has issued. -/
def deleteDraft (store : Store) (draftId : String) : Store :=
  store.withInvoices (store.invoices.filter fun row => ¬ (row.id = draftId ∧ row.status = "draft"))

/-- Where a call stands: what it has still to draft, and the draft in its hand. -/
inductive Phase where
  | asking
  | drafting (groups : List (List Chargeable))
  | releasing (draftId : String) (group : List Chargeable) (groups : List (List Chargeable))
  | clearing (draftId : String) (stale : List ℕ) (group : List Chargeable)
      (groups : List (List Chargeable))
  | withdrawing (draftId : String) (groups : List (List Chargeable))
  | answered

/-- What becomes of a statement: it is done, the sales engine makes a draft, it is refused, or it is
done and the answer is lost. The other doors write the invoices and the terms. -/
inductive Reply where
  | done
  | made (row : Invoice)
  | refused
  | lost
  | booked (invoices : List Invoice) (terms : String → Terms)

/-- One statement of a call that prepares drafts. -/
def prepare (request : Request) (store : Store) (reply : Reply) : Phase → Store × Phase
  | .asking =>
    match reply, plan store request with
    | .done, .ok groups => (store, .drafting groups)
    | _, _ => (store, .answered)
  | .drafting [] => (store, .answered)
  | .drafting (group :: groups) =>
    match reply with
    | .made row =>
      ({ store with invoices := store.invoices ++ [row] }, .releasing row.id group groups)
    | _ => (store, .drafting groups)
  | .releasing draftId group groups =>
    match reply with
    | .done => (store, .clearing draftId (staleClaims store group) group groups)
    | _ => (store, .withdrawing draftId groups)
  | .clearing draftId (id :: stale) group groups =>
    let cleared := { store with charges := store.charges.filter fun c => c.id ≠ id }
    match reply with
    | .done => (cleared, .clearing draftId stale group groups)
    | .lost => (cleared, .withdrawing draftId groups)
    | _ => (store, .withdrawing draftId groups)
  | .clearing draftId [] group groups =>
    match reply, claim store draftId group with
    | .done, some claimed => (claimed, .drafting groups)
    | .lost, some claimed => (claimed, .withdrawing draftId groups)
    | _, _ => (store, .withdrawing draftId groups)
  | .withdrawing draftId groups =>
    match reply with
    | .done => (deleteDraft store draftId, .drafting groups)
    | _ => (store, .drafting groups)
  | .answered => (store, .answered)

/-- One statement of a caller: of one that prepares drafts, or of the other doors. -/
def advance (callers : ι → Option Request) (i : ι) (store : Store) (phase : Phase) (reply : Reply) :
    Store × Phase :=
  match callers i, reply with
  | some request, reply => prepare request store reply phase
  | none, .booked invoices terms => ({ store.withInvoices invoices with terms := terms }, phase)
  | none, _ => (store, phase)

end Caflow.Receivables.InterestDrafts
