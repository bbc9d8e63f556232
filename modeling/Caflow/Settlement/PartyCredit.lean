import Caflow.Settlement.Reversal

set_option linter.all false

namespace Caflow.Settlement.PartyCredit
open Text

inductive PartyType where
  | customer
  | vendor
  deriving DecidableEq

def PartyType.text : PartyType → String
  | .customer => "customer"
  | .vendor => "vendor"

inductive AppliedTo where
  | salesInvoice
  | purchaseBill
  deriving DecidableEq

def AppliedTo.text : AppliedTo → String
  | .salesInvoice => "sales_invoice"
  | .purchaseBill => "purchase_bill"

/-- Whose credit may settle a document. -/
def AppliedTo.partyType : AppliedTo → PartyType
  | .salesInvoice => .customer
  | .purchaseBill => .vendor

structure Party where
  type : PartyType
  id : String
  deriving DecidableEq

/-- The columns of an invoice or a bill that a credit looks at. `netPayablePaise` is a bill's. -/
structure Target where
  partyId : String
  totalPaise : ℤ
  netPayablePaise : ℤ
  raisedPaise : ℤ
  notedPaise : ℤ
  paidPaise : ℤ
  status : DocumentStatus

def invoiceOutstanding (doc : Target) : ℤ :=
  max (doc.totalPaise + doc.raisedPaise - doc.paidPaise - doc.notedPaise) 0

def billOutstanding (doc : Target) : ℤ :=
  let netPayable := if doc.netPayablePaise ≠ 0 then doc.netPayablePaise else doc.totalPaise
  max (netPayable + doc.raisedPaise - doc.paidPaise - doc.notedPaise) 0

def outstanding (doc : Target) : AppliedTo → ℤ
  | .salesInvoice => invoiceOutstanding doc
  | .purchaseBill => billOutstanding doc

inductive Operation where
  | grant (sourceType : String) (sourceId : Option String)
  | revoke (sourceType : String) (sourceId : Option String)
  | apply (appliedTo : AppliedTo) (documentId : String)
  deriving DecidableEq

/-- One call of `grant_credit`, `revoke_credit` or `apply_credit`. -/
structure CreditCall where
  operation : Operation
  amountPaise : ℤ

/-- What a call does to the balance. -/
def CreditCall.delta (call : CreditCall) : ℤ :=
  match call.operation with
  | .grant _ _ => call.amountPaise
  | .revoke _ _ | .apply _ _ => -call.amountPaise

inductive RowKind where
  | grant
  | revocation
  | application

structure LedgerRow where
  amountPaise : ℤ
  kind : RowKind
  sourceType : Option String
  sourceId : Option String
  appliedTo : Option (AppliedTo × String)

def CreditCall.row (call : CreditCall) : LedgerRow :=
  match call.operation with
  | .grant sourceType sourceId => ⟨call.delta, .grant, some sourceType, sourceId, none⟩
  | .revoke sourceType sourceId => ⟨call.delta, .revocation, some sourceType, sourceId, none⟩
  | .apply appliedTo documentId => ⟨call.delta, .application, none, none, some (appliedTo, documentId)⟩

def maxRetries : ℕ := 5

/-- What a call that raised has left behind it. -/
structure Residue where
  balance : ℤ
  ledger : ℤ
  document : ℤ

/-- Where a call stands: the statement it comes to, with the attempts left after this one. -/
inductive Phase where
  | readBalance (left : ℕ)
  | writeBalance (left : ℕ) (held : Option ℤ)
  | readDocument (left : ℕ)
  | writeDocument (left : ℕ) (read : Target)
  /-- The document was not settled, or its answer was lost: what was put on it is carried along. -/
  | readToRestore (left : ℕ) (failure : Failure) (put : ℤ)
  | restore (left : ℕ) (held : ℤ) (failure : Failure) (put : ℤ)
  | writeLedger
  | finished
  | raised (failure : Failure) (residue : Residue)

/-- What becomes of a statement. -/
inductive Answer where
  | answered
  | failed
  /-- It was carried out and its answer never came back. -/
  | lost
  deriving DecidableEq

/-- The rows of one party's credit, and the documents of its client. -/
structure Tables where
  balance : Option ℤ
  documents : AppliedTo → String → Option Target
  ledger : List LedgerRow

def Tables.setDocument (tables : Tables) (appliedTo : AppliedTo) (documentId : String)
    (doc : Target) : Tables :=
  { tables with
    documents := fun t id => if t = appliedTo ∧ id = documentId then some doc
      else tables.documents t id }

theorem set_document_same (tables : Tables) (appliedTo : AppliedTo) (documentId : String)
    (doc : Target) :
    (tables.setDocument appliedTo documentId doc).documents appliedTo documentId = some doc :=
  if_pos ⟨rfl, rfl⟩

theorem set_document_other {t : AppliedTo} {id : String} (tables : Tables) (doc : Target)
    (h : ¬ (t = appliedTo ∧ id = documentId)) :
    (tables.setDocument appliedTo documentId doc).documents t id = tables.documents t id :=
  if_neg h

def concurrently : Failure :=
  .http 409 "Party credit balance is being updated concurrently — please retry."

/-- Where a call that has not settled its document goes: to give the credit back. -/
def giveBack (failure : Failure) (put : ℤ) : Phase := .readToRestore (maxRetries - 1) failure put

def untouched : Residue := ⟨0, 0, 0⟩

section
variable (party : Party) (call : CreditCall)

/-- Where a call starts: what it checks before it reads anything. -/
def begin : Phase :=
  match call.operation with
  | .apply appliedTo _ =>
    if call.amountPaise ≤ 0 then .raised (.http 422 "amount_paise must be positive") untouched
    else if party.type ≠ appliedTo.partyType then
      .raised (.http 422 ("A " ++ party.type.text ++ " credit cannot be applied to a " ++
        appliedTo.text ++ ".")) untouched
    else .readBalance (maxRetries - 1)
  | _ =>
    if call.amountPaise ≤ 0 then .raised (.http 422 "amount_paise must be positive") untouched
    else .readBalance (maxRetries - 1)

/-- The balance is read: a grant needs none, a revocation and an application enough. -/
def balanceRead (balance : Option ℤ) (left : ℕ) : Phase :=
  match call.operation, balance with
  | .grant _ _, held => .writeBalance left held
  | .revoke _ _, held =>
    if held.getD 0 < call.amountPaise then
      .raised (.http 409 ("This " ++ party.type.text ++ "'s credit of " ++
        rupeeText call.amountPaise ++ " has already been used against an invoice (only " ++
        rupeeText (held.getD 0) ++ " left). Undo that application first.")) untouched
    else .writeBalance left held
  | .apply _ _, none => .raised (.http 422 "This party has no credit balance.") untouched
  | .apply _ _, some held =>
    if call.amountPaise > held then
      .raised (.http 422 ("Requested application (" ++ rupeeText call.amountPaise ++
        ") exceeds the available credit (" ++ rupeeText held ++ ").")) untouched
    else .writeBalance left (some held)

/-- What a call does once its balance write is answered. -/
def balanceWritten : Phase :=
  match call.operation with
  | .grant _ _ | .revoke _ _ => .writeLedger
  | .apply _ _ => .readDocument (maxRetries - 1)

/-- The document is read: it is the party's, with room for the amount. -/
def documentRead (doc : Option Target) (appliedTo : AppliedTo) (documentId : String) (left : ℕ) :
    Phase :=
  match doc with
  | none => giveBack (.http 422 (appliedTo.text ++ " " ++ documentId ++
      " is not part of this client's books.")) 0
  | some doc =>
    if doc.partyId ≠ party.id then
      giveBack (.http 422 ("This credit belongs to a different " ++ party.type.text ++
        " than the one on " ++ appliedTo.text ++ " " ++ documentId ++ ".")) 0
    else if call.amountPaise > outstanding doc appliedTo then
      giveBack (.http 422 (appliedTo.text ++ " " ++ documentId ++
        ": application would exceed its outstanding (" ++
        rupeeText (outstanding doc appliedTo) ++ ").")) 0
    else .writeDocument left doc

/-- A document with the amount put on it. -/
def Target.settled (doc read : Target) (appliedTo : AppliedTo) (amountPaise : ℤ) : Target :=
  { doc with
    paidPaise := read.paidPaise + amountPaise
    status := if amountPaise ≥ outstanding read appliedTo then .paid else .partiallyPaid }

/-- The statement a call comes to, and what becomes of it. -/
def advance (tables : Tables) (phase : Phase) (reply : Answer) : Tables × Phase :=
  match phase with
  | .readBalance left =>
    match reply with
    | .answered => (tables, balanceRead party call tables.balance left)
    | _ => (tables, .raised .fault untouched)
  | .writeBalance left held =>
    match reply with
    | .failed => (tables, .raised .fault untouched)
    | reply =>
      -- a row that another grant made first, or that moved since it was read, is left alone
      if tables.balance = held then
        ({ tables with balance := some (held.getD 0 + call.delta) },
          if reply = .lost then .raised .fault ⟨call.delta, 0, 0⟩ else balanceWritten call)
      else
        (tables,
          if reply = .lost then .raised .fault untouched
          else match left with
            | 0 => .raised concurrently untouched
            | left + 1 => .readBalance left)
  | .readDocument left =>
    match call.operation, reply with
    | .apply appliedTo documentId, .answered =>
      (tables, documentRead party call (tables.documents appliedTo documentId) appliedTo
        documentId left)
    | _, _ => (tables, giveBack .fault 0)
  | .writeDocument left read =>
    match call.operation, reply with
    | .apply appliedTo documentId, .answered =>
      match (tables.documents appliedTo documentId).filter
          (fun doc => doc.paidPaise = read.paidPaise) with
      | some doc =>
        (tables.setDocument appliedTo documentId (doc.settled read appliedTo call.amountPaise),
          .writeLedger)
      | none =>
        (tables, match left with
          | 0 => giveBack (.http 409 (appliedTo.text ++ " " ++ documentId ++
              " is being updated concurrently — please retry.")) 0
          | left + 1 => .readDocument left)
    | .apply appliedTo documentId, .lost =>
      match (tables.documents appliedTo documentId).filter
          (fun doc => doc.paidPaise = read.paidPaise) with
      | some doc =>
        (tables.setDocument appliedTo documentId (doc.settled read appliedTo call.amountPaise),
          giveBack .fault call.amountPaise)
      | none => (tables, giveBack .fault 0)
    | _, _ => (tables, giveBack .fault 0)
  | .readToRestore left failure put =>
    match reply, tables.balance with
    | .answered, some held => (tables, .restore left held failure put)
    | .answered, none => (tables, .raised failure ⟨call.delta, 0, put⟩)
    | _, _ => (tables, .raised .fault ⟨call.delta, 0, put⟩)
  | .restore left held failure put =>
    match reply with
    | .failed => (tables, .raised .fault ⟨call.delta, 0, put⟩)
    | reply =>
      if tables.balance = some held then
        ({ tables with balance := some (held + call.amountPaise) },
          .raised (if reply = .lost then .fault else failure) ⟨0, 0, put⟩)
      else
        (tables,
          if reply = .lost then .raised .fault ⟨call.delta, 0, put⟩
          -- the credit is not given back, and the failure that asked for it is raised
          else match left with
            | 0 => .raised failure ⟨call.delta, 0, put⟩
            | left + 1 => .readToRestore left failure put)
  | .writeLedger =>
    let put := match call.operation with
      | .apply _ _ => call.amountPaise
      | _ => 0
    match reply with
    | .answered => ({ tables with ledger := tables.ledger ++ [call.row] }, .finished)
    | .failed => (tables, .raised .fault ⟨call.delta, 0, put⟩)
    | .lost =>
      ({ tables with ledger := tables.ledger ++ [call.row] },
        .raised .fault ⟨call.delta, call.delta, put⟩)
  | .finished | .raised _ _ => (tables, phase)

end

variable {ι : Type} [DecidableEq ι]

structure State (ι : Type) where
  tables : Tables
  phase : ι → Phase

def start (party : Party) (calls : ι → CreditCall) (tables : Tables) : State ι :=
  ⟨tables, fun i => begin party (calls i)⟩

/-- One statement of one call. -/
def step (party : Party) (calls : ι → CreditCall) (s : State ι) (event : ι × Answer) : State ι :=
  let next := advance party (calls event.1) s.tables (s.phase event.1) event.2
  ⟨next.1, Function.update s.phase event.1 next.2⟩

def run (party : Party) (calls : ι → CreditCall) (s : State ι) (events : List (ι × Answer)) :
    State ι := events.foldl (step party calls) s

end Caflow.Settlement.PartyCredit
