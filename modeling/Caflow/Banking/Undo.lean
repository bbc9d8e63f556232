import Caflow.Banking.Line
import Caflow.Accounting.ReverseEntry
import Caflow.Settlement.PartyCredit
import Caflow.Lib.Tally

set_option linter.all false

namespace Caflow.Banking.Undo
open Accounting Kernel Kernel.Reversal Settlement Settlement.PartyCredit

/-- A line of a bank statement that is matched to an invoice or a bill. -/
structure Line where
  id : String
  transactionDate : String
  debitPaise : ℤ
  creditPaise : ℤ
  category : Option String
  matchedType : AppliedTo
  matchStatus : MatchStatus
  postedJournalId : Option String

def Line.amount (line : Line) : ℤ := max line.debitPaise line.creditPaise

def Line.isCredit (line : Line) : Bool := 0 < line.creditPaise

def settlingCategories : AppliedTo → List String
  | .salesInvoice => ["Customer Payment", "Sales Receipt"]
  | .purchaseBill => ["Vendor Payment"]

/-- Posting the line settles the document it is matched to. -/
def Line.settlesDocument (line : Line) : Bool :=
  line.category.any fun c => c ∈ settlingCategories line.matchedType

def Line.reference (line : Line) : String := "BANK-" ++ line.id

/-- What a call finds besides the rows it reads: the day, the dates that are closed, what refuses
the line, and the accounts it is posted to. `otherPlan` is for a line that settles nothing. -/
structure Setting where
  today : String
  closed : String → Option Failure
  returnFiled : Option Failure
  foreign : Option Failure
  certified : Option Failure
  kernelRefusal : String → Option Failure
  isSplit : Bool
  bankAccount : Except Failure String
  counterAccount : Except Failure String
  otherPlan : Option ℤ → Except Failure (String × List JournalLine)

/-- A call goes on where nothing refuses it. -/
def unlessRefused (refusal : Option Failure) : Except Failure Unit := refusal.elim (.ok ()) .error

/-- Two lines, by the direction of the money. -/
def buildLines (amount : ℤ) (isCredit : Bool) (bank counter : String) :
    Except Failure (List JournalLine) :=
  if amount ≤ 0 then .error (.http 422 "Posting amount must be positive.")
  else if bank = "" ∨ counter = "" then
    .error (.http 422 "Both bank and counter accounts are required.")
  else if bank = counter then
    .error (.http 422 ("A bank line cannot be booked to the account its own statement " ++
      "belongs to — that would debit and credit the same ledger and classify nothing."))
  else if isCredit then .ok [⟨bank, amount, 0⟩, ⟨counter, 0, amount⟩]
  else .ok [⟨counter, amount, 0⟩, ⟨bank, 0, amount⟩]

def splitAndRate : Failure :=
  .http 422 ("A GST split and a multi-account split cannot be combined yet. " ++
    "Post the GST separately, or split without a GST rate.")

def splitAndSettled : Failure :=
  .http 422 ("This transaction is matched to an invoice or bill, so it settles " ++
    "that document in full. Unmatch it before splitting it across accounts.")

def rateAndSettled : Failure :=
  .http 422 ("This transaction settles an invoice or bill, which already " ++
    "carries its own GST. Adding a rate here would count that tax " ++
    "twice. Unmatch it first if the GST belongs on the bank line.")

/-- The type of the entry and its lines. -/
def plan (now : Setting) (line : Line) (gstRate : Option ℤ) :
    Except Failure (String × List JournalLine) :=
  if line.amount ≤ 0 then .error (.http 422 "Transaction has zero amount.")
  else if !line.settlesDocument then now.otherPlan gstRate
  else
    match now.bankAccount with
    | .error failure => .error failure
    | .ok bank =>
      if now.isSplit then .error (if gstRate.isSome then splitAndRate else splitAndSettled)
      else match now.counterAccount with
        | .error failure => .error failure
        | .ok counter =>
          if gstRate.isSome then .error rateAndSettled
          else (buildLines line.amount line.isCredit bank counter).map
            (if line.isCredit then "Receipt" else "Payment", ·)

/-- The line, the document it is matched to, the credits of the client's parties, and the client's
entries. -/
structure Store where
  line : Line
  document : Target
  balances : Party → Option ℤ
  credits : List (Party × LedgerRow)
  entries : List Entry

def Store.party (store : Store) : Party := ⟨store.line.matchedType.partyType, store.document.partyId⟩

def getBalance (store : Store) (party : Party) : ℤ := (store.balances party).getD 0

def Store.record (store : Store) (party : Party) (call : CreditCall) : Store :=
  { store with
    balances := Function.update store.balances party (some (getBalance store party + call.delta))
    credits := store.credits ++ [(party, call.row)] }

/-- A grant or a revocation that no other call runs beside. -/
def Store.credit (store : Store) (party : Party) (call : CreditCall) : Except Failure Store :=
  match begin party call, balanceRead party call (store.balances party) 0 with
  | .raised failure _, _ | _, .raised failure _ => .error failure
  | _, _ => .ok (store.record party call)

def overpayment : String := "bank_overpayment"

/-- What an event granted and took back, row by row. -/
def sourceRows (credits : List (Party × LedgerRow)) (sourceType sourceId : String) :
    List (Party × ℤ) :=
  (credits.filter fun r => r.2.sourceType = some sourceType ∧ r.2.sourceId = some sourceId).map
    fun r => (r.1, r.2.amountPaise)

/-- What an event granted and has not taken back, by party. -/
def outstandingForSource (credits : List (Party × LedgerRow)) (sourceType sourceId : String) :
    List (Party × ℤ) :=
  (Tally.grouped (sourceRows credits sourceType sourceId)).filter (0 < ·.2)

/-- The document takes what it still owes, and the rest of the line becomes a credit. -/
def Store.settleDoc (store : Store) : Except Failure Store :=
  let owed := outstanding store.document store.line.matchedType
  let alloc := min store.line.amount owed
  let excess := store.line.amount - alloc
  let settled : Target :=
    if alloc ≤ 0 then store.document
    else { store.document with
      paidPaise := store.document.paidPaise + alloc
      status := if owed ≤ alloc then .paid else .partiallyPaid }
  if 0 < excess then
    (store.credit store.party ⟨.grant overpayment (some store.line.id), excess⟩).map
      ({ · with document := settled })
  else .ok { store with document := settled }

/-- The line is claimed as posted, and its document settled. -/
def Store.settleOnPost (store : Store) (journalId : String) : Except Failure Store :=
  let claimed := { store with
    line := { store.line with matchStatus := .posted, postedJournalId := some journalId } }
  if store.line.settlesDocument then claimed.settleDoc else .ok claimed

/-- What a line is posted by. -/
def Line.posting (line : Line) (entryType : String) (lines : List JournalLine) : Posting where
  entryDate := line.transactionDate
  referenceNo := line.reference
  entryType := entryType
  lines := lines
  isPosted := true
  sourceType := some "bank_transaction"
  sourceId := some line.id
  mustMatch := none

def post (ids : ℕ ↪ String) (now : Setting) (gstRate : Option ℤ) (store : Store) :
    Except Failure Store :=
  if store.line.postedJournalId.isSome ∨ store.line.matchStatus = .posted then
    .error (.http 409 "A journal has already been created for this transaction.")
  else do
    unlessRefused (now.closed store.line.transactionDate)
    unlessRefused (if gstRate.any (· ≠ 0) then now.returnFiled else none)
    unlessRefused now.foreign
    let planned ← plan now store.line gstRate
    let created := createJournal ⟨ids, now.kernelRefusal⟩ .sound store.entries
      (store.line.posting planned.1 planned.2) none
    let journalId ← created.1
    { store with entries := created.2 }.settleOnPost journalId

/-- The original date while it is open, the day itself otherwise. -/
def reversalDate (now : Setting) (originalDate : String) : Except Failure String :=
  match now.closed originalDate, now.closed now.today with
  | none, _ => .ok originalDate
  | some _, none => .ok now.today
  | some _, some failure => .error failure

/-- What an undo asks before it writes: the entry to reverse, and the date of its reversal. -/
def undoChecks (now : Setting) (store : Store) : Except Failure (String × String) :=
  match store.line.postedJournalId with
  | some journalId =>
    if store.line.matchStatus ≠ .posted then
      .error (.http 409 "This transaction is not posted, so there is nothing to undo.")
    else
      let entry := store.entries.find? (·.id = journalId)
      match now.certified with
      | some failure => .error failure
      | none =>
        if entry.any fun e => e.sourceType ≠ none ∧ e.sourceType ≠ some "bank_transaction" then
          .error (.http 422 ("This line was settled across several documents, which created a " ++
            "receipt. Cancel that receipt to undo it — undoing only the bank line would leave " ++
            "the receipt's allocations pointing at nothing."))
        else (reversalDate now ((entry.map Entry.entryDate).getD store.line.transactionDate)).map
          (journalId, ·)
  | none => .error (.http 409 "This transaction is not posted, so there is nothing to undo.")

/-- The writes of an undo, in their order. -/
inductive Stage where
  | reversal
  | revocation
  | giveBack
  | putBack

def stages : List Stage := [.reversal, .revocation, .giveBack, .putBack]

/-- The entry is reversed unless an earlier attempt did it. -/
def Store.reversed (ids : ℕ ↪ String) (now : Setting) (journalId date : String) (store : Store) :
    Except Failure Store :=
  if store.entries.any (·.reversalOf = some journalId) then .ok store
  else
    let (answer, entries) := reverseEntry ⟨ids, now.kernelRefusal⟩ .sound store.entries journalId date
    answer.map fun _ => { store with entries := entries }

/-- What is left of the credit the line granted is taken back. -/
def Store.revoked (store : Store) : Except Failure Store :=
  (outstandingForSource store.credits overpayment store.line.id).foldlM
    (fun store granted =>
      store.credit granted.1 ⟨.revoke overpayment (some store.line.id), granted.2⟩) store

def unpaidStatus : AppliedTo → DocumentStatus
  | .salesInvoice => .issued
  | .purchaseBill => .received

/-- The document is given back the line's amount, or as much as it shows as paid. -/
def Store.unsettled (store : Store) : Store :=
  let back := min store.line.amount store.document.paidPaise
  let paid := store.document.paidPaise - back
  if store.line.settlesDocument ∧ 0 < back then
    { store with
      document := { store.document with
        paidPaise := paid
        status :=
          if paid ≤ 0 then
            if store.document.status = .other "draft" ∨ store.document.status = .other "cancelled"
            then store.document.status else unpaidStatus store.line.matchedType
          else if outstanding { store.document with paidPaise := paid } store.line.matchedType ≤ 0
          then .paid else .partiallyPaid } }
  else store

def Store.putBack (store : Store) : Store :=
  { store with line := { store.line with matchStatus := .matched, postedJournalId := none } }

def carryOut (ids : ℕ ↪ String) (now : Setting) (journalId date : String) (store : Store) :
    Stage → Except Failure Store
  | .reversal => store.reversed ids now journalId date
  | .revocation => store.revoked
  | .giveBack => .ok store.unsettled
  | .putBack => .ok store.putBack

/-- A call of `undo` that ends after some of its writes. -/
def undoUntil (ids : ℕ ↪ String) (now : Setting) (written : ℕ) (store : Store) :
    Except Failure Store := do
  let (journalId, date) ← undoChecks now store
  (stages.take written).foldlM (carryOut ids now journalId date) store

def undo (ids : ℕ ↪ String) (now : Setting) (store : Store) : Except Failure Store :=
  undoUntil ids now stages.length store

inductive Call where
  | post (now : Setting) (gstRate : Option ℤ)
  | undo (now : Setting)

def step (ids : ℕ ↪ String) (store : Store) : Call → Except Failure Store
  | .post now gstRate => post ids now gstRate store
  | .undo now => undo ids now store

def run (ids : ℕ ↪ String) (calls : List Call) (store : Store) : Except Failure Store :=
  calls.foldlM (step ids) store

end Caflow.Banking.Undo
