import Caflow.Failure

namespace Caflow.Banking

inductive MatchStatus where
  | unmatched
  | matched
  | posted
  | ignored
  deriving DecidableEq

inductive EntityType where
  | salesInvoice
  | purchaseBill
  | receipt
  | purchasePayment
  | journalEntry
  | manual
  deriving DecidableEq

/-- A line of a bank statement: one side has an amount. -/
structure BankLine where
  debitPaise : ℤ
  creditPaise : ℤ
  matchStatus : MatchStatus
  postedJournalId : Option ℕ
  matchedEntityType : Option EntityType
  matchedEntityId : Option String
  category : Option String

def BankLine.amount (line : BankLine) : ℤ := max line.debitPaise line.creditPaise

def BankLine.isCredit (line : BankLine) : Prop := 0 < line.creditPaise

instance (line : BankLine) : Decidable line.isCredit :=
  inferInstanceAs (Decidable (0 < line.creditPaise))

def categories : List String :=
  ["Sales Receipt", "Customer Payment", "Vendor Payment", "Expense", "GST Payment", "Salary",
    "Loan", "Capital", "Transfer", "Interest", "Other"]

/-- The category a matched entity implies, where there is only one. -/
def matchDefaultCategory : EntityType → Option String
  | .salesInvoice | .receipt => some "Customer Payment"
  | .purchaseBill | .purchasePayment => some "Vendor Payment"
  | .journalEntry | .manual => none

/-- What a manual match writes. -/
def BankLine.matchedTo (line : BankLine) (entityType : EntityType) (entityId : String)
    (category : Option String) : BankLine :=
  { line with
    matchedEntityType := some entityType
    matchedEntityId := some entityId
    matchStatus := .matched
    category := category <|> line.category }

def BankLine.unmatched (line : BankLine) : BankLine :=
  { line with matchedEntityType := none, matchedEntityId := none, matchStatus := .unmatched }

/-- What the claim of a posted line writes. -/
def BankLine.postedBy (line : BankLine) (journalId : ℕ) : BankLine :=
  { line with matchStatus := .posted, postedJournalId := some journalId }

end Caflow.Banking
