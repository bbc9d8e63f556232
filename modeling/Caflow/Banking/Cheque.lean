import Caflow.Failure
import Caflow.Lib.IsoDate
import Caflow.Text

namespace Caflow.Banking
open Text
open IsoDate (Date)

inductive Direction where
  | received
  | issued
  deriving DecidableEq

inductive ChequeStatus where
  | held
  | converted
  | cancelled
  deriving DecidableEq

/-- A document a cheque is meant for, and how much of it. -/
structure Allocation where
  documentId : String
  allocatedPaise : ℤ
  deriving DecidableEq

def cleanAllocations (allocations : List Allocation) : List Allocation :=
  allocations.map fun a => ⟨a.documentId, a.allocatedPaise⟩

@[simp] theorem clean_allocations_eq (allocations : List Allocation) :
    cleanAllocations allocations = allocations := List.map_id allocations

def normaliseChequeNo (chequeNo : String) : String := squeeze chequeNo

/-- A row of the register. Every writer squeezes the number before it is stored. -/
structure Cheque where
  direction : Direction
  partyId : String
  chequeNo : String
  chequeDate : Date
  amountPaise : ℤ
  draweeBank : Option String
  bankAccountId : Option String
  allocations : List Allocation
  status : ChequeStatus
  notes : Option String
  convertedDocumentId : Option String
  numbered : normaliseChequeNo chequeNo = chequeNo

/-- What a text is kept as: stripped, and nothing where nothing is left. -/
def blankless (text : Option String) : Option String :=
  let stripped := strip (text.getD "")
  if stripped = "" then none else some stripped

def chequeNoProblem (chequeNo : String) : Option String :=
  if strip chequeNo = "" then
    some "A cheque needs its number: it is how one cheque is told from the next."
  else none

def allocationKey : Direction → String
  | .received => "sales_invoice_id"
  | .issued => "purchase_bill_id"

/-- The shape of the intended allocations, the documents seen and the total so far carried along. -/
def allocationsProblemFrom (direction : Direction) (amountPaise : ℤ) :
    List Allocation → List String → ℤ → Option String
  | [], _, total =>
    if amountPaise < total then
      some ("The allocations add up to more than the cheque (" ++ rupeeText total ++ " against " ++
        rupeeText amountPaise ++ ").")
    else none
  | a :: rest, seen, total =>
    if a.documentId = "" then
      some ("Each allocation names its " ++ (if direction = .received then "invoice" else "bill") ++
        " (" ++ allocationKey direction ++ ").")
    else if a.documentId ∈ seen then
      some "The same document is listed twice; combine the amounts into one line."
    else if a.allocatedPaise ≤ 0 then
      some "Each allocation is a positive whole number of paise."
    else
      allocationsProblemFrom direction amountPaise rest (a.documentId :: seen)
        (total + a.allocatedPaise)

def allocationsProblem (direction : Direction) (allocations : List Allocation) (amountPaise : ℤ) :
    Option String :=
  allocationsProblemFrom direction amountPaise allocations [] 0

def shapeProblem (direction : Direction) (chequeNo : String) (amountPaise : ℤ)
    (allocations : List Allocation) : Option String :=
  match chequeNoProblem chequeNo with
  | some problem => some problem
  | none =>
    if amountPaise ≤ 0 then some "The amount is a positive number of paise."
    else allocationsProblem direction allocations amountPaise

/-- Why a cheque may not become a receipt or payment yet. -/
def conversionProblem (status : ChequeStatus) (chequeDate presentedOn today : Date) :
    Option String :=
  match status with
  | .converted =>
    some "This cheque has already been converted. Its receipt or payment is on the register."
  | .cancelled =>
    some "This cheque was cancelled, so it cannot be converted. Record it again if it is real."
  | .held =>
    if today < chequeDate then
      some ("This cheque is dated " ++ chequeDate.text ++ " and is not due until then. A " ++
        "post-dated cheque is a memorandum until its date: it posts nothing, " ++
        "so there is nothing to convert yet.")
    else if presentedOn < chequeDate then
      some ("A cheque dated " ++ chequeDate.text ++ " cannot have been presented on " ++
        presentedOn.text ++ ", before its own date.")
    else if today < presentedOn then
      some (presentedOn.text ++ " is in the future. Record the day the cheque " ++
        "was actually presented.")
    else none

/-- The text the receipt or payment carries about where it came from. -/
def engineNotes (cheque : Cheque) : String :=
  let drawee := strip (cheque.draweeBank.getD "")
  let drawn := if drawee = "" then "" else " drawn on " ++ drawee
  let head := "Post-dated cheque " ++ normaliseChequeNo cheque.chequeNo ++ drawn ++ ", dated " ++
    cheque.chequeDate.text ++ ", " ++
    (if cheque.direction = .received then "received" else "issued") ++
    "; converted from the post-dated cheque register."
  strip (head ++ " " ++ strip (cheque.notes.getD ""))

/-- What the receipt or payment engine is handed. -/
structure EnginePayload where
  partyId : String
  documentDate : Date
  amountPaise : ℤ
  tdsPaise : ℤ
  referenceNo : String
  notes : String
  allocations : List Allocation
  bankAccountId : Option String

def enginePayload (row : Cheque) (presentedOn : Date) : Direction × EnginePayload :=
  (row.direction,
    { partyId := row.partyId
      documentDate := presentedOn
      amountPaise := row.amountPaise
      tdsPaise := 0
      referenceNo := normaliseChequeNo row.chequeNo
      notes := engineNotes row
      allocations := cleanAllocations row.allocations
      bankAccountId := row.bankAccountId })

/-- An edit: a field that is not named stays. -/
structure Changes where
  chequeNo : Option String
  chequeDate : Option Date
  amountPaise : Option ℤ
  draweeBank : Option (Option String)
  bankAccountId : Option (Option String)
  allocations : Option (List Allocation)
  notes : Option (Option String)

def Changes.problem (changes : Changes) (current : Cheque) : Option String :=
  shapeProblem current.direction (changes.chequeNo.getD current.chequeNo)
    (changes.amountPaise.getD current.amountPaise)
    (changes.allocations.getD current.allocations)

/-- What an edit writes: every field it may edit, from the row it read where it names none. -/
structure Edit where
  chequeNo : String
  chequeDate : Date
  amountPaise : ℤ
  draweeBank : Option String
  bankAccountId : Option String
  allocations : List Allocation
  notes : Option String

def Changes.edit (changes : Changes) (current : Cheque) : Edit where
  chequeNo := changes.chequeNo.getD current.chequeNo
  chequeDate := changes.chequeDate.getD current.chequeDate
  amountPaise := changes.amountPaise.getD current.amountPaise
  draweeBank := blankless (changes.draweeBank.getD current.draweeBank)
  bankAccountId := (changes.bankAccountId.getD current.bankAccountId).filter (· ≠ "")
  allocations := cleanAllocations (changes.allocations.getD current.allocations)
  notes := blankless (changes.notes.getD current.notes)

def Cheque.edited (row : Cheque) (edit : Edit) : Cheque :=
  { row with
    chequeNo := normaliseChequeNo edit.chequeNo
    chequeDate := edit.chequeDate
    amountPaise := edit.amountPaise
    draweeBank := edit.draweeBank
    bankAccountId := edit.bankAccountId
    allocations := edit.allocations
    notes := edit.notes
    numbered := squeeze_squeeze edit.chequeNo }

/-- The figures a document made from a cheque is to share with it. -/
def EnginePayload.MatchesRow (payload : EnginePayload) (row : Cheque) : Prop :=
  payload.amountPaise = row.amountPaise ∧ payload.referenceNo = row.chequeNo ∧
    payload.allocations = row.allocations

instance (payload : EnginePayload) (row : Cheque) : Decidable (payload.MatchesRow row) :=
  inferInstanceAs (Decidable (_ ∧ _ ∧ _))

/-- A document made from the row as it stands matches it. -/
theorem payload_matches (row : Cheque) (presentedOn : Date) :
    (enginePayload row presentedOn).2.MatchesRow row :=
  ⟨rfl, row.numbered, clean_allocations_eq row.allocations⟩

end Caflow.Banking
