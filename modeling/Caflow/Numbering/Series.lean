import Caflow.Failure
import Caflow.Text
import Caflow.Lib.TopWindow

set_option linter.all false

namespace Caflow.Numbering
open Text TopWindow

inductive Column where
  | firmId
  | clientId
  deriving DecidableEq

def Column.name : Column → String
  | .firmId => "firm_id"
  | .clientId => "client_id"

/-- The tables whose numbers are read back to find the next. -/
inductive Table where
  | creditNotes
  | debitNotes
  | salesDebitNotes
  | purchaseCreditNotes
  | receipts
  | purchasePayments
  | fixedAssets
  deriving DecidableEq

def Table.name : Table → String
  | .creditNotes => "credit_notes"
  | .debitNotes => "debit_notes"
  | .salesDebitNotes => "sales_debit_notes"
  | .purchaseCreditNotes => "purchase_credit_notes"
  | .receipts => "receipts"
  | .purchasePayments => "purchase_payments"
  | .fixedAssets => "fixed_assets"

/-- `NUMBER_SERIES`: the columns a table's unique key covers besides the number. -/
def Table.scope : Table → List Column
  | .purchasePayments => [.firmId]
  | _ => [.firmId, .clientId]

/-- A row as far as its number and its unique key go. -/
structure Row where
  firmId : String
  clientId : String
  number : String

def Row.value (row : Row) : Column → String
  | .firmId => row.firmId
  | .clientId => row.clientId

/-- The columns a caller names, each with a value. -/
structure Scope where
  firmId : Option String
  clientId : Option String

def Scope.value (scope : Scope) : Column → Option String
  | .firmId => scope.firmId
  | .clientId => scope.clientId

/-- In the order their names sort. -/
def Scope.columns (scope : Scope) : List Column :=
  [Column.clientId, .firmId].filter fun column => (scope.value column).isSome

def Scope.covers (scope : Scope) (row : Row) : Bool :=
  [Column.firmId, .clientId].all fun column =>
    match scope.value column with
    | some value => row.value column = value
    | none => true

/-- Column names as a tuple is written. -/
def tupleText (columns : List Column) : String :=
  "(" ++ ", ".intercalate (columns.map fun c => "'" ++ c.name ++ "'") ++
    (if columns.length = 1 then ",)" else ")")

/-- The counter of a number in a series, when digits are all that follows the prefix. -/
def counterOf (lead value : String) : Option ℕ :=
  let text := (strip value).toList
  if lead.toList <+: text then readNat (text.drop lead.toList.length) else none

/-- One past the highest counter in use. -/
def sequenceAfter (existing : List String) (lead : String) : ℕ :=
  existing.foldl (fun highest value => max highest ((counterOf lead value).getD 0)) 0 + 1

def sequenceWindow : ℕ := 50

/-- The numbers in use in a scope that begin with a prefix. -/
def numbersIn (rows : List Row) (scope : Scope) (lead : String) : List String :=
  ((rows.filter scope.covers).map Row.number).filter fun number => lead.toList <+: number.toList

/-- The next number of a series, from the window of its numbers that sort last. -/
def nextSequence (rows : List Row) (table : Table) (lead : String) (scope : Scope) :
    Except Failure ℕ :=
  if scope.columns.toFinset ≠ table.scope.toFinset then
    .error (.valueError (table.name ++ " is numbered per " ++ tupleText table.scope ++ "; got " ++
      tupleText scope.columns ++
      ". The sequence scope must match the UNIQUE constraint exactly."))
  else .ok (sequenceAfter (topWindow sequenceWindow (numbersIn rows scope lead)) lead)

/-- A counter as it is written: four digits at the least. -/
def padded (n : ℕ) : List Char :=
  List.replicate (4 - (Nat.toDigits 10 n).length) '0' ++ Nat.toDigits 10 n

def formatNumber (lead : String) (n : ℕ) : String := lead ++ String.ofList (padded n)

example : formatNumber "CN-2627-" 42 = "CN-2627-0042" := by decide +kernel

end Caflow.Numbering
