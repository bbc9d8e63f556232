import Caflow.Text

namespace Caflow.Banking

/-- A row of a statement, whichever bank printed it. -/
structure NormalizedTxn where
  transactionDate : String
  description : String
  referenceNo : Option String
  debitPaise : ℤ
  creditPaise : ℤ
  balancePaise : ℤ
  isBalanceMarker : Bool := false
  deriving DecidableEq

/-- What a row adds to the balance. -/
def NormalizedTxn.movement (t : NormalizedTxn) : ℤ := t.creditPaise - t.debitPaise

/-- A row that does not move the balance by its own amount. -/
structure Disagreement where
  transactionDate : String
  description : String
  expectedMovementPaise : ℤ
  balanceMovedPaise : ℤ

def disagreements : List NormalizedTxn → List Disagreement
  | prev :: cur :: rest =>
    let moved := cur.balancePaise - prev.balancePaise
    if cur.movement ≠ moved then
      { transactionDate := cur.transactionDate
        description := String.ofList (cur.description.toList.take 80)
        expectedMovementPaise := cur.movement
        balanceMovedPaise := moved } :: disagreements (cur :: rest)
    else disagreements (cur :: rest)
  | _ => []

inductive StatementOrder where
  | oldestFirst
  | newestFirst

inductive BalanceCheck where
  | unchecked
  | agrees (rowsChecked : ℕ) (order : StatementOrder)
  | disagrees (rowsChecked disagreeingRows : ℕ) (firstDisagreement : Disagreement)

/-- A balance of zero is read as a row without a balance. -/
def withBalance (txns : List NormalizedTxn) : List NormalizedTxn :=
  txns.filter (·.balancePaise ≠ 0)

/-- Whether the rows agree with the bank's own running balance, in either order. -/
def balanceAgreement (txns : List NormalizedTxn) : BalanceCheck :=
  let rows := withBalance txns
  if rows.length < 2 then .unchecked
  else
    match disagreements rows, disagreements rows.reverse with
    | [], _ => .agrees (rows.length - 1) .oldestFirst
    | _ :: _, [] => .agrees (rows.length - 1) .newestFirst
    | d :: forward, d' :: reverse =>
      if (d :: forward).length ≤ (d' :: reverse).length then
        .disagrees (rows.length - 1) (d :: forward).length d
      else .disagrees (rows.length - 1) (d' :: reverse).length d'

def BalanceCheck.Agrees : BalanceCheck → Prop
  | .agrees _ _ => True
  | _ => False

def BalanceCheck.Disagrees : BalanceCheck → Prop
  | .disagrees _ _ _ => True
  | _ => False

instance (check : BalanceCheck) : Decidable check.Agrees :=
  match check with
  | .unchecked => isFalse id
  | .agrees _ _ => isTrue trivial
  | .disagrees _ _ _ => isFalse id

instance (check : BalanceCheck) : Decidable check.Disagrees :=
  match check with
  | .unchecked => isFalse id
  | .agrees _ _ => isFalse id
  | .disagrees _ _ _ => isTrue trivial

end Caflow.Banking
