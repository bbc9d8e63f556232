import Caflow.OrderCycle.Lines

namespace Caflow.OrderCycle.Purchases
open Drawdown Tally

inductive OrderStatus where
  | draft
  | approved
  | partiallyReceived
  | received
  | closed
  | cancelled
  deriving DecidableEq

inductive ReceiptStatus where
  | draft
  | recorded
  | cancelled
  deriving DecidableEq

structure ReceiptLine where
  orderLineId : Option ℕ
  quantity : ℤ
  rejectedQty : ℤ

/-- What was kept of the goods that arrived. -/
def ReceiptLine.kept (line : ReceiptLine) : ℤ := line.quantity - line.rejectedQty

structure GoodsReceipt where
  orderId : Option ℕ
  status : ReceiptStatus
  objectionRaisedOn : Option ℕ
  objectionRemovedOn : Option ℕ
  lines : List ReceiptLine

/-- The orders and the receipts by the number they were made under. -/
structure Books where
  orders : List (Order OrderStatus)
  receipts : List GoodsReceipt
  nextLineId : ℕ

inductive Refusal where
  | notFound
  | orderCancelled
  | receivedAgainst
  | noLines
  | overReceipt (problems : List Problem)
  | rejectedWithinReceived
  | noObjection
  | removedBeforeRaised

def orderOpenStatuses : List OrderStatus := [.approved, .partiallyReceived]

def orderStatusFor (lines : List OpenLine) (current : OrderStatus) : OrderStatus :=
  if current ∉ orderOpenStatuses then current
  else if lines = [] then current
  else if lines.all (·.openQty = 0) then .received
  else if lines.any (0 < ·.takenQty) then .partiallyReceived
  else .approved

/-- Per order line what was ordered and what the receipts that were not cancelled kept of it. -/
def orderOpenPosition (b : Books) (lines : List OrderLine) : List OpenLine :=
  let rows := b.receipts.flatMap fun g =>
    if g.status ≠ .cancelled then g.lines.map fun line => (line.orderLineId, line.kept) else []
  lines.map fun line => ⟨line.id, line.quantity, tally rows (some line.id)⟩

def resettleOrderStatus (b : Books) : Option ℕ → Books
  | none => b
  | some orderId =>
    { b with orders := b.orders.modify orderId fun o =>
        { o with status := orderStatusFor (orderOpenPosition b o.lines) o.status } }

/-- The lines of an order as it is typed: the request asks for one at least. -/
structure PurchaseOrderIn where
  quantities : List ℚ
  hasLines : quantities ≠ []

def createOrder (b : Books) (payload : PurchaseOrderIn) : Books :=
  { b with
    orders := b.orders ++ [⟨.draft, Book.numbered b.nextLineId (payload.quantities.map column)⟩]
    nextLineId := b.nextLineId + payload.quantities.length }

/-- The position a receipt's lines are asked against: that of the order it names. -/
def positionOf (b : Books) : Option ℕ → Except Refusal (Option (List OpenLine))
  | none => .ok none
  | some orderId =>
    match b.orders[orderId]? with
    | none => .error .notFound
    | some order => .ok (some (orderOpenPosition b order.lines))

structure GoodsReceiptLineIn where
  orderLineId : Option ℕ
  quantity : ℚ
  rejectedQty : ℚ

structure GoodsReceiptIn where
  orderId : Option ℕ
  objectionRaisedOn : Option ℕ
  objectionRemovedOn : Option ℕ
  lines : List GoodsReceiptLineIn

def GoodsReceiptLineIn.stored (line : GoodsReceiptLineIn) : ReceiptLine :=
  ⟨line.orderLineId, column line.quantity, column line.rejectedQty⟩

/-- What the table checks of a line. -/
def ReceiptLine.allowed (line : ReceiptLine) : Bool :=
  0 ≤ line.rejectedQty ∧ line.rejectedQty ≤ line.quantity

def createReceipt (b : Books) (payload : GoodsReceiptIn) : Except Refusal Books := do
  let position ← positionOf b payload.orderId
  let problems := refuseOverTaking position
    (payload.lines.map fun line => ⟨line.orderLineId, line.quantity - line.rejectedQty⟩)
  if problems ≠ [] then throw (.overReceipt problems)
  let lines := payload.lines.map (·.stored)
  if ¬ lines.all (·.allowed) then throw .rejectedWithinReceived
  let receipt : GoodsReceipt :=
    ⟨payload.orderId, .draft, payload.objectionRaisedOn, payload.objectionRemovedOn, lines⟩
  return resettleOrderStatus { b with receipts := b.receipts ++ [receipt] } payload.orderId

structure GoodsReceiptUpdateIn where
  status : Option ReceiptStatus
  objectionRaisedOn : Option ℕ
  objectionRemovedOn : Option ℕ

/-- An objection is raised before it is removed. -/
def objectionProblem (receipt : GoodsReceipt) (patch : GoodsReceiptUpdateIn) : Option Refusal :=
  match patch.objectionRemovedOn, patch.objectionRaisedOn.or receipt.objectionRaisedOn with
  | none, _ => none
  | some _, none => some .noObjection
  | some removed, some raised => if removed < raised then some .removedBeforeRaised else none

def updateReceipt (b : Books) (receiptId : ℕ) (patch : GoodsReceiptUpdateIn) :
    Except Refusal Books := do
  let some receipt := b.receipts[receiptId]? | throw .notFound
  if let some refusal := objectionProblem receipt patch then throw refusal
  let written := { b with receipts := b.receipts.modify receiptId fun g =>
    { g with status := patch.status.getD g.status
             objectionRaisedOn := patch.objectionRaisedOn.or g.objectionRaisedOn
             objectionRemovedOn := patch.objectionRemovedOn.or g.objectionRemovedOn } }
  return resettleOrderStatus written receipt.orderId

structure PurchaseOrderUpdateIn where
  status : Option OrderStatus
  lines : Option (List ℚ)

/-- Old lines deleted, and with each of them its name in the receipts' lines. -/
def replaceLines (b : Books) (orderId : ℕ) (order : Order OrderStatus) (quantities : List ℚ) :
    Books :=
  { orders := b.orders.modify orderId fun o =>
      { o with lines := Book.numbered b.nextLineId (quantities.map column) }
    receipts := b.receipts.map fun g => { g with lines := g.lines.map fun line =>
      { line with orderLineId := line.orderLineId.filter (· ∉ lineIds order.lines) } }
    nextLineId := b.nextLineId + quantities.length }

/-- An order with a receipt against it keeps its lines. -/
def amendLines (b : Books) (orderId : ℕ) (order : Order OrderStatus) :
    Option (List ℚ) → Except Refusal Books
  | none => .ok b
  | some quantities =>
    if (orderOpenPosition b order.lines).any (·.takenQty ≠ 0) then .error .receivedAgainst
    else if quantities = [] then .error .noLines
    else .ok (replaceLines b orderId order quantities)

def updateOrder (b : Books) (orderId : ℕ) (patch : PurchaseOrderUpdateIn) :
    Except Refusal Books := do
  let some order := b.orders[orderId]? | throw .notFound
  if order.status = .cancelled then throw .orderCancelled
  let amended ← amendLines b orderId order patch.lines
  match patch.status with
  | none => return amended
  | some status =>
    return { amended with orders := amended.orders.modify orderId ({ · with status := status }) }

inductive Call where
  | createOrder (payload : PurchaseOrderIn)
  | createReceipt (payload : GoodsReceiptIn)
  | updateReceipt (receiptId : ℕ) (patch : GoodsReceiptUpdateIn)
  | updateOrder (orderId : ℕ) (patch : PurchaseOrderUpdateIn)

def Books.attempt (b : Books) : Call → Except Refusal Books
  | .createOrder payload => .ok (createOrder b payload)
  | .createReceipt payload => createReceipt b payload
  | .updateReceipt receiptId patch => updateReceipt b receiptId patch
  | .updateOrder orderId patch => updateOrder b orderId patch

end Caflow.OrderCycle.Purchases
