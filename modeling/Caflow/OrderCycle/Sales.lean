import Caflow.OrderCycle.Lines

namespace Caflow.OrderCycle.Sales
open Drawdown Tally

inductive OrderStatus where
  | draft
  | confirmed
  | partiallyDelivered
  | delivered
  | closed
  | cancelled
  deriving DecidableEq

inductive ChallanStatus where
  | draft
  | issued
  | receivedBack
  | cancelled
  deriving DecidableEq

structure ChallanLine where
  orderLineId : Option ℕ
  quantity : ℤ

structure DeliveryChallan where
  orderId : Option ℕ
  status : ChallanStatus
  receivedBackOn : Option ℕ
  lines : List ChallanLine

/-- The orders and the challans by the number they were made under. -/
structure Books where
  orders : List (Order OrderStatus)
  challans : List DeliveryChallan
  nextLineId : ℕ

inductive Refusal where
  | notFound
  | orderCancelled
  | deliveredAgainst
  | noLines
  | overDelivery (problems : List Problem)
  | onlyADraftIsIssued (status : ChallanStatus)
  | emptyChallan
  | notIssued (status : ChallanStatus)
  | backNeedsADay
  | backDayNeedsAStatus
  | statusChange (current wanted : ChallanStatus)

def ChallanStatus.goodsHaveLeft : ChallanStatus → Bool
  | .issued | .receivedBack => true
  | .draft | .cancelled => false

def orderOpenStatuses : List OrderStatus := [.confirmed, .partiallyDelivered]

/-- A closed or cancelled order is a decision, and is not opened again by arithmetic. -/
def orderStatusFor (lines : List OpenLine) (current : OrderStatus) : OrderStatus :=
  if current ∉ orderOpenStatuses ∧ current ≠ .delivered then current
  else if lines = [] then current
  else if lines.all (·.openQty = 0) then .delivered
  else if lines.any (0 < ·.takenQty) then .partiallyDelivered
  else .confirmed

/-- Per order line what was ordered and what the challans that count have delivered of it. -/
def orderOpenPosition (b : Books) (lines : List OrderLine) (withDrafts : Bool) : List OpenLine :=
  let rows := b.challans.flatMap fun c =>
    if c.status.goodsHaveLeft ∨ (withDrafts ∧ c.status = .draft) then
      c.lines.map fun line => (line.orderLineId, line.quantity)
    else []
  lines.map fun line => ⟨line.id, line.quantity, tally rows (some line.id)⟩

def resettleOrderStatus (b : Books) : Option ℕ → Books
  | none => b
  | some orderId =>
    { b with orders := b.orders.modify orderId fun o =>
        { o with status := orderStatusFor (orderOpenPosition b o.lines false) o.status } }

/-- The lines of an order as it is typed: the request asks for one at least. -/
structure SalesOrderIn where
  quantities : List ℚ
  hasLines : quantities ≠ []

def createOrder (b : Books) (payload : SalesOrderIn) : Books :=
  { b with
    orders := b.orders ++ [⟨.draft, Book.numbered b.nextLineId (payload.quantities.map column)⟩]
    nextLineId := b.nextLineId + payload.quantities.length }

/-- The position a challan's lines are asked against: that of the order it names. -/
def positionOf (b : Books) : Option ℕ → Except Refusal (Option (List OpenLine))
  | none => .ok none
  | some orderId =>
    match b.orders[orderId]? with
    | none => .error .notFound
    | some order => .ok (some (orderOpenPosition b order.lines false))

structure DeliveryChallanIn where
  orderId : Option ℕ
  lines : List LineIn

def createChallan (b : Books) (payload : DeliveryChallanIn) : Except Refusal Books := do
  let position ← positionOf b payload.orderId
  let problems := refuseOverTaking position payload.lines
  if problems ≠ [] then throw (.overDelivery problems)
  let lines := payload.lines.map fun line => ⟨line.orderLineId, column line.quantity⟩
  return { b with challans := b.challans ++ [⟨payload.orderId, .draft, none, lines⟩] }

def issueChallan (b : Books) (challanId : ℕ) : Except Refusal Books := do
  let some challan := b.challans[challanId]? | throw .notFound
  if challan.status ≠ .draft then throw (.onlyADraftIsIssued challan.status)
  if challan.lines = [] then throw .emptyChallan
  let position ← positionOf b challan.orderId
  let problems := refuseOverTaking position
    (challan.lines.map fun line => ⟨line.orderLineId, toDecimal line.quantity⟩)
  if problems ≠ [] then throw (.overDelivery problems)
  let issued := { b with challans := b.challans.modify challanId ({ · with status := .issued }) }
  return resettleOrderStatus issued challan.orderId

def amendmentMayMake : ChallanStatus → List ChallanStatus
  | .draft => [.cancelled]
  | .issued => [.receivedBack, .cancelled]
  | .receivedBack => []
  | .cancelled => []

structure DeliveryChallanUpdateIn where
  status : Option ChallanStatus
  receivedBackOn : Option ℕ

/-- The refusals about a challan's status and its back day, the unfixable one first. -/
def statusOrDayProblem (challan : DeliveryChallan) (patch : DeliveryChallanUpdateIn) :
    Option Refusal :=
  let stopsTheClock := patch.receivedBackOn.isSome ∨ patch.status = some .receivedBack
  let afterStatus := patch.status.getD
    (if patch.receivedBackOn.isSome then .receivedBack else challan.status)
  let afterDay := patch.receivedBackOn.or challan.receivedBackOn
  if stopsTheClock ∧ (challan.status = .cancelled ∨ afterStatus = .cancelled) then
    some (.notIssued .cancelled)
  else if stopsTheClock ∧ challan.status = .draft then some (.notIssued .draft)
  else if patch.status = some .receivedBack ∧ afterDay = none then some .backNeedsADay
  else if (patch.status.isSome ∨ patch.receivedBackOn.isSome) ∧ afterDay.isSome ∧
      afterStatus ≠ .receivedBack then
    some .backDayNeedsAStatus
  else
    match patch.status with
    | none => none
    | some wanted =>
      if wanted = challan.status ∨ wanted ∈ amendmentMayMake challan.status then none
      else some (.statusChange challan.status wanted)

/-- A back day alone is the status that says so. -/
def DeliveryChallanUpdateIn.writtenStatus (patch : DeliveryChallanUpdateIn) :
    Option ChallanStatus :=
  patch.status.or (if patch.receivedBackOn.isSome then some .receivedBack else none)

def updateChallan (b : Books) (challanId : ℕ) (patch : DeliveryChallanUpdateIn) :
    Except Refusal Books := do
  let some challan := b.challans[challanId]? | throw .notFound
  if let some refusal := statusOrDayProblem challan patch then throw refusal
  let written := { b with challans := b.challans.modify challanId fun c =>
    { c with status := patch.writtenStatus.getD c.status
             receivedBackOn := patch.receivedBackOn.or c.receivedBackOn } }
  if patch.writtenStatus.isSome then return resettleOrderStatus written challan.orderId
  return written

structure SalesOrderUpdateIn where
  status : Option OrderStatus
  lines : Option (List ℚ)

/-- Old lines deleted, and with each of them its name in the challans' lines. -/
def replaceLines (b : Books) (orderId : ℕ) (order : Order OrderStatus) (quantities : List ℚ) :
    Books :=
  { orders := b.orders.modify orderId fun o =>
      { o with lines := Book.numbered b.nextLineId (quantities.map column) }
    challans := b.challans.map fun c => { c with lines := c.lines.map fun line =>
      { line with orderLineId := line.orderLineId.filter (· ∉ lineIds order.lines) } }
    nextLineId := b.nextLineId + quantities.length }

/-- An order with a challan against it keeps its lines. -/
def amendLines (b : Books) (orderId : ℕ) (order : Order OrderStatus) :
    Option (List ℚ) → Except Refusal Books
  | none => .ok b
  | some quantities =>
    if (orderOpenPosition b order.lines true).any (·.takenQty ≠ 0) then .error .deliveredAgainst
    else if quantities = [] then .error .noLines
    else .ok (replaceLines b orderId order quantities)

def updateOrder (b : Books) (orderId : ℕ) (patch : SalesOrderUpdateIn) : Except Refusal Books := do
  let some order := b.orders[orderId]? | throw .notFound
  if order.status = .cancelled then throw .orderCancelled
  let amended ← amendLines b orderId order patch.lines
  match patch.status with
  | none => return amended
  | some status =>
    return { amended with orders := amended.orders.modify orderId ({ · with status := status }) }

inductive Call where
  | createOrder (payload : SalesOrderIn)
  | createChallan (payload : DeliveryChallanIn)
  | issueChallan (challanId : ℕ)
  | updateChallan (challanId : ℕ) (patch : DeliveryChallanUpdateIn)
  | updateOrder (orderId : ℕ) (patch : SalesOrderUpdateIn)

def Books.attempt (b : Books) : Call → Except Refusal Books
  | .createOrder payload => .ok (createOrder b payload)
  | .createChallan payload => createChallan b payload
  | .issueChallan challanId => issueChallan b challanId
  | .updateChallan challanId patch => updateChallan b challanId patch
  | .updateOrder orderId patch => updateOrder b orderId patch

end Caflow.OrderCycle.Sales
