import Caflow.Accounting.Journal
import Caflow.Inventory.Movements

set_option linter.all false

namespace Caflow.Inventory.Documents
open Rounding Accounting

inductive MovementType where
  | purchase
  | sale
  | saleReturn
  | purchaseReturn
  deriving DecidableEq

inductive SourceType where
  | purchaseBill
  | salesInvoice
  | creditNote
  | debitNote
  deriving DecidableEq

/-- A row of the stock ledger and the document it came from. -/
structure StockRow extends Movement where
  movementType : MovementType
  sourceType : SourceType
  sourceId : String
  deriving DecidableEq

/-- The control accounts a firm's chart resolves to. -/
structure Accounts where
  inventory : String
  cogs : String
  purchases : String
  cogs_apart : cogs ≠ inventory
  purchases_apart : purchases ≠ inventory

/-- The accounts under their standard codes. -/
def Accounts.standard : Accounts := ⟨"1400", "5100", "5000", by decide, by decide⟩

/-- An item's stock ledger and the client's general ledger. -/
structure Books where
  ledger : List StockRow
  journal : List JournalEntry
  deriving DecidableEq

def tail (ledger : List StockRow) : Option Movement :=
  ledger.getLast?.map StockRow.toMovement

/-- A line of a sale or a return. Only a line of goods moves stock. -/
structure GoodsLine where
  goods : Bool
  quantity : ℚ

/-- A line of a purchase bill, with its share of each landed cost of the bill. -/
structure PurchaseLine where
  goods : Bool
  quantity : ℚ
  taxableAmountPaise : ℤ
  itcEligible : Option Bool
  cgstPaise : ℤ
  sgstPaise : ℤ
  igstPaise : ℤ
  cessPaise : ℤ
  expenseAccountId : Option String
  landedShares : List (Option String × ℤ)

structure SalesInvoice where
  id : String
  invoiceNo : String
  invoiceDate : String
  lines : List GoodsLine

structure PurchaseBill where
  id : String
  billDate : String
  lines : List PurchaseLine

structure CreditNote where
  id : String
  creditNoteNo : String
  creditNoteDate : String
  salesInvoiceId : String
  goodsReturned : Option Bool
  lines : List GoodsLine

structure DebitNote where
  id : String
  debitNoteNo : String
  debitNoteDate : String
  goodsReturned : Option Bool
  lines : List GoodsLine

def recordStockIn (ledger : List StockRow) (type : MovementType) (source : SourceType)
    (sourceId : String) (quantity : ℚ) (totalCostPaise : ℤ) : Except Failure (StockRow × ℤ) :=
  (computeStockIn (prevQty (tail ledger)) (prevValue (tail ledger)) quantity totalCostPaise).map
    fun r => (⟨r.movement, type, source, sourceId⟩, r.trueupPaise)

def recordStockOut (ledger : List StockRow) (method : Method) (layers : List Layer)
    (type : MovementType) (source : SourceType) (sourceId : String) (quantity : ℚ) :
    Except Failure StockRow :=
  (match method with
    | .movingAverage => computeStockOut (prevQty (tail ledger)) (prevValue (tail ledger))
        (prevAvg (tail ledger)) quantity
    | .fifo => computeStockOutFifo (prevQty (tail ledger)) (prevValue (tail ledger)) quantity
        layers).map fun m => ⟨m, type, source, sourceId⟩

/-- The loop over a document's lines: `move` records a line and says what it is worth to the
journal, or skips it. The first line that fails stops the loop. -/
def moveLines (move : List StockRow → L → Except Failure (Option (StockRow × β)))
    (ledger : List StockRow) : List L → List (StockRow × β) × Option Failure
  | [] => ([], none)
  | line :: lines =>
    match move ledger line with
    | .error e => ([], some e)
    | .ok none => moveLines move ledger lines
    | .ok (some m) =>
      let rest := moveLines move (ledger ++ [m.1]) lines
      (m :: rest.1, rest.2)

/-- A document whose lines did not all move posts no journal. -/
def settle (books : Books) (moved : List (StockRow × β) × Option Failure)
    (post : List JournalEntry → List β → List JournalEntry) : Books × Option Failure :=
  let ledger := books.ledger ++ moved.1.map Prod.fst
  match moved.2 with
  | some e => (⟨ledger, books.journal⟩, some e)
  | none => (⟨ledger, post books.journal (moved.1.map Prod.snd)⟩, none)

/-- A value moved from one account to another, if there is any. -/
def postTransfer (journal : List JournalEntry) (date reference debit credit : String)
    (valuePaise : ℤ) : List JournalEntry :=
  if valuePaise ≤ 0 then journal
  else postOrLeave journal date reference [⟨debit, valuePaise, 0⟩, ⟨credit, 0, valuePaise⟩]

/-- The first of two texts that says something. -/
def orElse (a b : String) : String := if a = "" then b else a

section
variable (accounts : Accounts) (method : Method)
variable (layersOf : List StockRow → List Layer) (pick : List StockRow → Option StockRow)

/-- An issue by a sale or a purchase return, and the value it takes off the books. -/
def issueLine (type : MovementType) (source : SourceType) (sourceId : String)
    (ledger : List StockRow) (line : GoodsLine) : Except Failure (Option (StockRow × ℤ)) :=
  if !line.goods ∨ line.quantity ≤ 0 then .ok none
  else (recordStockOut ledger method (layersOf ledger) type source sourceId line.quantity).map
    fun row => some (row, |row.valueDeltaPaise|)

def applySaleToInventory (books : Books) (invoice : SalesInvoice) : Books × Option Failure :=
  let invoiceNo := orElse invoice.invoiceNo invoice.id
  settle books
    (moveLines (issueLine method layersOf .sale .salesInvoice invoice.id) books.ledger invoice.lines)
    fun journal values => postTransfer journal invoice.invoiceDate (invoiceNo ++ "-COGS")
      accounts.cogs accounts.inventory values.sum

def applyDebitNoteToInventory (books : Books) (note : DebitNote) : Books × Option Failure :=
  if note.goodsReturned = some false then (books, none)
  else
    let noteNo := orElse note.debitNoteNo note.id
    settle books
      (moveLines (issueLine method layersOf .purchaseReturn .debitNote note.id) books.ledger
        note.lines)
      fun journal values => postTransfer journal note.debitNoteDate (noteNo ++ "-INVRET")
        accounts.purchases accounts.inventory values.sum

/-- The unit cost the sale relieved the goods at. A query limited to one row answers with any
of the invoice's rows. -/
def saleUnitCostForReturn (ledger : List StockRow) (invoiceId : String) : Option ℤ :=
  if invoiceId = "" then none
  else (pick (ledger.filter fun r =>
    r.sourceType = .salesInvoice ∧ r.sourceId = invoiceId ∧ r.movementType = .sale)).map
      fun r => r.unitCostPaise

/-- What goods coming back are worth: the cost they were sold at, else the average. -/
def returnValue (ledger : List StockRow) (invoiceId : String) (quantity : ℚ) : ℤ :=
  halfUp (quantity *
    ((saleUnitCostForReturn pick ledger invoiceId).getD (prevAvg (tail ledger))))

def returnLine (note : CreditNote) (ledger : List StockRow) (line : GoodsLine) :
    Except Failure (Option (StockRow × ℤ)) :=
  if !line.goods ∨ line.quantity ≤ 0 then .ok none
  else
    let value := returnValue pick ledger note.salesInvoiceId line.quantity
    (recordStockIn ledger .saleReturn .creditNote note.id line.quantity value).map
      fun r => some (r.1, value)

def applyCreditNoteToInventory (books : Books) (note : CreditNote) : Books × Option Failure :=
  if note.goodsReturned = some false then (books, none)
  else
    let noteNo := orElse note.creditNoteNo note.id
    settle books (moveLines (returnLine pick note) books.ledger note.lines)
      fun journal values => postTransfer journal note.creditNoteDate (noteNo ++ "-INVRET")
        accounts.inventory accounts.cogs values.sum

/-- Tax that nobody will give back is part of what the goods cost. -/
def blockedTaxOnLine (line : PurchaseLine) : ℤ :=
  if line.itcEligible ≠ some false then 0
  else line.cgstPaise + line.sgstPaise + line.igstPaise + line.cessPaise

/-- The accounts a line's cost landed on, and what each of them carried. -/
def contributors (line : PurchaseLine) : List (Option String × ℤ) :=
  (line.expenseAccountId, line.taxableAmountPaise + blockedTaxOnLine line) :: line.landedShares

def costOf (line : PurchaseLine) : ℤ := ((contributors line).map Prod.snd).sum

/-- An amount shared out over the accounts that carried the line's cost. -/
def itemsFor (line : PurchaseLine) (amountPaise : ℤ) : List (Option String × ℤ) :=
  (List.zip ((contributors line).map Prod.fst)
    (splitProRata amountPaise ((contributors line).map Prod.snd))).filter fun i => i.2 ≠ 0

/-- What one received line gives the receipt journal and the true-up journal. -/
structure Received where
  receiptItems : List (Option String × ℤ)
  trueupItems : List (Option String × ℤ)

def receiptLine (bill : PurchaseBill) (ledger : List StockRow) (line : PurchaseLine) :
    Except Failure (Option (StockRow × Received)) :=
  if !line.goods ∨ line.quantity ≤ 0 ∨ costOf line ≤ 0 then .ok none
  else
    (recordStockIn ledger .purchase .purchaseBill bill.id line.quantity (costOf line)).map
      fun r => some (r.1, ⟨itemsFor line r.1.valueDeltaPaise,
        if 0 < r.2 then itemsFor line r.2 else []⟩)

/-- Credit one more amount to an account, the accounts in the order they first came up. -/
def addTo (account : String) (amountPaise : ℤ) : List (String × ℤ) → List (String × ℤ)
  | [] => [(account, amountPaise)]
  | (a, amount) :: rest =>
    if a = account then (a, amount + amountPaise) :: rest
    else (a, amount) :: addTo account amountPaise rest

def resolve (purchases : String) (account : Option String) : String :=
  orElse (account.getD "") purchases

def byAccount (purchases : String) (items : List (Option String × ℤ)) : List (String × ℤ) :=
  items.foldl (fun grouped i =>
    if i.2 ≤ 0 then grouped else addTo (resolve purchases i.1) i.2 grouped) []

/-- One debit for the whole document against the accounts its lines were expensed to. -/
def postGrouped (journal : List JournalEntry) (date reference debit : String)
    (items : List (Option String × ℤ)) : List JournalEntry :=
  let total := ((items.map Prod.snd).filter fun v => 0 < v).sum
  if total ≤ 0 then journal
  else postOrLeave journal date reference
    (⟨debit, total, 0⟩ :: (byAccount accounts.purchases items).map fun g => ⟨g.1, 0, g.2⟩)

def purchaseBillJournalRef (billId : String) : String :=
  "PB-" ++ String.ofList ((billId.toList.take 8).map Char.toUpper)

def applyPurchaseToInventory (books : Books) (bill : PurchaseBill) : Books × Option Failure :=
  let reference := purchaseBillJournalRef bill.id
  settle books (moveLines (receiptLine bill) books.ledger bill.lines)
    fun journal received =>
      let receipt := postGrouped accounts journal bill.billDate (reference ++ "-INV")
        accounts.inventory (received.flatMap Received.receiptItems)
      postGrouped accounts receipt bill.billDate (reference ++ "-COGSTRUEUP")
        accounts.cogs (received.flatMap Received.trueupItems)

inductive Document where
  | purchase (bill : PurchaseBill)
  | sale (invoice : SalesInvoice)
  | creditNote (note : CreditNote)
  | debitNote (note : DebitNote)

/-- Apply a document to an item's books, and say what stopped it, if anything did. -/
def applyDocument (books : Books) : Document → Books × Option Failure
  | .purchase bill => applyPurchaseToInventory accounts books bill
  | .sale invoice => applySaleToInventory accounts method layersOf books invoice
  | .creditNote note => applyCreditNoteToInventory accounts pick books note
  | .debitNote note => applyDebitNoteToInventory accounts method layersOf books note

end

end Caflow.Inventory.Documents
