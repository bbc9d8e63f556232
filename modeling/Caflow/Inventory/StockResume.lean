import Caflow.Accounting.Kernel
import Caflow.Inventory.Documents
import Caflow.Lib.Resumed

set_option linter.all false

namespace Caflow.Inventory.StockResume
open Rounding Accounting Documents Resumed

/-- A quantity as a numeric column of three decimals keeps it. -/
def inThousandths (q : ℚ) : ℚ := halfUp (q * 1000) / 1000

theorem in_thousandths_iff {q : ℚ} : inThousandths q = q ↔ ∃ n : ℤ, q = n / 1000 := by
  unfold inThousandths
  constructor
  · exact fun h => ⟨_, h.symm⟩
  · rintro ⟨n, rfl⟩
    rw [div_mul_cancel₀ _ (by norm_num), half_up_int]

theorem in_thousandths_idem (q : ℚ) : inThousandths (inThousandths q) = inThousandths q :=
  in_thousandths_iff.mpr ⟨_, rfl⟩

theorem in_thousandths_neg (q : ℚ) : inThousandths (-q) = -inThousandths q := by
  unfold inThousandths
  rw [neg_mul, half_up_neg]
  push_cast
  ring

theorem in_thousandths_add {p q : ℚ} (hp : inThousandths p = p) (hq : inThousandths q = q) :
    inThousandths (p + q) = p + q := by
  obtain ⟨m, hm⟩ := in_thousandths_iff.mp hp
  obtain ⟨n, hn⟩ := in_thousandths_iff.mp hq
  refine in_thousandths_iff.mpr ⟨m + n, ?_⟩
  rw [hm, hn]
  push_cast
  ring

/-- A row of `inventory_stock_ledger`. -/
structure ItemRow extends StockRow where
  id : String
  item : String
  journalEntryId : Option String
  stored : inThousandths runningQtyUnits = runningQtyUnits
  deriving DecidableEq

/-- A client's stock ledger, in the order it was written, and the journal entries. -/
structure Books where
  ledger : List ItemRow
  entries : List Kernel.Entry
  deriving DecidableEq

/-- A document line and the item of the catalogue it names. -/
structure ItemLine (L : Type) where
  item : String
  line : L

def ofItem (ledger : List ItemRow) (item : String) : List StockRow :=
  (ledger.filter fun r => r.item = item).map ItemRow.toStockRow

def linesChangedSentence : String :=
  "its lines no longer match the stock recorded for it (a quantity or an item was changed after " ++
    "the stock was recorded), so which line each stock row belongs to cannot be told. Adjust " ++
    "stock by hand."

def landedCostsSentence : String :=
  "it carries freight, insurance or duty charges and some of its stock is recorded without the " ++
    "journal that moves the charges, so how their share was added to each line cannot be rebuilt " ++
    "here. Adjust stock by hand."

def cannotResumeSentence : String :=
  "a line of it was recorded while the item's stock was already below nil, and how its cost was " ++
    "split between the stock on hand and the cost of goods sold is not kept on the stock row, so " ++
    "it cannot be completed safely here. Adjust stock by hand."

/-- Which stock-in rows a retry refuses. -/
inductive Refuse where
  | none
  | anyShort
  | unjournalledShort
  deriving DecidableEq

def sameQuantity (row : ItemRow) (quantity : ℚ) : Bool := |row.quantityDelta| = |quantity|

/-- The row was written while the item's quantity was already below nil. -/
def wasShortWhenRecorded (row : ItemRow) : Bool := row.runningQtyUnits - row.quantityDelta < 0

/-- Why `take` does not hand a row to a line. -/
def refusal (rule : Refuse) (row : ItemRow) (quantity : ℚ) (costPaise : Option ℤ) :
    Option String :=
  if !sameQuantity row quantity then some linesChangedSentence
  else if rule ≠ .none ∧ wasShortWhenRecorded row then
    if rule = .anyShort ∨ row.journalEntryId = none then some cannotResumeSentence else none
  else if row.journalEntryId = none ∧ ∃ cost ∈ costPaise, row.valueDeltaPaise ≠ cost then
    some linesChangedSentence
  else none

def hasUnjournalled (rows : List ItemRow) : Bool :=
  rows.any fun r => r.journalEntryId = none ∧ r.valueDeltaPaise ≠ 0

inductive JournalState where
  | notOwed
  | posted
  | notPosted
  deriving DecidableEq

/-- A journal that was not posted stays not posted whatever a later one does. -/
def JournalState.note (state : JournalState) (posted : Bool) : JournalState :=
  if !posted then .notPosted else if state = .notOwed then .posted else state

/-- What a document did to stock. -/
structure StockEffect where
  goodsLines : ℕ
  movedLines : ℕ
  journal : JournalState
  stoppedBy : Option Failure
  cannotResume : Option String

def StockEffect.untouched : StockEffect := ⟨0, 0, .notOwed, none, none⟩

/-- A retry that refuses before it reaches any line. -/
def StockEffect.heldBack (sentence : String) : StockEffect :=
  ⟨0, 0, .notOwed, none, some sentence⟩

/-- A retry's own refusal is an answer; anything else stopped the call. -/
def StockEffect.stopped (moved : ℕ) : Stop Failure String → StockEffect
  | .refused sentence => ⟨moved + 1, moved, .notOwed, none, some sentence⟩
  | .failed raised => ⟨moved + 1, moved, .notOwed, some raised, none⟩

/-- What tells one document's stock effect from another's: its goods lines, how one is recorded
and what it is worth to the journal, what a retry asks of a row that is there, and what is
posted. -/
structure Task (L ω : Type) where
  movementType : MovementType
  sourceType : SourceType
  sourceId : String
  lines : List (ItemLine L)
  quantity : L → ℚ
  costPaise : L → Option ℤ
  refuse : Refuse
  landedCosts : Bool
  record : List StockRow → L → Except Failure (StockRow × ω)
  worth : ItemRow → L → ω
  post : Bool → List (ItemRow × ω) → Books → Books × JournalState

section
variable (rowIds : ℕ → String)

/-- The row a movement becomes. -/
def store (ledger : List ItemRow) (item : String) (row : StockRow) : ItemRow where
  toStockRow := { row with
    quantityDelta := inThousandths row.quantityDelta
    runningQtyUnits := inThousandths row.runningQtyUnits }
  id := rowIds ledger.length
  item := item
  journalEntryId := none
  stored := in_thousandths_idem _

/-- `_resume_or_record` for each line: a row that has a journal owes nothing more. -/
def Task.work (task : Task L ω) : Work (ItemLine L) String ItemRow ω Failure String where
  key := ItemLine.item
  rowKey := ItemRow.item
  record ledger line :=
    (task.record (ofItem ledger line.item) line.line).map fun m =>
      (store rowIds ledger line.item m.1, m.2)
  refusal row line := refusal task.refuse row (task.quantity line.line) (task.costPaise line.line)
  reuse row line := if row.journalEntryId = none then some (task.worth row line.line) else none

def Task.owns (task : Task L ω) (row : ItemRow) : Bool :=
  row.sourceType = task.sourceType ∧ row.sourceId = task.sourceId ∧
    row.movementType = task.movementType

/-- `PriorMovements.load`: the rows the document has already. -/
def Task.prior (task : Task L ω) (books : Books) : List ItemRow :=
  unpaged (books.ledger.filter task.owns)

/-- Everything a retry can refuse, asked before its first write. -/
def Task.refusedFor (task : Task L ω) (rows : List ItemRow) : Option String :=
  if hasUnjournalled rows ∧ task.landedCosts then some landedCostsSentence
  else (task.work rowIds).rehearse rows task.lines

def Task.finish (task : Task L ω) (resume : Bool) (books : Books)
    (walk : Walk ItemRow ω Failure String) : Books × StockEffect :=
  let moved : Books := ⟨books.ledger ++ walk.written, books.entries⟩
  match walk.stopped with
  | some stop => (moved, .stopped walk.moved stop)
  | none =>
    let posted := task.post resume walk.owing moved
    (posted.1, ⟨walk.moved, walk.moved, posted.2, none, none⟩)

/-- One of the four functions, as a first run or as a retry. -/
def Task.apply (task : Task L ω) (resume : Bool) (books : Books) : Books × StockEffect :=
  if resume then
    match task.refusedFor rowIds (task.prior books) with
    | some sentence => (books, .heldBack sentence)
    | none =>
      task.finish true books ((task.work rowIds).resume (task.prior books) books.ledger task.lines)
  else task.finish false books ((task.work rowIds).run books.ledger task.lines)

/-- The books a first run leaves that stopped after `k` of its rows, its journal not posted. -/
def Task.stoppedAfter (task : Task L ω) (k : ℕ) (books : Books) : Books :=
  ⟨books.ledger ++ ((task.work rowIds).run books.ledger task.lines).written.take k, books.entries⟩

end

/-- What the four functions stand on: the ids the database draws, the posting kernel and what
becomes of a call of it, the client's accounts and cost formula, and the row that answers a query
limited to one. -/
structure Setting where
  rowIds : ℕ → String
  ground : Kernel.Ground
  link : Kernel.Link
  accounts : Accounts
  method : Method
  layersOf : List StockRow → List Layer
  pick : List StockRow → Option StockRow

def sourceText : SourceType → String
  | .purchaseBill => "purchase_bill"
  | .salesInvoice => "sales_invoice"
  | .creditNote => "credit_note"
  | .debitNote => "debit_note"

def stockPosting (source : SourceType) (sourceId date reference : String)
    (mustMatch : Option String) (lines : List JournalLine) : Kernel.Posting :=
  ⟨date, reference, "Journal", lines, true, some (sourceText source), some sourceId, mustMatch⟩

/-- `_must_match`: the document an existing entry must belong to for a retry to reuse it. -/
def mustMatch (resume : Bool) (document : String) : Option String :=
  if resume then some document else none

/-- `_set_ledger_journal_entry_id`, for the rows a journal carries. -/
def stampRow (moved : List String) (journalId : String) (row : ItemRow) : ItemRow :=
  if row.id ∈ moved then { row with journalEntryId := some journalId } else row

/-- The rows as the kernel's answer leaves them, and whether it posted. -/
def stampRows (moved : List String) (ledger : List ItemRow)
    (answer : Except Failure String × List Kernel.Entry) : Books × Bool :=
  match answer.1 with
  | .ok id => (⟨ledger.map (stampRow moved id), answer.2⟩, true)
  | .error _ => (⟨ledger, answer.2⟩, false)

namespace Setting
variable (setting : Setting)

/-- Post a stock journal, and say on its rows which it is. -/
def journalise (posting : Kernel.Posting) (moved : List String) (books : Books) : Books × Bool :=
  stampRows moved books.ledger
    (Kernel.createJournal setting.ground setting.link books.entries posting none)

/-- The value a document's lines moved from one account to another, if there is any. -/
def postTransfer (posting : List JournalLine → Kernel.Posting) (debit credit : String)
    (owing : List (ItemRow × ℤ)) (books : Books) : Books × JournalState :=
  let total := (owing.map Prod.snd).sum
  if total ≤ 0 then (books, .notOwed)
  else
    let answer := setting.journalise (posting [⟨debit, total, 0⟩, ⟨credit, 0, total⟩])
      (owing.map fun m => m.1.id) books
    (answer.1, JournalState.notOwed.note answer.2)

/-- One debit for the whole document against the accounts its lines were expensed to. -/
def postGrouped (posting : List JournalLine → Kernel.Posting) (debit : String)
    (items : List (Option String × ℤ)) (moved : List String) (state : JournalState)
    (books : Books) : Books × JournalState :=
  if items = [] then (books, state)
  else
    let total := ((items.map Prod.snd).filter fun v => 0 < v).sum
    if total ≤ 0 then (books, state.note false)
    else
      let answer := setting.journalise (posting (⟨debit, total, 0⟩ ::
        (byAccount setting.accounts.purchases items).map fun g => ⟨g.1, 0, g.2⟩)) moved books
      (answer.1, state.note answer.2)

end Setting

/-- The lines that move goods. A read of a document's lines does not page. -/
def goodsLines (lines : List (ItemLine GoodsLine)) : List (ItemLine GoodsLine) :=
  (unpaged lines).filter fun l => l.line.goods ∧ 0 < l.line.quantity

structure SalesInvoice where
  id : String
  invoiceNo : String
  invoiceDate : String
  lines : List (ItemLine GoodsLine)

structure CreditNote where
  id : String
  creditNoteNo : String
  creditNoteDate : String
  salesInvoiceId : String
  goodsReturned : Option Bool
  lines : List (ItemLine GoodsLine)

structure DebitNote where
  id : String
  debitNoteNo : String
  debitNoteDate : String
  goodsReturned : Option Bool
  lines : List (ItemLine GoodsLine)

/-- A purchase bill, and whether any freight, insurance or duty is recorded against it. -/
structure PurchaseBill where
  id : String
  billNo : String
  ourReference : String
  billDate : String
  landedCosts : Bool
  lines : List (ItemLine PurchaseLine)

namespace Setting
variable (setting : Setting)

/-- An issue of stock, by a sale or a purchase return. -/
def issueTask (type : MovementType) (source : SourceType) (sourceId : String)
    (lines : List (ItemLine GoodsLine))
    (post : Bool → List (ItemRow × ℤ) → Books → Books × JournalState) : Task GoodsLine ℤ where
  movementType := type
  sourceType := source
  sourceId := sourceId
  lines := lines
  quantity := GoodsLine.quantity
  costPaise _ := none
  refuse := .none
  landedCosts := false
  record ledger line :=
    (recordStockOut ledger setting.method (setting.layersOf ledger) type source sourceId
      line.quantity).map fun row => (row, |row.valueDeltaPaise|)
  worth row _ := |row.valueDeltaPaise|
  post := post

def saleTask (invoice : SalesInvoice) : Task GoodsLine ℤ :=
  let invoiceNo := orElse invoice.invoiceNo invoice.id
  setting.issueTask .sale .salesInvoice invoice.id (goodsLines invoice.lines) fun resume =>
    setting.postTransfer (stockPosting .salesInvoice invoice.id invoice.invoiceDate
      (invoiceNo ++ "-COGS") (mustMatch resume ("invoice " ++ invoiceNo)))
      setting.accounts.cogs setting.accounts.inventory

/-- A note that says no goods came back moves none. -/
def debitNoteTask (note : DebitNote) : Task GoodsLine ℤ :=
  let noteNo := orElse note.debitNoteNo note.id
  setting.issueTask .purchaseReturn .debitNote note.id
    (if note.goodsReturned = some false then [] else goodsLines note.lines) fun resume =>
    setting.postTransfer (stockPosting .debitNote note.id note.debitNoteDate
      (noteNo ++ "-INVRET") (mustMatch resume ("debit note " ++ noteNo)))
      setting.accounts.purchases setting.accounts.inventory

def creditNoteTask (note : CreditNote) : Task GoodsLine ℤ where
  movementType := .saleReturn
  sourceType := .creditNote
  sourceId := note.id
  lines := if note.goodsReturned = some false then [] else goodsLines note.lines
  quantity := GoodsLine.quantity
  costPaise _ := none
  refuse := .unjournalledShort
  landedCosts := false
  record ledger line :=
    let value := returnValue setting.pick ledger note.salesInvoiceId line.quantity
    (recordStockIn ledger .saleReturn .creditNote note.id line.quantity value).map
      fun r => (r.1, value)
  worth row _ := row.valueDeltaPaise
  post resume :=
    let noteNo := orElse note.creditNoteNo note.id
    setting.postTransfer (stockPosting .creditNote note.id note.creditNoteDate
      (noteNo ++ "-INVRET") (mustMatch resume ("credit note " ++ noteNo)))
      setting.accounts.inventory setting.accounts.cogs

def purchaseTask (bill : PurchaseBill) : Task PurchaseLine Received where
  movementType := .purchase
  sourceType := .purchaseBill
  sourceId := bill.id
  lines := (unpaged bill.lines).filter fun l =>
    l.line.goods ∧ 0 < l.line.quantity ∧ 0 < costOf l.line
  quantity := PurchaseLine.quantity
  costPaise line := some (costOf line)
  refuse := .anyShort
  landedCosts := bill.landedCosts
  record ledger line :=
    (recordStockIn ledger .purchase .purchaseBill bill.id line.quantity (costOf line)).map
      fun r => (r.1, ⟨itemsFor line r.1.valueDeltaPaise,
        if 0 < r.2 then itemsFor line r.2 else []⟩)
  worth row line := ⟨itemsFor line row.valueDeltaPaise, []⟩
  post resume owing books :=
    let reference := purchaseBillJournalRef bill.id
    let billNo := orElse bill.billNo (orElse bill.ourReference bill.id)
    let receipt := setting.postGrouped (stockPosting .purchaseBill bill.id bill.billDate
      (reference ++ "-INV") (mustMatch resume ("purchase bill " ++ billNo)))
      setting.accounts.inventory (owing.flatMap fun m => m.2.receiptItems)
      (owing.map fun m => m.1.id) .notOwed books
    -- the true-up is posted on its own, and a retry asks nothing of an entry it finds
    setting.postGrouped (stockPosting .purchaseBill bill.id bill.billDate
      (reference ++ "-COGSTRUEUP") none) setting.accounts.cogs
      (owing.flatMap fun m => m.2.trueupItems) [] receipt.2 receipt.1

def applySaleToInventory (resume : Bool) (books : Books) (invoice : SalesInvoice) :
    Books × StockEffect :=
  (setting.saleTask invoice).apply setting.rowIds resume books

def applyDebitNoteToInventory (resume : Bool) (books : Books) (note : DebitNote) :
    Books × StockEffect :=
  (setting.debitNoteTask note).apply setting.rowIds resume books

def applyCreditNoteToInventory (resume : Bool) (books : Books) (note : CreditNote) :
    Books × StockEffect :=
  (setting.creditNoteTask note).apply setting.rowIds resume books

def applyPurchaseToInventory (resume : Bool) (books : Books) (bill : PurchaseBill) :
    Books × StockEffect :=
  (setting.purchaseTask bill).apply setting.rowIds resume books

end Setting

inductive Document where
  | purchase (bill : PurchaseBill)
  | sale (invoice : SalesInvoice)
  | creditNote (note : CreditNote)
  | debitNote (note : DebitNote)

namespace Document

def Line : Document → Type
  | .purchase _ => PurchaseLine
  | .sale _ | .creditNote _ | .debitNote _ => GoodsLine

def Worth : Document → Type
  | .purchase _ => Received
  | .sale _ | .creditNote _ | .debitNote _ => ℤ

end Document

namespace Setting
variable (setting : Setting)

def task : (document : Document) → Task document.Line document.Worth
  | .purchase bill => setting.purchaseTask bill
  | .sale invoice => setting.saleTask invoice
  | .creditNote note => setting.creditNoteTask note
  | .debitNote note => setting.debitNoteTask note

def applyDocument (resume : Bool) (books : Books) : Document → Books × StockEffect
  | .purchase bill => setting.applyPurchaseToInventory resume books bill
  | .sale invoice => setting.applySaleToInventory resume books invoice
  | .creditNote note => setting.applyCreditNoteToInventory resume books note
  | .debitNote note => setting.applyDebitNoteToInventory resume books note

theorem apply_document (resume : Bool) (books : Books) (document : Document) :
    setting.applyDocument resume books document =
      (setting.task document).apply setting.rowIds resume books := by
  cases document <;> rfl

end Setting

end Caflow.Inventory.StockResume
