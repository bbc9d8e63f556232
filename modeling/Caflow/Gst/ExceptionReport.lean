import Caflow.Gst.Gstr1Payload
import Caflow.Lib.Dict

namespace Caflow.Gst.ExceptionReport
open Gstr1

inductive Kind
  | invoice | note
  deriving DecidableEq

/-- The tables that identify their documents. -/
inductive Table
  | b2b | b2cl | exp | cdnr | cdnur
  deriving DecidableEq

/-- Table 6A's three customs particulars. -/
structure ShippingBill where
  sbpcode : String
  sbnum : String
  sbdt : String

/-- A document as the comparison keeps it. What a credit note and the reverse charge do to the
return is kept beside it: the comparison reads neither. -/
structure Entry where
  kind : Kind
  docNo : String
  docDate : String
  table : Table
  invTyp : String
  counterparty : String
  shippingBill : Option ShippingBill
  figures : Amounts
  creditNote : Bool
  reverseCharge : Bool

/-- What an entry declares, a credit note subtracting. -/
def Entry.signed (e : Entry) : Amounts := (if e.creditNote then -1 else 1 : ℤ) • e.figures

def amendInvoice : String := "9A"
def amendNote : String := "9C"
def amendB2cs : String := "10"
def declareCurrent : String := "current period"

abbrev DocKey := Kind × String

/-- An invoice and a note may share a serial, so the kind is part of the key. -/
def docKey (kind : Kind) (docNo : String) : DocKey := (kind, Text.upper (Text.strip docNo))

/-- The first of two texts that is not empty. -/
def firstText (a b : String) : String := if a = "" then b else a

/-- The documents of a grouped table. -/
def groupEntries (kind : Kind) (table : Table) (number : Document → String)
    (groups : List Group) : List (DocKey × Entry) :=
  groups.flatMap fun g => g.docs.map fun d =>
    (docKey kind (number d),
      { kind, table
        docNo := Text.strip (number d)
        docDate := firstText d.idt d.ntDt
        invTyp := if table = .b2b then d.invTyp else ""
        counterparty := firstText g.ctin (firstText g.pos g.expTyp)
        shippingBill := if table = .exp then some ⟨d.sbpcode, d.sbnum, d.sbdt⟩ else none
        figures := d.figures
        creditNote := kind = .note && d.isCreditNote
        reverseCharge := (table = .b2b || table = .cdnr) && d.isReverseCharge })

/-- The documents of the flat note table. -/
def flatEntries (notes : List Document) : List (DocKey × Entry) :=
  notes.map fun d =>
    (docKey .note d.ntNum,
      { kind := .note, table := .cdnur
        docNo := Text.strip d.ntNum
        docDate := d.ntDt
        invTyp := ""
        counterparty := d.pos
        shippingBill := none
        figures := d.figures
        creditNote := d.isCreditNote
        reverseCharge := false })

/-- Every document-identified entry of a payload, in the order it is read. -/
def listed (p : Payload) : List (DocKey × Entry) :=
  groupEntries .invoice .b2b (·.inum) p.b2b ++ groupEntries .invoice .b2cl (·.inum) p.b2cl ++
    groupEntries .invoice .exp (·.inum) p.exp ++ groupEntries .note .cdnr (·.ntNum) p.cdnr ++
    flatEntries p.cdnur

def indexDocuments (p : Payload) : List (DocKey × Entry) := Dict.fromPairs (listed p)

/-- B2C-others under one supply type, rate and place. -/
structure Bucket where
  supplyType : String
  rate : String
  placeOfSupply : String
  figures : Amounts

def b2csKey (supplyType rate placeOfSupply : String) : String :=
  supplyType ++ "|" ++ rate ++ "|" ++ placeOfSupply

/-- A row's supply type is read under either spelling of its key. -/
def rowType (row : B2csRow) : String := firstText row.splyTy row.splyTp

def addRow (buckets : List (String × Bucket)) (row : B2csRow) : List (String × Bucket) :=
  let key := b2csKey (rowType row) row.rt row.pos
  let bucket := (Dict.get buckets key).getD ⟨rowType row, row.rt, row.pos, 0⟩
  Dict.set key { bucket with figures := bucket.figures + row.figures } buckets

def indexB2cs (p : Payload) : List (String × Bucket) := p.b2cs.foldl addRow []

def heads : List FigureKey := [.taxable, .cgst, .sgst, .igst, .cess]

def isZero (amounts : Amounts) : Bool := heads.all (amounts · = 0)

def totals (index : List (DocKey × Entry)) : Amounts := (index.map (·.2.figures)).sum

def amendmentTable : Kind → String
  | .note => amendNote
  | .invoice => amendInvoice

/-- A document one side has and the other has not. -/
structure Missing extends Entry where
  declareIn : String

/-- A document under another table of the return. What it moves the declared figures by is not in
the report. -/
structure Reclassified where
  docNo : String
  kind : Kind
  filedTable : Table
  booksTable : Table
  filedInvTyp : String
  booksInvTyp : String
  delta : Amounts
  shippingBill : Option ShippingBill
  declareIn : String
  moves : Amounts

/-- A document with other figures. What it moves the declared figures by is not in the report. -/
structure AmountChanged where
  docNo : String
  kind : Kind
  table : Table
  counterparty : String
  docDate : String
  filed : Amounts
  books : Amounts
  delta : Amounts
  shippingBill : Option ShippingBill
  declareIn : String
  moves : Amounts

structure B2csChanged where
  supplyType : String
  rate : String
  placeOfSupply : String
  filed : Amounts
  books : Amounts
  delta : Amounts
  declareIn : String

structure Totals where
  filed : Amounts
  books : Amounts
  delta : Amounts

structure Report where
  clean : Bool
  findingCount : ℕ
  missingFromReturn : List Missing
  missingFromBooks : List Missing
  amountChanged : List AmountChanged
  reclassified : List Reclassified
  b2csChanged : List B2csChanged
  totals : Totals

/-- The size of a finding: what its amounts come to, whatever their sign. -/
def size (amounts : Amounts) : ℤ := (heads.map fun h => |amounts h|).sum

/-- Biggest money first, then the text. -/
def bySize {α : Type} (amounts : α → Amounts) (text : α → String) (findings : List α) : List α :=
  findings.insertionSort fun f g =>
    toLex (-size (amounts f), text f) ≤ toLex (-size (amounts g), text g)

abbrev Pair := DocKey × Entry × Entry

/-- The table inside the section is part of where a document is declared. -/
def tableMoved (t : Pair) : Bool :=
  (t.2.2.table, t.2.2.invTyp) ≠ (t.2.1.table, t.2.1.invTyp)

def delta (t : Pair) : Amounts := t.2.2.figures - t.2.1.figures

def reclassifiedOf (t : Pair) : Reclassified where
  docNo := t.2.1.docNo
  kind := t.2.1.kind
  filedTable := t.2.1.table
  booksTable := t.2.2.table
  filedInvTyp := t.2.1.invTyp
  booksInvTyp := t.2.2.invTyp
  delta := delta t
  shippingBill := t.2.2.shippingBill.or t.2.1.shippingBill
  declareIn := amendmentTable t.2.1.kind
  moves := t.2.2.signed - t.2.1.signed

def amountChangedOf (t : Pair) : AmountChanged where
  docNo := t.2.1.docNo
  kind := t.2.1.kind
  table := t.2.1.table
  counterparty := t.2.1.counterparty
  docDate := t.2.1.docDate
  filed := t.2.1.figures
  books := t.2.2.figures
  delta := delta t
  shippingBill := t.2.2.shippingBill.or t.2.1.shippingBill
  declareIn := amendmentTable t.2.1.kind
  moves := t.2.2.signed - t.2.1.signed

/-- What a bucket holds, nothing where there is none. -/
def bucketFigures (buckets : List (String × Bucket)) (key : String) : Amounts :=
  (Dict.get buckets key).elim 0 (·.figures)

def b2csKeys (filed books : List (String × Bucket)) : List String :=
  ((filed.map Prod.fst ++ books.map Prod.fst).dedup).insertionSort (· ≤ ·)

def b2csFinding (filed books : List (String × Bucket)) (key : String) : Option B2csChanged :=
  let was := bucketFigures filed key
  let now := bucketFigures books key
  if isZero (now - was) then none
  else
    ((Dict.get books key).or (Dict.get filed key)).map fun shape =>
      { supplyType := shape.supplyType
        rate := shape.rate
        placeOfSupply := shape.placeOfSupply
        filed := was
        books := now
        delta := now - was
        declareIn := amendB2cs }

/-- Everything that has moved since the return was filed. -/
def comparePayloads (filed books : Payload) : Report :=
  let filedDocs := indexDocuments filed
  let booksDocs := indexDocuments books
  let missingFromReturn := (Dict.without booksDocs filedDocs).map fun p =>
    { p.2 with declareIn := declareCurrent }
  let missingFromBooks := (Dict.without filedDocs booksDocs).map fun p =>
    { p.2 with declareIn := amendmentTable p.2.kind }
  let both := Dict.common filedDocs booksDocs
  -- a reclassified document is reported once, under the bigger of its two problems
  let reclassified := (both.filter (tableMoved ·)).map reclassifiedOf
  let amountChanged :=
    (both.filter fun t => !tableMoved t && !isZero (delta t)).map amountChangedOf
  let filedB2cs := indexB2cs filed
  let booksB2cs := indexB2cs books
  let b2csChanged := (b2csKeys filedB2cs booksB2cs).filterMap (b2csFinding filedB2cs booksB2cs)
  let filedTotals := totals filedDocs + (b2csChanged.map (·.filed)).sum
  let booksTotals := totals booksDocs + (b2csChanged.map (·.books)).sum
  let findings := missingFromReturn.length + missingFromBooks.length + amountChanged.length +
    reclassified.length + b2csChanged.length
  { clean := findings = 0
    findingCount := findings
    missingFromReturn := bySize (·.figures) (·.docNo) missingFromReturn
    missingFromBooks := bySize (·.figures) (·.docNo) missingFromBooks
    amountChanged := bySize (·.delta) (·.docNo) amountChanged
    reclassified := bySize (·.delta) (·.docNo) reclassified
    b2csChanged := bySize (·.delta) (·.placeOfSupply) b2csChanged
    totals := ⟨filedTotals, booksTotals, booksTotals - filedTotals⟩ }

end Caflow.Gst.ExceptionReport
