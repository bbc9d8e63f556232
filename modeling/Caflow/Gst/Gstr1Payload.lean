import Caflow.Text

namespace Caflow.Gst.Gstr1

/-- A taxable value and the four tax heads. -/
inductive FigureKey
  | taxable | cgst | sgst | igst | cess
  deriving DecidableEq

/-- Amounts in paise. -/
abbrev Amounts := FigureKey → ℤ

/-- An invoice or a note. Which of its fields are read depends on the table it is in. -/
structure Document where
  inum : String
  ntNum : String
  idt : String
  ntDt : String
  invTyp : String
  rchrg : String
  ntty : String
  pos : String
  sbpcode : String
  sbnum : String
  sbdt : String
  itms : List Amounts

/-- The documents under one counterparty. -/
structure Group where
  ctin : String
  pos : String
  expTyp : String
  docs : List Document

structure B2csRow where
  splyTy : String
  splyTp : String
  rt : String
  pos : String
  figures : Amounts

/-- An item of Table 11: no wrapper, and its value under `ad_amt`. -/
structure AdvanceItem where
  adAmt : ℤ
  iamt : ℤ
  camt : ℤ
  samt : ℤ
  csamt : ℤ

structure AdvanceRow where
  adAmt : ℤ
  itms : List AdvanceItem

/-- A row of Table 8. -/
structure NilRow where
  nilAmt : ℤ
  exptAmt : ℤ
  ngsupAmt : ℤ

structure Payload where
  b2b : List Group := []
  b2cl : List Group := []
  b2cs : List B2csRow := []
  exp : List Group := []
  cdnr : List Group := []
  cdnur : List Document := []
  advances : List AdvanceRow := []
  txpd : List AdvanceRow := []
  nilRows : List NilRow := []
  amendments : List String := []

/-- What a payload declared on the outward side. -/
structure Gstr1Outward where
  taxableAndZeroRated : Amounts
  nilRatedAndExemptPaise : ℤ
  nonGstPaise : ℤ
  heldOutReverseCharge : Amounts
  amendmentSections : List String

def documentsOf (groups : List Group) : List Document := groups.flatMap (·.docs)

/-- A document's items, summed. -/
def Document.figures (d : Document) : Amounts := d.itms.sum

def Document.isReverseCharge (d : Document) : Bool :=
  Text.upper (if d.rchrg = "" then "N" else d.rchrg) = "Y"

def Document.isCreditNote (d : Document) : Bool := Text.upper d.ntty = "C"

/-- A credit note subtracts and a debit note adds. -/
def Document.noteFigures (d : Document) : Amounts :=
  (if d.isCreditNote then -1 else 1 : ℤ) • d.figures

def advanceFigures (row : AdvanceRow) (item : AdvanceItem) : Amounts
  | .taxable => if item.adAmt ≠ 0 then item.adAmt else row.adAmt
  | .igst => item.iamt
  | .cgst => item.camt
  | .sgst => item.samt
  | .cess => item.csamt

def advanceItems (rows : List AdvanceRow) : Amounts :=
  (rows.map fun row => (row.itms.map (advanceFigures row)).sum).sum

/-- The documents of the two tables that know reverse charge, on one side of it. -/
def bucket (p : Payload) (reverseCharge : Bool) : Amounts :=
  (((documentsOf p.b2b).filter (·.isReverseCharge = reverseCharge)).map (·.figures)).sum +
    (((documentsOf p.cdnr).filter (·.isReverseCharge = reverseCharge)).map (·.noteFigures)).sum

/-- The outward figures a payload declared. -/
def readGstr1Outward (p : Payload) : Gstr1Outward where
  taxableAndZeroRated :=
    bucket p false + ((documentsOf p.b2cl).map (·.figures)).sum +
      (p.b2cs.map (·.figures)).sum + ((documentsOf p.exp).map (·.figures)).sum +
      (p.cdnur.map (·.noteFigures)).sum + advanceItems p.advances - advanceItems p.txpd
  nilRatedAndExemptPaise := (p.nilRows.map fun row => row.nilAmt + row.exptAmt).sum
  nonGstPaise := (p.nilRows.map (·.ngsupAmt)).sum
  heldOutReverseCharge := bucket p true
  amendmentSections := p.amendments.insertionSort (· ≤ ·)

end Caflow.Gst.Gstr1
