import Caflow.Gst.Rule364
import Caflow.Lib.SetOff

namespace Caflow.Gst
open SetOff

inductive TransactionType
  | invoice | creditNote | debitNote
  deriving DecidableEq

inductive SupplyType
  | taxable | zeroRated | nilRated | exempt | nonGst | other

inductive RecipientType
  | registered | unregistered | composition | uin

structure SalesTransaction where
  transactionType : TransactionType
  taxableAmountPaise : ℤ
  tax : Tax
  supplyType : SupplyType
  isReverseCharge : Bool
  isInterstate : Bool := false
  placeOfSupply : String := ""
  recipientType : RecipientType := .registered

structure PurchaseTransaction where
  tax : Tax
  isReverseCharge : Bool
  ineligible : Tax := 0
  isImportOfServices : Bool := false
  documentId : Option String := none
  documentLabel : String := ""
  supplierName : String := ""
  wasExamined : Bool := true

/-- Tax assessed on a bill of entry: integrated tax and cess only. -/
structure ImportOfGoods where
  igstPaise : ℤ := 0
  cessPaise : ℤ := 0
  ineligibleIgstPaise : ℤ := 0
  ineligibleCessPaise : ℤ := 0

structure Gstr2aRecord where
  cgstPaise : ℤ
  sgstPaise : ℤ
  igstPaise : ℤ

structure ItcReversal where
  tax : Tax := 0
  reclaimable : Bool := false

/-- One half of Table 11. A key its dictionary lacks reads as nil. -/
structure Advance where
  taxablePaise : ℤ
  igstPaise : ℤ
  cgstPaise : ℤ
  sgstPaise : ℤ
  deriving DecidableEq

structure AdvanceTaxOnReceipts where
  received : Advance
  adjusted : Advance

/-- Table 11A less 11B. It may be negative, and that is not clamped. -/
def AdvanceTaxOnReceipts.net (a : AdvanceTaxOnReceipts) : Advance where
  taxablePaise := a.received.taxablePaise - a.adjusted.taxablePaise
  igstPaise := a.received.igstPaise - a.adjusted.igstPaise
  cgstPaise := a.received.cgstPaise - a.adjusted.cgstPaise
  sgstPaise := a.received.sgstPaise - a.adjusted.sgstPaise

def AdvanceTaxOnReceipts.isEmpty (a : AdvanceTaxOnReceipts) : Bool := a.net = ⟨0, 0, 0, 0⟩

/-- A line of Table 3.2: value and integrated tax for one place of supply. -/
structure InterSup where
  pos : String
  txval : ℤ
  iamt : ℤ

def addInterSup (pos : String) (txval iamt : ℤ) : List InterSup → List InterSup
  | [] => [⟨pos, txval, iamt⟩]
  | row :: rows =>
    if row.pos = pos then ⟨pos, row.txval + txval, row.iamt + iamt⟩ :: rows
    else row :: addInterSup pos txval iamt rows

/-- Tables 3.1 and 3.2 as the loop over the sales builds them. -/
structure Outward where
  taxableValue : ℤ := 0
  taxable : Tax := 0
  zeroRated : ℤ := 0
  zeroRatedIgst : ℤ := 0
  nilExempt : ℤ := 0
  nonGst : ℤ := 0
  interSupUnreg : List InterSup := []
  interSupComp : List InterSup := []
  interSupUin : List InterSup := []

def Outward.addInterstate (o : Outward) (s : SalesTransaction) (sign : ℤ) : Outward :=
  if s.isInterstate && s.placeOfSupply ≠ "" then
    let add := addInterSup s.placeOfSupply (sign * s.taxableAmountPaise) (sign * s.tax .igst)
    match s.recipientType with
    | .registered => o
    | .unregistered => { o with interSupUnreg := add o.interSupUnreg }
    | .composition => { o with interSupComp := add o.interSupComp }
    | .uin => { o with interSupUin := add o.interSupUin }
  else o

def Outward.add (o : Outward) (s : SalesTransaction) : Outward :=
  let sign := if s.transactionType = .creditNote then -1 else 1
  match s.supplyType with
  | .nilRated | .exempt => { o with nilExempt := o.nilExempt + sign * s.taxableAmountPaise }
  | .nonGst => { o with nonGst := o.nonGst + sign * s.taxableAmountPaise }
  | .zeroRated => { o with
      zeroRated := o.zeroRated + sign * s.taxableAmountPaise
      zeroRatedIgst := o.zeroRatedIgst + sign * s.tax .igst }
  | .taxable =>
    if s.isReverseCharge then o
    else
      ({ o with
        taxableValue := o.taxableValue + sign * s.taxableAmountPaise
        taxable := fun h => o.taxable h + sign * s.tax h } : Outward).addInterstate s sign
  | .other => o

/-- Credit up to what GSTR-2B carries, where there is one, and whether that held any back. -/
def applyRule364Cap (book gstr2a : ℤ) (have2b : Bool) : ℤ × Bool :=
  if gstr2a = 0 && !have2b then (book, false)
  else
    let cap := gstr2a * 100 / 100
    if cap < book then (cap, true) else (book, false)

structure Gstr3bInputs where
  sales : List SalesTransaction
  purchases : List PurchaseTransaction
  gstr2aRecords : List Gstr2aRecord
  reversals : List ItcReversal := []
  reclaims : List ItcReversal := []
  have2b : Option Bool := none
  advances : Option AdvanceTaxOnReceipts := none
  importsOfGoods : List ImportOfGoods := []
  twoBByDocument : Option (String → Option Rule364.TwoBDocument) := none
  openingCredit : Option CreditBalance := none

/-- Tables 3 and 4 of the return. The book, self-assessed and GSTR-2A figures have no cess. -/
structure Tables where
  outward : Outward
  advance : Advance
  rcm : Tax
  imps : Tax
  impg : Tax
  itc : Tax
  itcIneligible : Tax
  itcRevPerm : Tax
  itcRevTemp : Tax
  itcReclaimed : Tax
  itcBook : Tax
  itcSelfAssessed : Tax
  itc2a : Tax
  itcCappedBy2a : Bool
  rule364 : Rule364.Assessment

def PurchaseTransaction.eligible (p : PurchaseTransaction) : Tax := p.tax - p.ineligible

def PurchaseTransaction.document (p : PurchaseTransaction) : Rule364.BookDocument where
  documentId := p.documentId
  label := if p.documentLabel = "" then "(unlabelled)" else p.documentLabel
  supplier := p.supplierName
  tax := p.eligible
  isReverseCharge := p.isReverseCharge
  wasExamined := p.wasExamined

/-- Tables 3.1(a) and 3.2 with the period's advances, unless these net to nothing. -/
def outwardTables (sales : List SalesTransaction) (advances : Option AdvanceTaxOnReceipts) :
    Outward × Advance :=
  let sold := sales.foldl Outward.add {}
  match advances.filter (fun a => !a.isEmpty) with
  | none => (sold, ⟨0, 0, 0, 0⟩)
  | some a => ({ sold with
      taxableValue := sold.taxableValue + a.net.taxablePaise
      taxable := sold.taxable + Tax.of a.net.igstPaise a.net.cgstPaise a.net.sgstPaise 0 }, a.net)

/-- Tables 3 and 4 from the period's documents. -/
def tablesOf (inputs : Gstr3bInputs) : Tables :=
  let outward := outwardTables inputs.sales inputs.advances
  let reverseCharge := inputs.purchases.filter (·.isReverseCharge)
  let impg := Tax.of (inputs.importsOfGoods.map fun b => b.igstPaise - b.ineligibleIgstPaise).sum 0 0
    (inputs.importsOfGoods.map fun b => b.cessPaise - b.ineligibleCessPaise).sum
  let book := (inputs.purchases.map (·.eligible)).sum + impg
  let rcmBook := (reverseCharge.map (·.eligible)).sum
  let gstr2a := Tax.of (inputs.gstr2aRecords.map (·.igstPaise)).sum
    (inputs.gstr2aRecords.map (·.cgstPaise)).sum (inputs.gstr2aRecords.map (·.sgstPaise)).sum 0
  let have2b := inputs.have2b.getD (0 < inputs.gstr2aRecords.length)
  -- the cap reaches what suppliers furnish, and self-assessed credit is added back whole
  let capped := fun h => applyRule364Cap (book h - rcmBook h) (gstr2a h) have2b
  let aggregate : Tax := Tax.of ((capped .igst).1 + rcmBook .igst) ((capped .cgst).1 + rcmBook .cgst)
    ((capped .sgst).1 + rcmBook .sgst) (book .cess)
  let rule364 := Rule364.assess (inputs.purchases.map (·.document)) inputs.twoBByDocument have2b
  { outward := outward.1
    advance := outward.2
    rcm := (reverseCharge.map (·.tax)).sum
    imps := ((reverseCharge.filter (·.isImportOfServices)).map (·.tax)).sum
    impg := impg
    itc := if rule364.applied then fun h => min (aggregate h) (rule364.allowed h + impg h)
      else aggregate
    itcIneligible := (inputs.purchases.map (·.ineligible)).sum +
      Tax.of (inputs.importsOfGoods.map (·.ineligibleIgstPaise)).sum 0 0
        (inputs.importsOfGoods.map (·.ineligibleCessPaise)).sum
    itcRevPerm := ((inputs.reversals.filter (!·.reclaimable)).map (·.tax)).sum
    itcRevTemp := ((inputs.reversals.filter (·.reclaimable)).map (·.tax)).sum
    itcReclaimed := (inputs.reclaims.map (·.tax)).sum
    itcBook := Tax.of (book .igst) (book .cgst) (book .sgst) 0
    itcSelfAssessed := Tax.of (rcmBook .igst) (rcmBook .cgst) (rcmBook .sgst) 0
    itc2a := gstr2a
    itcCappedBy2a := (capped .igst).2 || (capped .cgst).2 || (capped .sgst).2 ||
      rule364.withheld.total ≠ 0
    rule364 := rule364 }

/-- Table 4(A): all credit availed, blocked credit included. -/
def Tables.itcAvail (t : Tables) : Tax := t.itc + t.itcIneligible

/-- Table 4(B), blocked credit in its permanent half. -/
def Tables.itcRevTotal (t : Tables) : Tax := t.itcIneligible + t.itcRevPerm + t.itcRevTemp

/-- Table 4(C), never negative. -/
def Tables.itcNet (t : Tables) : Tax := fun h => max (t.itcAvail h - t.itcRevTotal h) 0

/-- The output tax that credit may discharge. Reverse-charge tax is no part of it. -/
def Tables.liability (t : Tables) : Tax := Tax.of
  (max (t.outward.taxable .igst + t.outward.zeroRatedIgst) 0) (max (t.outward.taxable .cgst) 0)
  (max (t.outward.taxable .sgst) 0) (max (t.outward.taxable .cess) 0)

/-- IGST credit to CGST and SGST liability: halves first, then what one head cannot absorb. -/
def igstAcross (p : Pools Head Head) : Pools Head Head :=
  let excessIgstItc := p.credit .igst
  let halfExcess := excessIgstItc / 2
  let fromIgstC := min (p.due .cgst) halfExcess
  let fromIgstS := min (p.due .sgst) (excessIgstItc - halfExcess)
  (((p.draw .igst .cgst fromIgstC).draw .igst .sgst fromIgstS).settle .igst .cgst).settle .igst .sgst

/-- A head's credit to its own liability, then to IGST. -/
def ownThenIgst (p : Pools Head Head) (h : Head) : Pools Head Head :=
  (p.settle h h).settle h .igst

/-- The order of utilisation over the three heads. -/
def setOff (avail liab : Tax) : Pools Head Head :=
  ownThenIgst (ownThenIgst (igstAcross ((⟨avail, liab, []⟩ : Pools Head Head).settle .igst .igst))
    .cgst) .sgst

structure Gstr3bResult extends Tables where
  opening : Tax
  net : Tax
  closing : Tax
  /-- The amounts the set-off moved, which the source keeps in locals. -/
  used : List (Draw Head Head)

def computeGstr3b (inputs : Gstr3bInputs) : Gstr3bResult :=
  let tables := tablesOf inputs
  let opening := inputs.openingCredit.getD CreditBalance.nil
  let avail := tables.itcNet + opening.paise
  let liab := tables.liability
  let p := setOff avail liab
  -- cess credit is usable only against cess
  let poolCess := avail .cess
  { tables with
    opening := opening.paise
    net := Tax.of (p.due .igst) (p.due .cgst) (p.due .sgst) (max 0 (liab .cess - poolCess))
    closing := Tax.of (p.credit .igst) (p.credit .cgst) (p.credit .sgst)
      (max 0 (poolCess - liab .cess))
    used := p.drawn ++ [⟨.cess, .cess, min poolCess (liab .cess)⟩] }

def Gstr3bResult.cashPayable (r : Gstr3bResult) : Tax := r.net + r.rcm

def Gstr3bResult.openingCreditPaise (r : Gstr3bResult) : ℤ := r.opening.total

def Gstr3bResult.closingCreditPaise (r : Gstr3bResult) : ℤ := r.closing.total

def Gstr3bResult.itcConsumedPaise (r : Gstr3bResult) : ℤ :=
  max (r.liability.total - r.net.total) 0

def Gstr3bResult.itcAvailablePaise (r : Gstr3bResult) : ℤ :=
  r.itcNet.total + r.openingCreditPaise

def Gstr3bResult.itcCarriedForwardPaise (r : Gstr3bResult) : ℤ :=
  max (r.itcAvailablePaise - r.itcConsumedPaise) 0

end Caflow.Gst
