import Caflow.Gst.Discount
import Caflow.Text

set_option linter.all false

namespace Caflow.OrderCycle
open Gst Rounding

/-- Round to a whole number, a half to the even one: what `round` does. -/
def roundEven (x : ℚ) : ℤ :=
  if x - ⌊x⌋ < 1 / 2 then ⌊x⌋
  else if 1 / 2 < x - ⌊x⌋ then ⌊x⌋ + 1
  else if ⌊x⌋ % 2 = 0 then ⌊x⌋ else ⌊x⌋ + 1

/-- CGST, SGST and IGST of one line: the full tax first, then halved. -/
def computeLineGst (taxablePaise gstRateBps : ℤ) (isInterstate : Bool) : ℤ × ℤ × ℤ :=
  let fullGstPaise := taxablePaise * gstRateBps / 10000
  if isInterstate then (0, 0, fullGstPaise)
  else (fullGstPaise / 2, fullGstPaise - fullGstPaise / 2, 0)

/-- Compensation cess on one line, by value and by quantity. -/
def lineCess (taxablePaise : ℤ) (quantity : ℚ) (cessRateBps cessSpecificPaisePerUnit : ℤ) :
    Except Failure ℤ :=
  if cessRateBps < 0 then .error (.valueError "cess_rate_bps must be non-negative.")
  else if cessSpecificPaisePerUnit < 0 then
    .error (.valueError "cess_specific_paise_per_unit must be non-negative.")
  else if taxablePaise < 0 then .error (.valueError "taxable_paise must be non-negative.")
  else if quantity < 0 then .error (.valueError "quantity must be non-negative.")
  else .ok (taxablePaise * cessRateBps / 10000 + truncate (quantity * cessSpecificPaisePerUnit))

/-- A line of a quotation or an order as a payload carries it. -/
structure CycleLine where
  description : Option String
  hsnSac : Option String
  quantity : Option ℚ
  unit : Option String
  ratePaise : Option ℤ
  gstRatePercent : Option ℚ
  isService : Bool
  serviceCatalogueId : Option String
  discountPercentBps : Option ℤ
  discountPaise : Option ℤ
  cessRateBps : Option ℤ
  cessSpecificPaisePerUnit : Option ℤ
  quantityIsProvisional : Bool
  orderLineId : Option String

/-- A line with its figures worked out, as it is stored. -/
structure PricedLine where
  lineOrder : ℕ
  description : String
  hsnSac : Option String
  quantity : ℚ
  unit : String
  ratePaise : ℤ
  gstRatePercent : ℚ
  isService : Bool
  serviceCatalogueId : Option String
  discountPercentBps : Option ℤ
  discountPaise : ℤ
  cessRateBps : ℤ
  cessSpecificPaisePerUnit : ℤ
  taxableAmountPaise : ℤ
  cgstPaise : ℤ
  sgstPaise : ℤ
  igstPaise : ℤ
  lineCessPaise : ℤ
  quantityIsProvisional : Bool
  orderLineId : Option String
  deriving DecidableEq

structure PricedTotals where
  taxablePaise : ℤ
  cgstPaise : ℤ
  sgstPaise : ℤ
  igstPaise : ℤ
  cessPaise : ℤ
  totalPaise : ℤ
  deriving DecidableEq

/-- An empty text counts as none: `or` in the source. -/
def orElse (text : Option String) (fallback : String) : String :=
  (text.filter (· ≠ "")).getD fallback

def CycleLine.grossPaise (ln : CycleLine) : ℤ :=
  truncate (ln.quantity.getD 1 * ln.ratePaise.getD 0)

def CycleLine.forDiscount (ln : CycleLine) : DiscountLine :=
  ⟨ln.grossPaise, ln.discountPercentBps, ln.discountPaise⟩

/-- One line at the value its discounts leave. -/
def priceLine (isInterState : Bool) (i : ℕ) (ln : CycleLine) (d : DiscountedLine) :
    Except Failure PricedLine := do
  let bps := roundEven (ln.gstRatePercent.getD 0 * 100)
  let (cgst, sgst, igst) := computeLineGst d.taxablePaise bps isInterState
  let cess ← lineCess d.taxablePaise (ln.quantity.getD 1) (ln.cessRateBps.getD 0)
    (ln.cessSpecificPaisePerUnit.getD 0)
  .ok {
    lineOrder := i
    description := Text.strip (ln.description.getD "")
    hsnSac := ln.hsnSac
    quantity := ln.quantity.getD 1
    unit := orElse ln.unit "NOS"
    ratePaise := ln.ratePaise.getD 0
    gstRatePercent := ln.gstRatePercent.getD 0
    isService := ln.isService
    serviceCatalogueId := ln.serviceCatalogueId
    discountPercentBps := d.discountPercentBps
    discountPaise := d.discountPaise
    cessRateBps := ln.cessRateBps.getD 0
    cessSpecificPaisePerUnit := ln.cessSpecificPaisePerUnit.getD 0
    taxableAmountPaise := d.taxablePaise
    cgstPaise := cgst
    sgstPaise := sgst
    igstPaise := igst
    lineCessPaise := cess
    quantityIsProvisional := ln.quantityIsProvisional
    orderLineId := ln.orderLineId }

def totalsOf (priced : List PricedLine) : PricedTotals :=
  let taxable := (priced.map PricedLine.taxableAmountPaise).sum
  let cgst := (priced.map PricedLine.cgstPaise).sum
  let sgst := (priced.map PricedLine.sgstPaise).sum
  let igst := (priced.map PricedLine.igstPaise).sum
  let cess := (priced.map PricedLine.lineCessPaise).sum
  ⟨taxable, cgst, sgst, igst, cess, taxable + cgst + sgst + igst + cess⟩

/-- The lines from the `i`th on, priced in order. -/
def priceFrom (isInterState : Bool) : ℕ → List (CycleLine × DiscountedLine) →
    Except Failure (List PricedLine)
  | _, [] => .ok []
  | i, p :: ps => do
    let line ← priceLine isInterState i p.1 p.2
    let rest ← priceFrom isInterState (i + 1) ps
    .ok (line :: rest)

/-- A refused discount is the caller's to correct. -/
def asUnprocessable : Failure → Failure
  | .valueError message => .http 422 message
  | failure => failure

/-- Priced lines and the document's totals, in whole paise. -/
def computeLines (rupeeText : ℤ → String) (lines : List CycleLine) (isInterState : Bool)
    (documentPercentBps documentAmountPaise : Option ℤ) :
    Except Failure (List PricedLine × PricedTotals) :=
  if lines.isEmpty then .ok ([], ⟨0, 0, 0, 0, 0, 0⟩)
  else do
    let discounts ← (applyToLines rupeeText (lines.map CycleLine.forDiscount) documentPercentBps
      documentAmountPaise).mapError asUnprocessable
    let priced ← priceFrom isInterState 0 (lines.zip discounts)
    .ok (priced, totalsOf priced)

/-- A stored line as a client sends it back. -/
def PricedLine.asSent (p : PricedLine) : CycleLine where
  description := some p.description
  hsnSac := p.hsnSac
  quantity := some p.quantity
  unit := some p.unit
  ratePaise := some p.ratePaise
  gstRatePercent := some p.gstRatePercent
  isService := p.isService
  serviceCatalogueId := p.serviceCatalogueId
  discountPercentBps := p.discountPercentBps
  discountPaise := some p.discountPaise
  cessRateBps := some p.cessRateBps
  cessSpecificPaisePerUnit := some p.cessSpecificPaisePerUnit
  quantityIsProvisional := p.quantityIsProvisional
  orderLineId := p.orderLineId

end Caflow.OrderCycle
