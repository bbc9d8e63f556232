import Caflow.Tds.SectionRates

set_option linter.all false

namespace Caflow.Tds
open Text

structure Vendor where
  pan : String
  tdsSection : String
  interestThresholdClass : Option String

def hasPan (pan : String) : Bool := pan ≠ "" ∧ pan ≠ "PANNOTAVBL" ∧ pan ≠ "PANAPPLIED"

/-- The fourth letter of a PAN says whether the payee is an individual or a family. -/
def isCompanyPan (pan : String) : Bool :=
  match pan.toList[3]? with
  | none => true
  | some c => c.toUpper ≠ 'P' ∧ c.toUpper ≠ 'H'

inductive TdsRefusal where
  | unknownSection (sectionText : String)
  | noThresholdClass (sectionText thresholdClass : String) (carried : List String)
  deriving DecidableEq

structure TdsResolution where
  applies : Bool
  tdsPaise : ℤ
  rateBps : ℤ
  certificateRateBps : Option ℤ := none
  certifiedBasePaise : ℤ := 0
  thresholdClass : Option String := none
  thresholdPaise : ℤ

/-- The limits a payee's sums are tested against. -/
structure Limits where
  singlePaise : ℤ
  aggregatePaise : Option ℤ
  applied : Option String
  deriving DecidableEq

/-- A class of limits replaces both limits, in the years that have it. -/
def limitsFor (rule : TdsSectionRule) (fy sectionText : String) (thresholdClass : Option String) :
    Except TdsRefusal Limits :=
  let own : Limits := ⟨rule.singleThresholdPaise, rule.aggregateThresholdPaise, none⟩
  match thresholdClass with
  | none => .ok own
  | some name =>
    if name = thresholdClassOrdinary then .ok own
    else
      match rule.classThresholdsPaise.lookup name with
      | none => .error (.noThresholdClass sectionText name (rule.classThresholdsPaise.map Prod.fst))
      | some limit =>
        if classThresholdsInForce fy then
          .ok ⟨limit, rule.aggregateThresholdPaise.map fun _ => limit, some name⟩
        else .ok own

def Limits.crossed (limits : Limits) (taxable total : ℤ) : Bool :=
  limits.singlePaise < taxable || limits.aggregatePaise.any (· < total)

/-- What the tax is charged on: the year's total, or what of it exceeds the limit. -/
def chargeBase (rule : TdsSectionRule) (limits : Limits) (total : ℤ) : ℤ :=
  if rule.chargeOnExcessOnly then max 0 (total - limits.singlePaise) else total

def rateOf (rule : TdsSectionRule) (floorBps : ℤ) (isCompany hasPan : Bool) : ℤ :=
  let rate := if isCompany then rule.companyRateBps else rule.individualRateBps
  if hasPan then rate else max rate floorBps

/-- The tax on a sum credited or paid, on the year's total less what was withheld before. -/
def resolveTds (sectionText : String) (taxable priorTaxable priorTds : ℤ) (isCompany : Bool)
    (fy : String) (hasPan : Bool) (certifiedBase : ℤ) (certificateRate : Option ℤ)
    (thresholdClass : Option String) : Except TdsRefusal TdsResolution :=
  match ruleFor fy sectionText with
  | none => .error (.unknownSection (strip (upper sectionText)))
  | some rule =>
    match limitsFor rule fy (strip (upper sectionText)) thresholdClass with
    | .error refusal => .error refusal
    | .ok limits =>
      let total := priorTaxable + taxable
      let rate := rateOf rule (tdsRatesFor fy).section206aaFloorRateBps isCompany hasPan
      if limits.crossed taxable total then
        let base := chargeBase rule limits total
        let certified := max 0 (min certifiedBase base)
        let (certified, cumulative) : ℤ × ℤ :=
          match certificateRate with
          | some certificateRate =>
            if 0 < certified then
              (certified, certified * certificateRate / 10000 + (base - certified) * rate / 10000)
            else (0, base * rate / 10000)
          | none => (0, base * rate / 10000)
        .ok { applies := true
              tdsPaise := max 0 (cumulative - priorTds)
              rateBps := rate
              certificateRateBps := if 0 < certified then certificateRate else none
              certifiedBasePaise := certified
              thresholdClass := limits.applied
              thresholdPaise := limits.singlePaise }
      else
        .ok { applies := false
              tdsPaise := 0
              rateBps := rate
              thresholdClass := limits.applied
              thresholdPaise := limits.singlePaise }

/-- A live bill of the year. -/
structure VendorBill where
  taxableAmountPaise : ℤ
  tdsPaise : ℤ
  tdsSection : String
  tdsAdvanceAdjustedPaise : ℤ
  deriving DecidableEq

/-- A payment of the year, with what of it was charged as an advance. -/
structure VendorPayment where
  tdsBasePaise : ℤ
  tdsPaise : ℤ
  tdsSection : String
  isReversed : Bool
  deriving DecidableEq

/-- What was credited and paid to one payee in a year. -/
structure Year where
  bills : List VendorBill
  payments : List VendorPayment
  deriving DecidableEq

structure Aggregate where
  basePaise : ℤ
  tdsPaise : ℤ
  unadjustedAdvancePaise : ℤ

def VendorBill.own (b : VendorBill) : ℤ := max 0 (b.taxableAmountPaise - b.tdsAdvanceAdjustedPaise)

def Year.billsUnder (y : Year) (sectionText : String) : List VendorBill :=
  y.bills.filter fun b => parentOf b.tdsSection = parentOf sectionText

/-- The payments that were charged as an advance under a section, and not reversed. -/
def Year.advancesUnder (y : Year) (sectionText : String) : List VendorPayment :=
  y.payments.filter fun p =>
    !p.isReversed && decide (p.tdsBasePaise ≠ 0) && decide (parentOf p.tdsSection = parentOf sectionText)

def Year.charged (y : Year) (sectionText : String) : ℤ :=
  ((y.advancesUnder sectionText).map (·.tdsBasePaise)).sum

/-- What the bills took up of the advances. -/
def Year.absorbed (y : Year) (sectionText : String) : ℤ :=
  ((y.billsUnder sectionText).map (·.tdsAdvanceAdjustedPaise)).sum

/-- The year so far under a section, its clauses together; what bills took up of an advance that is
gone since counts again. -/
def aggregateSoFar (y : Year) (sectionText : String) : Aggregate :=
  { basePaise := ((y.billsUnder sectionText).map (·.own)).sum + y.charged sectionText +
      max 0 (y.absorbed sectionText - y.charged sectionText)
    tdsPaise := ((y.billsUnder sectionText).map (·.tdsPaise)).sum +
      ((y.advancesUnder sectionText).map (·.tdsPaise)).sum
    unadjustedAdvancePaise := max 0 (y.charged sectionText - y.absorbed sectionText) }

structure ResidentWithholding where
  tdsPaise : ℤ
  advanceAdjustedPaise : ℤ

/-- The tax on a bill or an advance of a resident payee without a certificate; a bill takes up the
advances that were taxed before it. -/
def resolveResidentTds (vendor : Vendor) (fy : String) (y : Year) (taxable : ℤ)
    (adjustAgainstAdvances : Bool) : Except TdsRefusal ResidentWithholding :=
  let aggregate := aggregateSoFar y vendor.tdsSection
  let adjusted := if adjustAgainstAdvances then min taxable aggregate.unadjustedAdvancePaise else 0
  match resolveTds vendor.tdsSection (max 0 (taxable - adjusted)) aggregate.basePaise
      aggregate.tdsPaise (isCompanyPan vendor.pan) fy (hasPan vendor.pan) 0 none
      vendor.interestThresholdClass with
  | .error refusal => .error refusal
  | .ok resolution => .ok ⟨resolution.tdsPaise, adjusted⟩

/-- A bill, of whose total the tax is held back. -/
def recordBill (vendor : Vendor) (fy : String) (y : Year) (taxable total : ℤ) :
    Except TdsRefusal Year :=
  match resolveResidentTds vendor fy y taxable true with
  | .error refusal => .error refusal
  | .ok w => .ok { y with
      bills := y.bills ++ [⟨taxable, min w.tdsPaise total, vendor.tdsSection,
        w.advanceAdjustedPaise⟩] }

/-- A payment, whose advance part is what it pays over the bills that are open. -/
def recordPayment (vendor : Vendor) (fy : String) (y : Year) (unallocated openPayable total : ℤ) :
    Except TdsRefusal Year :=
  let advance := max 0 (unallocated - openPayable)
  if advance ≤ 0 then .ok { y with payments := y.payments ++ [⟨0, 0, "", false⟩] }
  else
    match resolveResidentTds vendor fy y advance false with
    | .error refusal => .error refusal
    | .ok w => .ok { y with
        payments := y.payments ++ [⟨advance, min w.tdsPaise (max 0 total), vendor.tdsSection,
          false⟩] }

inductive TdsEvent where
  | bill (taxable total : ℤ)
  | payment (unallocated openPayable total : ℤ)

def TdsEvent.record (vendor : Vendor) (fy : String) (y : Year) : TdsEvent → Except TdsRefusal Year
  | .bill taxable total => recordBill vendor fy y taxable total
  | .payment unallocated openPayable total => recordPayment vendor fy y unallocated openPayable total

/-- The events of a year one after the other, as long as none is refused. -/
def runYear (vendor : Vendor) (fy : String) : Year → List TdsEvent → Except TdsRefusal Year
  | y, [] => .ok y
  | y, event :: events =>
    match event.record vendor fy y with
    | .error refusal => .error refusal
    | .ok y' => runYear vendor fy y' events

end Caflow.Tds
