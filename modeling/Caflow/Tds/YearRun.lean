import Caflow.Tds.Withholding

set_option linter.all false

namespace Caflow.Tds
open Text

variable {vendor : Vendor} {fy sectionText : String} {y y' : Year} {rule : TdsSectionRule}
  {limits : Limits}

/-- The rate a payee is taxed at. -/
def vendorRate (vendor : Vendor) (fy : String) (rule : TdsSectionRule) : ℤ :=
  rateOf rule (tdsRatesFor fy).section206aaFloorRateBps (isCompanyPan vendor.pan) (hasPan vendor.pan)

/-- The tax a year's total bears once a limit is crossed. -/
def yearTax (vendor : Vendor) (fy : String) (rule : TdsSectionRule) (limits : Limits) (total : ℤ) : ℤ :=
  chargeBase rule limits total * vendorRate vendor fy rule / 10000

/-- The tax asked for on a sum of its own, on top of a year so far. -/
def asked (vendor : Vendor) (fy : String) (rule : TdsSectionRule) (limits : Limits)
    (so : Aggregate) (own : ℤ) : ℤ :=
  if limits.crossed own (so.basePaise + own) then
    max 0 (yearTax vendor fy rule limits (so.basePaise + own) - so.tdsPaise)
  else 0

/-- The rule and the limits that a payee's sums are held to. -/
structure HeldTo (vendor : Vendor) (fy : String) (rule : TdsSectionRule) (limits : Limits) : Prop where
  known : ruleFor fy vendor.tdsSection = some rule
  accepted : limitsFor rule fy (strip (upper vendor.tdsSection)) vendor.interestThresholdClass =
    .ok limits

theorem resolve_tds_eq (h : HeldTo vendor fy rule limits) (so : Aggregate) (own : ℤ) :
    ∃ resolution, resolveTds vendor.tdsSection own so.basePaise so.tdsPaise (isCompanyPan vendor.pan)
      fy (hasPan vendor.pan) 0 none vendor.interestThresholdClass = .ok resolution ∧
        resolution.tdsPaise = asked vendor fy rule limits so own := by
  unfold resolveTds asked
  simp only [h.known, h.accepted]
  cases limits.crossed own (so.basePaise + own) with
  | true => exact ⟨_, if_pos rfl, (if_pos rfl).symm⟩
  | false => exact ⟨_, if_neg (by decide), (if_neg (by decide)).symm⟩

theorem resolve_eq (h : HeldTo vendor fy rule limits) (y : Year) (taxable : ℤ) (adjust : Bool) :
    resolveResidentTds vendor fy y taxable adjust =
      let so := aggregateSoFar y vendor.tdsSection
      let adjusted := if adjust then min taxable so.unadjustedAdvancePaise else 0
      .ok ⟨asked vendor fy rule limits so (max 0 (taxable - adjusted)), adjusted⟩ := by
  unfold resolveResidentTds
  simp only
  obtain ⟨resolution, hresolved, htds⟩ := resolve_tds_eq h (aggregateSoFar y vendor.tdsSection)
    (max 0 (taxable - if adjust then
      min taxable (aggregateSoFar y vendor.tdsSection).unadjustedAdvancePaise else 0))
  rw [hresolved]
  simp only [htds]

theorem aggregate_nil (sectionText : String) : aggregateSoFar ⟨[], []⟩ sectionText = ⟨0, 0, 0⟩ := rfl

/-- A bill joins the year. -/
theorem aggregate_bill (h : y.absorbed sectionText ≤ y.charged sectionText) {b : VendorBill}
    (hsection : b.tdsSection = sectionText)
    (hadjusted : b.tdsAdvanceAdjustedPaise ≤ y.charged sectionText - y.absorbed sectionText) :
    let after : Year := { y with bills := y.bills ++ [b] }
    aggregateSoFar after sectionText =
      { basePaise := (aggregateSoFar y sectionText).basePaise + b.own
        tdsPaise := (aggregateSoFar y sectionText).tdsPaise + b.tdsPaise
        unadjustedAdvancePaise :=
          (aggregateSoFar y sectionText).unadjustedAdvancePaise - b.tdsAdvanceAdjustedPaise } ∧
      after.absorbed sectionText ≤ after.charged sectionText := by
  subst hsection
  intro after
  have hbills : after.billsUnder b.tdsSection = y.billsUnder b.tdsSection ++ [b] := by
    unfold Year.billsUnder
    rw [List.filter_append, List.filter_cons_of_pos (by simp), List.filter_nil]
  have hcharged : after.charged b.tdsSection = y.charged b.tdsSection := rfl
  have hadvances : after.advancesUnder b.tdsSection = y.advancesUnder b.tdsSection := rfl
  have habsorbed : after.absorbed b.tdsSection =
      y.absorbed b.tdsSection + b.tdsAdvanceAdjustedPaise := by
    unfold Year.absorbed
    rw [hbills, List.map_append, List.sum_append]
    simp
  constructor
  · unfold aggregateSoFar
    rw [habsorbed, hcharged, hadvances, hbills]
    simp only [List.map_append, List.sum_append, List.map_cons, List.map_nil, List.sum_cons,
      List.sum_nil, add_zero, Aggregate.mk.injEq]
    refine ⟨?_, ?_, ?_⟩
    · omega
    · omega
    · omega
  · rw [habsorbed, hcharged]
    omega

/-- An advance joins the year. -/
theorem aggregate_advance (h : y.absorbed sectionText ≤ y.charged sectionText) {p : VendorPayment}
    (hsection : p.tdsSection = sectionText) (hbase : 0 < p.tdsBasePaise)
    (hkept : p.isReversed = false) :
    let after : Year := { y with payments := y.payments ++ [p] }
    aggregateSoFar after sectionText =
      { basePaise := (aggregateSoFar y sectionText).basePaise + p.tdsBasePaise
        tdsPaise := (aggregateSoFar y sectionText).tdsPaise + p.tdsPaise
        unadjustedAdvancePaise :=
          (aggregateSoFar y sectionText).unadjustedAdvancePaise + p.tdsBasePaise } ∧
      after.absorbed sectionText ≤ after.charged sectionText := by
  subst hsection
  intro after
  have hadvances : after.advancesUnder p.tdsSection = y.advancesUnder p.tdsSection ++ [p] := by
    unfold Year.advancesUnder
    rw [List.filter_append, List.filter_cons_of_pos (by simp [hkept, hbase.ne']), List.filter_nil]
  have hbills : after.billsUnder p.tdsSection = y.billsUnder p.tdsSection := rfl
  have habsorbed : after.absorbed p.tdsSection = y.absorbed p.tdsSection := rfl
  have hcharged : after.charged p.tdsSection = y.charged p.tdsSection + p.tdsBasePaise := by
    unfold Year.charged
    rw [hadvances, List.map_append, List.sum_append]
    simp
  constructor
  · unfold aggregateSoFar
    rw [habsorbed, hcharged, hadvances, hbills]
    simp only [List.map_append, List.sum_append, List.map_cons, List.map_nil, List.sum_cons,
      List.sum_nil, add_zero, Aggregate.mk.injEq]
    refine ⟨?_, ?_, ?_⟩
    · omega
    · omega
    · omega
  · rw [habsorbed, hcharged]
    omega

/-- A payment that advances nothing leaves the year as it is. -/
theorem aggregate_settled (y : Year) (sectionText : String) :
    let after : Year := { y with payments := y.payments ++ [⟨0, 0, "", false⟩] }
    aggregateSoFar after sectionText = aggregateSoFar y sectionText ∧
      after.absorbed sectionText = y.absorbed sectionText ∧
      after.charged sectionText = y.charged sectionText := by
  intro after
  have hadvances : after.advancesUnder sectionText = y.advancesUnder sectionText := by
    unfold Year.advancesUnder
    rw [List.filter_append, List.filter_cons_of_neg (by simp), List.filter_nil, List.append_nil]
  have hcharged : after.charged sectionText = y.charged sectionText := by
    unfold Year.charged
    rw [hadvances]
  refine ⟨?_, rfl, hcharged⟩
  unfold aggregateSoFar
  rw [hcharged, hadvances]
  rfl

/-- What an event adds to the year's total: a bill, what it does not take up of the advances; a
payment, what it pays over the open bills. -/
def TdsEvent.own (so : Aggregate) : TdsEvent → ℤ
  | .bill taxable _ => taxable - min taxable so.unadjustedAdvancePaise
  | .payment unallocated openPayable _ => max 0 (unallocated - openPayable)

/-- What a document has to hold the tax back from. -/
def TdsEvent.room : TdsEvent → ℤ
  | .bill _ total => total
  | .payment _ _ total => max 0 total

def TdsEvent.withheld (vendor : Vendor) (fy : String) (rule : TdsSectionRule) (limits : Limits)
    (so : Aggregate) (e : TdsEvent) : ℤ :=
  match e with
  | .bill _ _ => min (asked vendor fy rule limits so (e.own so)) e.room
  | .payment _ _ _ =>
    if 0 < e.own so then min (asked vendor fy rule limits so (e.own so)) e.room else 0

/-- The year so far after an event. -/
def TdsEvent.next (vendor : Vendor) (fy : String) (rule : TdsSectionRule) (limits : Limits)
    (so : Aggregate) (e : TdsEvent) : Aggregate :=
  { basePaise := so.basePaise + e.own so
    tdsPaise := so.tdsPaise + e.withheld vendor fy rule limits so
    unadjustedAdvancePaise :=
      match e with
      | .bill taxable _ => so.unadjustedAdvancePaise - min taxable so.unadjustedAdvancePaise
      | .payment _ _ _ => so.unadjustedAdvancePaise + e.own so }

/-- A document of positive amounts: a bill's total includes what is taxed of it, a payment's what is
not allocated of it. -/
def TdsEvent.Positive : TdsEvent → Prop
  | .bill taxable total => 0 < taxable ∧ taxable ≤ total
  | .payment unallocated openPayable total =>
    0 ≤ unallocated ∧ 0 ≤ openPayable ∧ 0 < total ∧ unallocated ≤ total

theorem bill_step (h : HeldTo vendor fy rule limits)
    (hpool : y.absorbed vendor.tdsSection ≤ y.charged vendor.tdsSection) {taxable total : ℤ}
    (hok : recordBill vendor fy y taxable total = .ok y') :
    let so := aggregateSoFar y vendor.tdsSection
    let e := TdsEvent.bill taxable total
    y' = { y with bills := y.bills ++ [⟨taxable, e.withheld vendor fy rule limits so,
        vendor.tdsSection, min taxable so.unadjustedAdvancePaise⟩] } ∧
      aggregateSoFar y' vendor.tdsSection = e.next vendor fy rule limits so ∧
      y'.absorbed vendor.tdsSection ≤ y'.charged vendor.tdsSection := by
  intro so e
  unfold recordBill at hok
  rw [resolve_eq h] at hok
  simp only [if_true, Except.ok.injEq] at hok
  have hown : max 0 (taxable - min taxable so.unadjustedAdvancePaise) = e.own so := by
    change _ = taxable - min taxable so.unadjustedAdvancePaise
    omega
  have hy' : y' = { y with bills := y.bills ++ [⟨taxable, e.withheld vendor fy rule limits so,
      vendor.tdsSection, min taxable so.unadjustedAdvancePaise⟩] } := by
    have hwithheld : e.withheld vendor fy rule limits so =
        min (asked vendor fy rule limits so (max 0 (taxable - min taxable so.unadjustedAdvancePaise)))
          total := by
      rw [hown]
      rfl
    rw [← hok, hwithheld]
  refine ⟨hy', ?_⟩
  rw [hy']
  have hfits : min taxable so.unadjustedAdvancePaise ≤
      y.charged vendor.tdsSection - y.absorbed vendor.tdsSection := by
    have : so.unadjustedAdvancePaise =
      max 0 (y.charged vendor.tdsSection - y.absorbed vendor.tdsSection) := rfl
    omega
  obtain ⟨haggregate, hkept⟩ := aggregate_bill hpool (b := ⟨taxable,
    e.withheld vendor fy rule limits so, vendor.tdsSection,
    min taxable so.unadjustedAdvancePaise⟩) rfl hfits
  refine ⟨?_, hkept⟩
  rw [haggregate]
  have hbill : (VendorBill.mk taxable (e.withheld vendor fy rule limits so) vendor.tdsSection
      (min taxable so.unadjustedAdvancePaise)).own = e.own so := hown
  rw [hbill]
  rfl

theorem payment_step (h : HeldTo vendor fy rule limits)
    (hpool : y.absorbed vendor.tdsSection ≤ y.charged vendor.tdsSection)
    {unallocated openPayable total : ℤ}
    (hok : recordPayment vendor fy y unallocated openPayable total = .ok y') :
    let so := aggregateSoFar y vendor.tdsSection
    aggregateSoFar y' vendor.tdsSection =
        (TdsEvent.payment unallocated openPayable total).next vendor fy rule limits so ∧
      y'.absorbed vendor.tdsSection ≤ y'.charged vendor.tdsSection := by
  intro so
  unfold recordPayment at hok
  simp only at hok
  split at hok
  · rename_i hnone
    have hown : (TdsEvent.payment unallocated openPayable total).own so = 0 := by
      change max 0 (unallocated - openPayable) = 0
      omega
    obtain ⟨haggregate, habsorbed, hcharged⟩ := aggregate_settled y vendor.tdsSection
    rw [Except.ok.injEq] at hok
    subst hok
    constructor
    · rw [haggregate]
      unfold TdsEvent.next TdsEvent.withheld
      simp only [hown, lt_irrefl, if_false, add_zero]
      rfl
    · rw [habsorbed, hcharged]
      exact hpool
  · rename_i hsome
    rw [resolve_eq h] at hok
    simp only [Bool.false_eq_true, if_false, sub_zero, Except.ok.injEq] at hok
    subst hok
    have hown : 0 < (TdsEvent.payment unallocated openPayable total).own so := not_le.mp hsome
    have hmax : max 0 (max 0 (unallocated - openPayable)) = max 0 (unallocated - openPayable) := by
      omega
    rw [hmax]
    obtain ⟨haggregate, hkept⟩ := aggregate_advance hpool (p := ⟨max 0 (unallocated - openPayable),
      min (asked vendor fy rule limits so (max 0 (unallocated - openPayable))) (max 0 total),
      vendor.tdsSection, false⟩) rfl hown rfl
    refine ⟨?_, hkept⟩
    rw [haggregate]
    unfold TdsEvent.next TdsEvent.withheld
    simp only [hown, if_true]
    rfl

theorem event_step (h : HeldTo vendor fy rule limits)
    (hpool : y.absorbed vendor.tdsSection ≤ y.charged vendor.tdsSection) {e : TdsEvent}
    (hok : e.record vendor fy y = .ok y') :
    aggregateSoFar y' vendor.tdsSection =
        e.next vendor fy rule limits (aggregateSoFar y vendor.tdsSection) ∧
      y'.absorbed vendor.tdsSection ≤ y'.charged vendor.tdsSection := by
  cases e with
  | bill taxable total => exact (bill_step h hpool hok).2
  | payment unallocated openPayable total => exact payment_step h hpool hok

/-- The year after a run is what its events make of the year so far. -/
theorem run_aggregate (h : HeldTo vendor fy rule limits)
    (hpool : y.absorbed vendor.tdsSection ≤ y.charged vendor.tdsSection) {events : List TdsEvent}
    (hok : runYear vendor fy y events = .ok y') :
    aggregateSoFar y' vendor.tdsSection =
        events.foldl (TdsEvent.next vendor fy rule limits) (aggregateSoFar y vendor.tdsSection) ∧
      y'.absorbed vendor.tdsSection ≤ y'.charged vendor.tdsSection := by
  induction events generalizing y with
  | nil =>
    cases hok
    exact ⟨rfl, hpool⟩
  | cons e events ih =>
    unfold runYear at hok
    cases hrecord : e.record vendor fy y with
    | error refusal => simp [hrecord] at hok
    | ok y₁ =>
      rw [hrecord] at hok
      obtain ⟨hnext, hkept⟩ := event_step h hpool hrecord
      rw [List.foldl_cons, ← hnext]
      exact ih hkept hok

/-- With a known section and accepted limits no document is refused. -/
theorem run_accepted (h : HeldTo vendor fy rule limits) (y : Year) (events : List TdsEvent) :
    ∃ y', runYear vendor fy y events = .ok y' := by
  induction events generalizing y with
  | nil => exact ⟨y, rfl⟩
  | cons e events ih =>
    have hrecord : ∃ y₁, e.record vendor fy y = .ok y₁ := by
      cases e with
      | bill taxable total =>
        unfold TdsEvent.record recordBill
        simp only [resolve_eq h]
        exact ⟨_, rfl⟩
      | payment unallocated openPayable total =>
        unfold TdsEvent.record recordPayment
        simp only [resolve_eq h]
        split
        · exact ⟨_, rfl⟩
        · exact ⟨_, rfl⟩
    obtain ⟨y₁, hy₁⟩ := hrecord
    obtain ⟨y', hy'⟩ := ih y₁
    refine ⟨y', ?_⟩
    unfold runYear
    rw [hy₁]
    exact hy'

end Caflow.Tds
