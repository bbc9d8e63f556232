import Caflow.Tds.SingleLimit

set_option linter.all false

namespace Caflow.Tds
open Text

variable {vendor : Vendor} {fy : String} {y y' : Year} {rule : TdsSectionRule} {limits : Limits}
  {so : Aggregate} {e : TdsEvent} {events : List TdsEvent} {aggregate : ℤ}

/-- A document on which tax is resolved: a bill, or a payment with an advance part. -/
def TdsEvent.Charged (so : Aggregate) : TdsEvent → Prop
  | .bill _ _ => True
  | .payment unallocated openPayable total =>
    0 < (TdsEvent.payment unallocated openPayable total).own so

/-- The year's figures are not negative, and no more is withheld than its total bears. -/
structure Sound (vendor : Vendor) (fy : String) (rule : TdsSectionRule) (limits : Limits)
    (so : Aggregate) : Prop where
  base : 0 ≤ so.basePaise
  pool : 0 ≤ so.unadjustedAdvancePaise
  withheld : 0 ≤ so.tdsPaise
  borne : so.tdsPaise ≤ yearTax vendor fy rule limits so.basePaise

theorem charge_base_step (total own : ℤ) (hown : 0 ≤ own) :
    chargeBase rule limits total ≤ chargeBase rule limits (total + own) ∧
      chargeBase rule limits (total + own) ≤ chargeBase rule limits total + own := by
  unfold chargeBase
  split
  · omega
  · omega

/-- More in the year bears no less tax, and no more than what is more. -/
theorem year_tax_step (h : ruleFor fy vendor.tdsSection = some rule) (total : ℤ) {own : ℤ}
    (hown : 0 ≤ own) :
    yearTax vendor fy rule limits total ≤ yearTax vendor fy rule limits (total + own) ∧
      yearTax vendor fy rule limits (total + own) ≤ yearTax vendor fy rule limits total + own := by
  obtain ⟨hrate, hrate'⟩ := vendor_rate_bounds h
  obtain ⟨hle, hle'⟩ := @charge_base_step rule limits total own hown
  obtain ⟨more, hmore⟩ := Int.le.dest hle
  unfold yearTax
  rw [← hmore, add_mul]
  have hless : (more : ℤ) * vendorRate vendor fy rule ≤ more * 9999 :=
    mul_le_mul_of_nonneg_left (by omega) (by omega)
  have hnonneg : 0 ≤ (more : ℤ) * vendorRate vendor fy rule := mul_nonneg (by omega) hrate
  omega

theorem own_bounds (hpos : e.Positive) (hpool : 0 ≤ so.unadjustedAdvancePaise) :
    0 ≤ e.own so ∧ e.own so ≤ e.room := by
  cases e with
  | bill taxable total =>
    obtain ⟨htaxable, htotal⟩ := hpos
    simp only [TdsEvent.own, TdsEvent.room]
    omega
  | payment unallocated openPayable total =>
    obtain ⟨hun, hopen, htotal, hle⟩ := hpos
    simp only [TdsEvent.own, TdsEvent.room]
    omega

theorem asked_nonneg (so : Aggregate) (own : ℤ) : 0 ≤ asked vendor fy rule limits so own := by
  unfold asked
  split
  · exact le_max_left _ _
  · exact le_rfl

theorem asked_le (hsound : Sound vendor fy rule limits so)
    (h : ruleFor fy vendor.tdsSection = some rule) {own : ℤ} (hown : 0 ≤ own) :
    asked vendor fy rule limits so own ≤
      yearTax vendor fy rule limits (so.basePaise + own) - so.tdsPaise := by
  have hstep := (@year_tax_step _ _ _ limits h so.basePaise _ hown).1
  have hborne := hsound.borne
  unfold asked
  split
  · omega
  · omega

theorem withheld_bounds (hpos : e.Positive) (hsound : Sound vendor fy rule limits so)
    (h : ruleFor fy vendor.tdsSection = some rule) :
    0 ≤ e.withheld vendor fy rule limits so ∧
      so.tdsPaise + e.withheld vendor fy rule limits so ≤
        yearTax vendor fy rule limits (so.basePaise + e.own so) := by
  obtain ⟨hown, hroom⟩ := own_bounds hpos hsound.pool
  have hasked := @asked_nonneg vendor fy rule limits so
    (e.own so)
  have hle := asked_le hsound h hown
  unfold TdsEvent.withheld
  cases e with
  | bill taxable total =>
    simp only
    omega
  | payment unallocated openPayable total =>
    simp only
    split <;> omega

theorem sound_next (hpos : e.Positive) (hsound : Sound vendor fy rule limits so)
    (h : ruleFor fy vendor.tdsSection = some rule) :
    Sound vendor fy rule limits (e.next vendor fy rule limits so) := by
  obtain ⟨hown, -⟩ := own_bounds hpos hsound.pool
  obtain ⟨hwithheld, hborne⟩ := withheld_bounds hpos hsound h
  have hbase := hsound.base
  have htds := hsound.withheld
  have hpool := hsound.pool
  refine ⟨add_nonneg hbase hown, ?_, add_nonneg htds hwithheld, hborne⟩
  cases e with
  | bill taxable total =>
    simp only [TdsEvent.next]
    omega
  | payment unallocated openPayable total =>
    simp only [TdsEvent.next]
    omega

theorem sound_nil (h : ruleFor fy vendor.tdsSection = some rule) :
    Sound vendor fy rule limits ⟨0, 0, 0⟩ := by
  have hbase : 0 ≤ chargeBase rule limits 0 := by
    unfold chargeBase
    split
    · exact le_max_left _ _
    · exact le_rfl
  exact ⟨le_rfl, le_rfl, le_rfl,
    Int.ediv_nonneg (mul_nonneg hbase (vendor_rate_bounds h).1) (by norm_num)⟩

theorem sound_run (hevents : ∀ e ∈ events, e.Positive) (hsound : Sound vendor fy rule limits so)
    (h : ruleFor fy vendor.tdsSection = some rule) :
    Sound vendor fy rule limits (events.foldl (TdsEvent.next vendor fy rule limits) so) := by
  induction events generalizing so with
  | nil => exact hsound
  | cons e events ih =>
    obtain ⟨hpos, hrest⟩ := List.forall_mem_cons.mp hevents
    exact ih hrest (sound_next hpos hsound h)

/-- A charged document of a year over its limit is withheld the whole of what is missing, as far as
the document goes. -/
theorem withheld_crossed (hpos : e.Positive) (hsound : Sound vendor fy rule limits so)
    (h : ruleFor fy vendor.tdsSection = some rule) (hcharged : e.Charged so)
    (haggregate : limits.aggregatePaise = some aggregate)
    (hcrossed : aggregate < so.basePaise + e.own so) :
    so.tdsPaise + e.withheld vendor fy rule limits so =
      min (so.tdsPaise + e.room) (yearTax vendor fy rule limits (so.basePaise + e.own so)) := by
  obtain ⟨hown, hroom⟩ := own_bounds hpos hsound.pool
  have hstep := (@year_tax_step _ _ _ limits h so.basePaise _ hown).1
  have hborne := hsound.borne
  have hasked : asked vendor fy rule limits so (e.own so) =
      yearTax vendor fy rule limits (so.basePaise + e.own so) - so.tdsPaise := by
    unfold asked Limits.crossed
    rw [if_pos (by simp [haggregate, hcrossed])]
    omega
  have hwithheld : e.withheld vendor fy rule limits so =
      min (asked vendor fy rule limits so (e.own so)) e.room := by
    cases e with
    | bill taxable total => rfl
    | payment unallocated openPayable total => exact if_pos hcharged
  rw [hwithheld, hasked]
  omega

/-- Within both limits nothing is withheld. -/
theorem withheld_within (hpos : e.Positive) (hpool : 0 ≤ so.unadjustedAdvancePaise)
    (haggregate : limits.aggregatePaise = some aggregate)
    (hwithin : so.basePaise + e.own so ≤ aggregate) (hsingle : e.own so ≤ limits.singlePaise) :
    e.withheld vendor fy rule limits so = 0 := by
  obtain ⟨hown, hroom⟩ := own_bounds hpos hpool
  have hasked : asked vendor fy rule limits so (e.own so) = 0 := by
    unfold asked Limits.crossed
    exact if_neg (by simp [haggregate, hwithin, hsingle])
  unfold TdsEvent.withheld
  rw [hasked]
  cases e with
  | bill taxable total =>
    simp only
    omega
  | payment unallocated openPayable total =>
    simp only
    split <;> omega

/-- What the bills credit. -/
def credited : List TdsEvent → ℤ
  | [] => 0
  | .bill taxable _ :: events => taxable + credited events
  | .payment _ _ _ :: events => credited events

/-- What the payments pay ahead of the bills. -/
def advanced : List TdsEvent → ℤ
  | [] => 0
  | .bill _ _ :: events => advanced events
  | .payment unallocated openPayable _ :: events => max 0 (unallocated - openPayable) + advanced events

/-- What each event of a run adds to the total. -/
def ownAmounts (vendor : Vendor) (fy : String) (rule : TdsSectionRule) (limits : Limits) :
    Aggregate → List TdsEvent → List ℤ
  | _, [] => []
  | so, e :: events =>
    e.own so :: ownAmounts vendor fy rule limits (e.next vendor fy rule limits so) events

/-- A rupee is counted when it is credited, or when it is paid and no bill has credited it yet. -/
theorem counted_once (hevents : ∀ e ∈ events, e.Positive) (so : Aggregate)
    (hpool : 0 ≤ so.unadjustedAdvancePaise) :
    let after := events.foldl (TdsEvent.next vendor fy rule limits) so
    after.basePaise - after.unadjustedAdvancePaise =
        so.basePaise - so.unadjustedAdvancePaise + credited events ∧
      0 ≤ after.unadjustedAdvancePaise ∧
      after.unadjustedAdvancePaise ≤ so.unadjustedAdvancePaise + advanced events := by
  induction events generalizing so with
  | nil => simp [credited, advanced, hpool]
  | cons e events ih =>
    obtain ⟨hpos, hrest⟩ := List.forall_mem_cons.mp hevents
    cases e with
    | bill taxable total =>
      obtain ⟨htaxable, -⟩ := hpos
      have hnext : 0 ≤ ((TdsEvent.bill taxable total).next vendor fy rule limits
          so).unadjustedAdvancePaise := by
        simp only [TdsEvent.next]
        omega
      have hlater := ih hrest _ hnext
      simp only [List.foldl_cons, credited, advanced] at hlater ⊢
      simp only [TdsEvent.next, TdsEvent.own] at hlater
      simp only [TdsEvent.next, TdsEvent.own]
      omega
    | payment unallocated openPayable total =>
      have hnext : 0 ≤ ((TdsEvent.payment unallocated openPayable total).next vendor fy rule limits
          so).unadjustedAdvancePaise := by
        simp only [TdsEvent.next, TdsEvent.own]
        omega
      have hlater := ih hrest _ hnext
      simp only [List.foldl_cons, credited, advanced] at hlater ⊢
      simp only [TdsEvent.next, TdsEvent.own] at hlater
      simp only [TdsEvent.next, TdsEvent.own]
      omega

/-- The total only grows. -/
theorem base_grows (hevents : ∀ e ∈ events, e.Positive) (hpool : 0 ≤ so.unadjustedAdvancePaise) :
    so.basePaise ≤ (events.foldl (TdsEvent.next vendor fy rule limits) so).basePaise := by
  induction events generalizing so with
  | nil => exact le_rfl
  | cons e events ih =>
    obtain ⟨hpos, hrest⟩ := List.forall_mem_cons.mp hevents
    obtain ⟨hown, -⟩ := own_bounds hpos hpool
    have hnext : 0 ≤ (e.next vendor fy rule limits so).unadjustedAdvancePaise := by
      have := (@counted_once vendor fy rule limits [e]
        (List.forall_mem_singleton.mpr hpos) so hpool).2.1
      exact this
    have hlater := ih hrest hnext
    have hbase : (e.next vendor fy rule limits so).basePaise = so.basePaise + e.own so := rfl
    rw [List.foldl_cons]
    omega

/-- While no limit is crossed nothing is withheld. -/
theorem run_within (hevents : ∀ e ∈ events, e.Positive) (hsound : Sound vendor fy rule limits so)
    (h : ruleFor fy vendor.tdsSection = some rule)
    (haggregate : limits.aggregatePaise = some aggregate)
    (hsingle : ∀ own ∈ ownAmounts vendor fy rule limits so events, own ≤ limits.singlePaise)
    (hwithin : (events.foldl (TdsEvent.next vendor fy rule limits) so).basePaise ≤ aggregate) :
    (events.foldl (TdsEvent.next vendor fy rule limits) so).tdsPaise = so.tdsPaise := by
  induction events generalizing so with
  | nil => rfl
  | cons e events ih =>
    obtain ⟨hpos, hrest⟩ := List.forall_mem_cons.mp hevents
    obtain ⟨hfirst, hlater⟩ := List.forall_mem_cons.mp hsingle
    have hsound' := sound_next hpos hsound h
    have hgrows := @base_grows vendor fy rule limits _ _ hrest
      hsound'.pool
    have hbase : (e.next vendor fy rule limits so).basePaise = so.basePaise + e.own so := rfl
    rw [List.foldl_cons] at hwithin ⊢
    rw [ih hrest hsound' hlater hwithin]
    have hnone := @withheld_within vendor fy rule _ _ _ _ hpos hsound.pool
      haggregate (by omega) hfirst
    change so.tdsPaise + e.withheld vendor fy rule limits so = so.tdsPaise
    rw [hnone, add_zero]

/-- Once the whole tax on the total is withheld over the limit, it stays so. -/
theorem run_crossed (hevents : ∀ e ∈ events, e.Positive) (hsound : Sound vendor fy rule limits so)
    (h : ruleFor fy vendor.tdsSection = some rule)
    (haggregate : limits.aggregatePaise = some aggregate) (hcrossed : aggregate < so.basePaise)
    (hwhole : so.tdsPaise = yearTax vendor fy rule limits so.basePaise) :
    (events.foldl (TdsEvent.next vendor fy rule limits) so).tdsPaise =
      yearTax vendor fy rule limits
        (events.foldl (TdsEvent.next vendor fy rule limits) so).basePaise := by
  induction events generalizing so with
  | nil => exact hwhole
  | cons e events ih =>
    obtain ⟨hpos, hrest⟩ := List.forall_mem_cons.mp hevents
    obtain ⟨hown, hroom⟩ := own_bounds hpos hsound.pool
    have hbase : (e.next vendor fy rule limits so).basePaise = so.basePaise + e.own so := rfl
    refine ih hrest (sound_next hpos hsound h) (by omega) ?_
    change so.tdsPaise + e.withheld vendor fy rule limits so =
      yearTax vendor fy rule limits (so.basePaise + e.own so)
    by_cases hcharged : e.Charged so
    · rw [withheld_crossed hpos hsound h hcharged haggregate (by omega)]
      have hstep := (@year_tax_step _ _ _ limits h so.basePaise _ hown).2
      omega
    · cases e with
      | bill taxable total => exact absurd trivial hcharged
      | payment unallocated openPayable total =>
        have hnone : (TdsEvent.payment unallocated openPayable total).withheld vendor fy rule limits
            so = 0 := if_neg hcharged
        have hzero : (TdsEvent.payment unallocated openPayable total).own so = 0 :=
          le_antisymm (not_lt.mp hcharged) hown
        rw [hnone, hzero, add_zero, add_zero]
        exact hwhole

/-- A bill in two parts counts the same, and bears the same once the year is over its limit and the
last part can bear what is missing, or as long as neither limit is crossed. -/
theorem split_bill (hsound : Sound vendor fy rule limits so)
    (h : ruleFor fy vendor.tdsSection = some rule)
    (haggregate : limits.aggregatePaise = some aggregate) {t₁ T₁ t₂ T₂ : ℤ}
    (hfirst : (TdsEvent.bill t₁ T₁).Positive) (hsecond : (TdsEvent.bill t₂ T₂).Positive) :
    let one := (TdsEvent.bill (t₁ + t₂) (T₁ + T₂)).next vendor fy rule limits so
    let two := (TdsEvent.bill t₂ T₂).next vendor fy rule limits
      ((TdsEvent.bill t₁ T₁).next vendor fy rule limits so)
    one.basePaise = two.basePaise ∧
    (aggregate < one.basePaise →
      yearTax vendor fy rule limits one.basePaise - so.tdsPaise ≤ T₂ →
      one.tdsPaise = yearTax vendor fy rule limits one.basePaise ∧
        two.tdsPaise = yearTax vendor fy rule limits one.basePaise) ∧
    (one.basePaise ≤ aggregate → t₁ + t₂ ≤ limits.singlePaise →
      one.tdsPaise = so.tdsPaise ∧ two.tdsPaise = so.tdsPaise) := by
  intro one two
  have hwhole : (TdsEvent.bill (t₁ + t₂) (T₁ + T₂)).Positive :=
    ⟨add_pos hfirst.1 hsecond.1, add_le_add hfirst.2 hsecond.2⟩
  have hmid := sound_next hfirst hsound h
  have hpool := hsound.pool
  obtain ⟨ht₁, hT₁⟩ := hfirst
  obtain ⟨ht₂, hT₂⟩ := hsecond
  have hone : one.basePaise =
      so.basePaise + (t₁ + t₂ - min (t₁ + t₂) so.unadjustedAdvancePaise) := rfl
  have hfirstBase : ((TdsEvent.bill t₁ T₁).next vendor fy rule limits so).basePaise =
      so.basePaise + (t₁ - min t₁ so.unadjustedAdvancePaise) := rfl
  have htwo : two.basePaise = so.basePaise + (t₁ - min t₁ so.unadjustedAdvancePaise) +
      (t₂ - min t₂ (so.unadjustedAdvancePaise - min t₁ so.unadjustedAdvancePaise)) := rfl
  have hsame : one.basePaise = two.basePaise := by omega
  have hfirstTax := (withheld_bounds (e := .bill t₁ T₁) ⟨ht₁, hT₁⟩ hsound h).1
  have htds : two.tdsPaise = ((TdsEvent.bill t₁ T₁).next vendor fy rule limits so).tdsPaise +
      (TdsEvent.bill t₂ T₂).withheld vendor fy rule limits
        ((TdsEvent.bill t₁ T₁).next vendor fy rule limits so) := rfl
  have hmidTds : ((TdsEvent.bill t₁ T₁).next vendor fy rule limits so).tdsPaise =
      so.tdsPaise + (TdsEvent.bill t₁ T₁).withheld vendor fy rule limits so := rfl
  refine ⟨hsame, ?_, ?_⟩
  · intro hcrossed hbear
    constructor
    · have := withheld_crossed hwhole hsound h trivial haggregate hcrossed
      have hroom : (TdsEvent.bill (t₁ + t₂) (T₁ + T₂)).room = T₁ + T₂ := rfl
      change so.tdsPaise + (TdsEvent.bill (t₁ + t₂) (T₁ + T₂)).withheld vendor fy rule limits so = _
      rw [this, hroom]
      exact min_eq_right (by change yearTax vendor fy rule limits one.basePaise ≤ _; omega)
    · have := withheld_crossed (e := .bill t₂ T₂) ⟨ht₂, hT₂⟩ hmid h trivial haggregate
        (by change aggregate < two.basePaise; omega)
      have hroom : (TdsEvent.bill t₂ T₂).room = T₂ := rfl
      rw [htds, this, hroom, hsame]
      apply min_eq_right
      change yearTax vendor fy rule limits two.basePaise ≤ _
      rw [← hsame]
      omega
  · intro hwithin hsingle
    constructor
    · have hnone := @withheld_within vendor fy rule _ _ _ _ hwhole hpool
        haggregate (by change one.basePaise ≤ aggregate; exact hwithin)
        (by change t₁ + t₂ - min (t₁ + t₂) so.unadjustedAdvancePaise ≤ limits.singlePaise; omega)
      change so.tdsPaise + (TdsEvent.bill (t₁ + t₂) (T₁ + T₂)).withheld vendor fy rule limits so = _
      rw [hnone, add_zero]
    · have hnone₁ := @withheld_within vendor fy rule _ _ (.bill t₁ T₁) _
        ⟨ht₁, hT₁⟩ hpool haggregate
        (by change so.basePaise + (t₁ - min t₁ so.unadjustedAdvancePaise) ≤ aggregate; omega)
        (by change t₁ - min t₁ so.unadjustedAdvancePaise ≤ limits.singlePaise; omega)
      have hnone₂ := @withheld_within vendor fy rule _ _ (.bill t₂ T₂) _
        ⟨ht₂, hT₂⟩ hmid.pool haggregate
        (by change two.basePaise ≤ aggregate; omega)
        (by
          change t₂ - min t₂ (so.unadjustedAdvancePaise - min t₁ so.unadjustedAdvancePaise) ≤
            limits.singlePaise
          omega)
      rw [htds, hnone₂, hmidTds, hnone₁, add_zero, add_zero]

/-- Under an aggregate limit every rupee counts once, nothing is withheld while no limit is crossed,
and from the crossing on the year bears the rate on what is counted, as far as the documents go. -/
theorem aggregate_limit_kept (h : HeldTo vendor fy rule limits)
    (haggregate : limits.aggregatePaise = some aggregate) (hevents : ∀ e ∈ events, e.Positive)
    (hok : runYear vendor fy ⟨[], []⟩ events = .ok y) :
    let so := aggregateSoFar y vendor.tdsSection
    let due := yearTax vendor fy rule limits
    (so.basePaise = credited events + so.unadjustedAdvancePaise ∧
      0 ≤ so.unadjustedAdvancePaise ∧ so.unadjustedAdvancePaise ≤ advanced events) ∧
    so.tdsPaise ≤ due so.basePaise ∧
    ((∀ own ∈ ownAmounts vendor fy rule limits ⟨0, 0, 0⟩ events, own ≤ limits.singlePaise) →
      so.basePaise ≤ aggregate → so.tdsPaise = 0) ∧
    (∀ (e : TdsEvent) y', e.Positive → e.Charged so → e.record vendor fy y = .ok y' →
      aggregate < (aggregateSoFar y' vendor.tdsSection).basePaise →
      (aggregateSoFar y' vendor.tdsSection).tdsPaise =
        min (so.tdsPaise + e.room) (due (aggregateSoFar y' vendor.tdsSection).basePaise)) ∧
    (∀ (later : List TdsEvent) y', (∀ e ∈ later, e.Positive) → runYear vendor fy y later = .ok y' →
      aggregate < so.basePaise → so.tdsPaise = due so.basePaise →
      (aggregateSoFar y' vendor.tdsSection).tdsPaise =
        due (aggregateSoFar y' vendor.tdsSection).basePaise) ∧
    (∀ t₁ T₁ t₂ T₂ y₁ y₂, (TdsEvent.bill t₁ T₁).Positive → (TdsEvent.bill t₂ T₂).Positive →
      runYear vendor fy y [.bill (t₁ + t₂) (T₁ + T₂)] = .ok y₁ →
      runYear vendor fy y [.bill t₁ T₁, .bill t₂ T₂] = .ok y₂ →
      let one := aggregateSoFar y₁ vendor.tdsSection
      let two := aggregateSoFar y₂ vendor.tdsSection
      one.basePaise = two.basePaise ∧
      (aggregate < one.basePaise → due one.basePaise - so.tdsPaise ≤ T₂ →
        one.tdsPaise = due one.basePaise ∧ two.tdsPaise = due one.basePaise) ∧
      (one.basePaise ≤ aggregate → t₁ + t₂ ≤ limits.singlePaise →
        one.tdsPaise = so.tdsPaise ∧ two.tdsPaise = so.tdsPaise)) := by
  intro so due
  obtain ⟨hso, hpool⟩ := run_aggregate h le_rfl hok
  rw [aggregate_nil] at hso
  have hsound : Sound vendor fy rule limits so := by
    change Sound vendor fy rule limits (aggregateSoFar y vendor.tdsSection)
    rw [hso]
    exact sound_run hevents (sound_nil h.known) h.known
  refine ⟨?_, hsound.borne, ?_, ?_, ?_, ?_⟩
  · have hcounted := @counted_once vendor fy rule limits _
      hevents ⟨0, 0, 0⟩ le_rfl
    simp only at hcounted
    rw [← hso] at hcounted
    obtain ⟨hbase, hnonneg, hle⟩ := hcounted
    refine ⟨?_, hnonneg, ?_⟩
    · change (aggregateSoFar y vendor.tdsSection).basePaise =
        credited events + (aggregateSoFar y vendor.tdsSection).unadjustedAdvancePaise
      omega
    · change (aggregateSoFar y vendor.tdsSection).unadjustedAdvancePaise ≤ advanced events
      omega
  · intro hsingle hwithin
    have hnone := run_within hevents (sound_nil h.known) h.known haggregate hsingle
      (by rw [← hso]; exact hwithin)
    rw [← hso] at hnone
    exact hnone
  · intro e y' hpos hcharged hrecord hcrossed
    obtain ⟨hnext, -⟩ := event_step h hpool hrecord
    rw [hnext] at hcrossed ⊢
    exact withheld_crossed hpos hsound h.known hcharged haggregate hcrossed
  · intro later y' hlater hrun hcrossed hwhole
    obtain ⟨hnext, -⟩ := run_aggregate h hpool hrun
    rw [hnext]
    exact run_crossed hlater hsound h.known haggregate hcrossed hwhole
  · intro t₁ T₁ t₂ T₂ y₁ y₂ hfirst hsecond hone htwo
    obtain ⟨hnext₁, -⟩ := run_aggregate h hpool hone
    obtain ⟨hnext₂, -⟩ := run_aggregate h hpool htwo
    rw [hnext₁, hnext₂]
    exact split_bill hsound h.known haggregate hfirst hsecond

/-- A professional with a PAN whose fees cross the limit of section 194J at the second bill. -/
theorem aggregate_limit_crossed :
    let vendor : Vendor := ⟨"AAAPA1234A", "194J", none⟩
    let rule : TdsSectionRule :=
      ⟨5000000, 1000, 1000, some 5000000, false, none, []⟩
    let y : Year := ⟨[⟨3000000, 0, "194J", 0⟩], []⟩
    let y' : Year := ⟨[⟨3000000, 0, "194J", 0⟩, ⟨4000000, 700000, "194J", 0⟩], []⟩
    (aggregateSoFar y "194J").tdsPaise = 0 ∧
      (aggregateSoFar y' "194J").tdsPaise =
        yearTax vendor "2025-26" rule ⟨5000000, some 5000000, none⟩ 7000000 := by
  intro vendor rule y y'
  have h : HeldTo vendor "2025-26" rule ⟨5000000, some 5000000, none⟩ :=
    ⟨by decide +kernel, by decide +kernel⟩
  obtain ⟨-, -, hnone, hcrossed, -, -⟩ := @aggregate_limit_kept _ _ y _ _
    [.bill 3000000 3540000] _ h rfl (by simp [TdsEvent.Positive]) (by decide +kernel)
  refine ⟨hnone (by decide +kernel) (by decide +kernel), ?_⟩
  exact (hcrossed (.bill 4000000 4720000) y' (by simp [TdsEvent.Positive]) trivial
    (by decide +kernel) (by decide +kernel)).trans (by decide +kernel)

/-- Purchases of goods bear the rate on the excess alone; a bill too small for the year's tax bears
its total; and two halves of a contract bill over the single limit bear nothing. -/
theorem aggregate_limit_short :
    runYear ⟨"AAAPA1234A", "194Q", none⟩ "2025-26" ⟨[], []⟩ [.bill 600000000 708000000] =
      .ok ⟨[⟨600000000, 100000, "194Q", 0⟩], []⟩ ∧
    600000000 * vendorRate ⟨"AAAPA1234A", "194Q", none⟩ "2025-26"
      ⟨500000000, 10, 10, some 500000000, true, none, []⟩ / 10000 = 600000 ∧
    runYear ⟨"AAAPA1234A", "194J", none⟩ "2025-26" ⟨[], []⟩
        [.bill 4900000 5782000, .bill 200000 236000] =
      .ok ⟨[⟨4900000, 0, "194J", 0⟩, ⟨200000, 236000, "194J", 0⟩], []⟩ ∧
    5100000 * vendorRate ⟨"AAAPA1234A", "194J", none⟩ "2025-26"
      ⟨5000000, 1000, 1000, some 5000000, false, none, []⟩ / 10000 = 510000 ∧
    runYear ⟨"AAAPA1234A", "194C", none⟩ "2025-26" ⟨[], []⟩ [.bill 4000000 4720000] =
      .ok ⟨[⟨4000000, 40000, "194C", 0⟩], []⟩ ∧
    runYear ⟨"AAAPA1234A", "194C", none⟩ "2025-26" ⟨[], []⟩
        [.bill 2000000 2360000, .bill 2000000 2360000] =
      .ok ⟨[⟨2000000, 0, "194C", 0⟩, ⟨2000000, 0, "194C", 0⟩], []⟩ := by
  refine ⟨by decide +kernel, by decide +kernel, by decide +kernel, by decide +kernel,
    by decide +kernel, by decide +kernel⟩

end Caflow.Tds
