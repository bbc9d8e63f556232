import Caflow.Tds.YearRun

set_option linter.all false

namespace Caflow.Tds
open Text

variable {vendor : Vendor} {fy : String} {y y' : Year} {rule : TdsSectionRule} {limit rate : ℤ}
  {bills : List (ℤ × ℤ)}

/-- The tax on a bill of its own, nothing when it does not exceed the limit. -/
def aloneTax (limit rate : ℤ) (b : ℤ × ℤ) : ℤ := if limit < b.1 then b.1 * rate / 10000 else 0

/-- The taxes of the bills after a total and what was withheld on it. -/
def taxesFrom (limit rate : ℤ) : ℤ → ℤ → List (ℤ × ℤ) → List ℤ
  | _, _, [] => []
  | total, withheld, b :: bills =>
    let tax :=
      if limit < b.1 then min (max 0 ((total + b.1) * rate / 10000 - withheld)) b.2 else 0
    tax :: taxesFrom limit rate (total + b.1) (withheld + tax) bills

/-- At every bill over the limit, what the rate makes of all bills so far is short of a paisa more
than what it makes of the bills over the limit, one by one. -/
def Unswept (limit rate total withheld : ℤ) (bills : List (ℤ × ℤ)) : Prop :=
  ∀ before b after, bills = before ++ b :: after → limit < b.1 →
    (total + (before.map Prod.fst).sum + b.1) * rate <
      10000 * (withheld + (before.map (aloneTax limit rate)).sum + b.1 * rate / 10000 + 1)

theorem unswept_cons {total withheld : ℤ} {b : ℤ × ℤ} :
    Unswept limit rate total withheld (b :: bills) ↔
      (limit < b.1 → (total + b.1) * rate < 10000 * (withheld + b.1 * rate / 10000 + 1)) ∧
        Unswept limit rate (total + b.1) (withheld + aloneTax limit rate b) bills := by
  constructor
  · intro h
    constructor
    · intro hlimit
      simpa using h [] b bills rfl hlimit
    · rintro before b' after rfl hlimit
      have := h (b :: before) b' after rfl hlimit
      simp only [List.map_cons, List.sum_cons] at this
      convert this using 1
      · ring
      · ring
  · rintro ⟨hfirst, hrest⟩ before b' after hsplit hlimit
    cases before with
    | nil =>
      obtain ⟨rfl, rfl⟩ := List.cons.inj hsplit
      simpa using hfirst hlimit
    | cons b'' before =>
      obtain ⟨rfl, rfl⟩ := List.cons.inj hsplit
      have := hrest before b' after rfl hlimit
      simp only [List.map_cons, List.sum_cons]
      convert this using 1
      · ring
      · ring

/-- The bills are taxed alone if and only if no bill over the limit sweeps another in. -/
theorem taxes_alone_iff (hrate : 0 ≤ rate) (hrate' : rate < 10000) {total withheld : ℤ}
    (hbills : ∀ b ∈ bills, 0 < b.1 ∧ b.1 ≤ b.2) (htotal : 10000 * withheld ≤ total * rate) :
    taxesFrom limit rate total withheld bills = bills.map (aloneTax limit rate) ↔
      Unswept limit rate total withheld bills := by
  induction bills generalizing total withheld with
  | nil => simp [taxesFrom, Unswept]
  | cons b bills ih =>
    obtain ⟨⟨hpos, hle⟩, hrest⟩ := List.forall_mem_cons.mp hbills
    have hsum : (total + b.1) * rate = total * rate + b.1 * rate := add_mul _ _ _
    have hnonneg : 0 ≤ b.1 * rate := mul_nonneg hpos.le hrate
    have hsmall : b.1 * rate < b.1 * 10000 := mul_lt_mul_of_pos_left hrate' hpos
    have hkept : 10000 * (withheld + aloneTax limit rate b) ≤ (total + b.1) * rate := by
      unfold aloneTax
      split <;> omega
    rw [unswept_cons, taxesFrom, List.map_cons, List.cons.injEq]
    by_cases hlimit : limit < b.1
    · have halone : aloneTax limit rate b = b.1 * rate / 10000 := if_pos hlimit
      simp only [hlimit, if_true, true_implies]
      rw [halone] at hkept ⊢
      have hfirst : min (max 0 ((total + b.1) * rate / 10000 - withheld)) b.2 = b.1 * rate / 10000 ↔
          (total + b.1) * rate < 10000 * (withheld + b.1 * rate / 10000 + 1) := by
        omega
      rw [hfirst]
      apply and_congr_right
      intro hswept
      rw [hfirst.mpr hswept]
      exact ih hrest hkept
    · have halone : aloneTax limit rate b = 0 := if_neg hlimit
      simp only [hlimit, if_false, false_implies, true_and]
      rw [halone] at hkept ⊢
      exact ⟨fun h => (ih hrest hkept).mp h.2, fun h => ⟨rfl, (ih hrest hkept).mpr h⟩⟩

/-- Without an aggregate limit the limit is the section's own, whatever class is accepted. -/
theorem single_limits {limits : Limits} (h : HeldTo vendor fy rule limits)
    (hnone : rule.aggregateThresholdPaise = none) :
    limits.singlePaise = rule.singleThresholdPaise ∧ limits.aggregatePaise = none := by
  have haccepted := h.accepted
  obtain ⟨-, hclasses⟩ := no_aggregate h.known hnone
  unfold limitsFor at haccepted
  split at haccepted
  · cases haccepted
    exact ⟨rfl, hnone⟩
  · split at haccepted
    · cases haccepted
      exact ⟨rfl, hnone⟩
    · rw [hclasses] at haccepted
      cases haccepted

theorem vendor_rate_bounds (h : ruleFor fy vendor.tdsSection = some rule) :
    0 ≤ vendorRate vendor fy rule ∧ vendorRate vendor fy rule < 10000 := by
  obtain ⟨-, hindividual, hindividual', hcompany, hcompany'⟩ := rule_bounds h
  have hfloor : (tdsRatesFor fy).section206aaFloorRateBps = 2000 := by
    unfold tdsRatesFor
    split <;> rfl
  unfold vendorRate rateOf
  rw [hfloor]
  simp only
  split_ifs <;> omega

theorem run_taxes {limits : Limits} (h : HeldTo vendor fy rule limits)
    (hnone : rule.aggregateThresholdPaise = none)
    (hpool : y.absorbed vendor.tdsSection ≤ y.charged vendor.tdsSection)
    (hadvance : (aggregateSoFar y vendor.tdsSection).unadjustedAdvancePaise = 0)
    (hbills : ∀ b ∈ bills, 0 < b.1 ∧ b.1 ≤ b.2)
    (hok : runYear vendor fy y (bills.map fun b => .bill b.1 b.2) = .ok y') :
    y'.bills.map (·.tdsPaise) = y.bills.map (·.tdsPaise) ++
      taxesFrom rule.singleThresholdPaise (vendorRate vendor fy rule)
        (aggregateSoFar y vendor.tdsSection).basePaise
        (aggregateSoFar y vendor.tdsSection).tdsPaise bills := by
  induction bills generalizing y with
  | nil =>
    cases hok
    simp [taxesFrom]
  | cons b bills ih =>
    obtain ⟨⟨hpos, hle⟩, hrest⟩ := List.forall_mem_cons.mp hbills
    rw [List.map_cons, runYear] at hok
    cases hrecord : TdsEvent.record vendor fy y (.bill b.1 b.2) with
    | error refusal => simp [hrecord] at hok
    | ok y₁ =>
      rw [hrecord] at hok
      obtain ⟨hy₁, hnext, hkept⟩ := bill_step h hpool hrecord
      have hadjusted : min b.1 (aggregateSoFar y vendor.tdsSection).unadjustedAdvancePaise = 0 := by
        omega
      have hadvance₁ : (aggregateSoFar y₁ vendor.tdsSection).unadjustedAdvancePaise = 0 := by
        rw [hnext]
        change (aggregateSoFar y vendor.tdsSection).unadjustedAdvancePaise -
          min b.1 (aggregateSoFar y vendor.tdsSection).unadjustedAdvancePaise = 0
        omega
      have hown : (TdsEvent.bill b.1 b.2).own (aggregateSoFar y vendor.tdsSection) = b.1 := by
        change b.1 - min b.1 (aggregateSoFar y vendor.tdsSection).unadjustedAdvancePaise = b.1
        omega
      have htax : (TdsEvent.bill b.1 b.2).withheld vendor fy rule limits
          (aggregateSoFar y vendor.tdsSection) =
          if rule.singleThresholdPaise < b.1 then
            min (max 0 (((aggregateSoFar y vendor.tdsSection).basePaise + b.1) *
              vendorRate vendor fy rule / 10000 - (aggregateSoFar y vendor.tdsSection).tdsPaise)) b.2
          else 0 := by
        obtain ⟨hsingle, haggregate⟩ := single_limits h hnone
        obtain ⟨hexcess, -⟩ := no_aggregate h.known hnone
        unfold TdsEvent.withheld asked yearTax chargeBase Limits.crossed
        rw [hown, hsingle, haggregate, hexcess]
        by_cases hlimit : rule.singleThresholdPaise < b.1
        · simp [hlimit, TdsEvent.room]
        · have hroom : 0 ≤ b.2 := by omega
          simp [hlimit, TdsEvent.room, hroom]
      have hlater := ih hkept hadvance₁ hrest hok
      rw [hlater, hnext, hy₁, taxesFrom]
      simp only [List.map_append, List.map_cons, List.map_nil, List.append_assoc,
        List.singleton_append]
      rw [← htax]
      have hbase : ((TdsEvent.bill b.1 b.2).next vendor fy rule limits
          (aggregateSoFar y vendor.tdsSection)).basePaise =
            (aggregateSoFar y vendor.tdsSection).basePaise + b.1 := by
        change _ + (TdsEvent.bill b.1 b.2).own _ = _
        rw [hown]
      rw [hbase]
      rfl

/-- A bill within the limit bears nothing, a bill over it the tax on itself alone, and the year no
more than the rate on the bills over the limit. -/
structure TaxedAlone (limit rate : ℤ) (bills : List (ℤ × ℤ)) (y : Year) : Prop where
  below : ∀ (i : ℕ) b row, bills[i]? = some b → y.bills[i]? = some row → b.1 ≤ limit →
    row.tdsPaise = 0
  above : ∀ (i : ℕ) b row, bills[i]? = some b → y.bills[i]? = some row → limit < b.1 →
    row.tdsPaise = b.1 * rate / 10000
  bounded : 10000 * (y.bills.map (·.tdsPaise)).sum ≤
    rate * ((bills.filter (limit < ·.1)).map Prod.fst).sum

theorem alone_sum (limit rate : ℤ) (bills : List (ℤ × ℤ)) :
    10000 * (bills.map (aloneTax limit rate)).sum ≤
      rate * ((bills.filter (limit < ·.1)).map Prod.fst).sum := by
  induction bills with
  | nil => simp
  | cons b bills ih =>
    rw [List.map_cons, List.sum_cons, List.filter_cons]
    by_cases hlimit : limit < b.1
    · have hfloor : 10000 * (b.1 * rate / 10000) ≤ b.1 * rate := by omega
      simp only [hlimit, decide_true, if_true, List.map_cons, List.sum_cons, aloneTax]
      calc 10000 * (b.1 * rate / 10000 + (bills.map (aloneTax limit rate)).sum)
          = 10000 * (b.1 * rate / 10000) + 10000 * (bills.map (aloneTax limit rate)).sum := by ring
        _ ≤ b.1 * rate + rate * ((bills.filter (limit < ·.1)).map Prod.fst).sum :=
          add_le_add hfloor ih
        _ = rate * (b.1 + ((bills.filter (limit < ·.1)).map Prod.fst).sum) := by ring
    · simpa [hlimit, aloneTax] using ih

theorem taxed_alone_iff (hlen : y.bills.length = bills.length) :
    TaxedAlone limit rate bills y ↔ y.bills.map (·.tdsPaise) = bills.map (aloneTax limit rate) := by
  constructor
  · rintro ⟨hbelow, habove, -⟩
    apply List.ext_getElem (by simpa using hlen)
    intro i hi hi'
    rw [List.getElem_map, List.getElem_map]
    rw [List.length_map] at hi hi'
    have hb := List.getElem?_eq_getElem hi'
    have hrow := List.getElem?_eq_getElem hi
    unfold aloneTax
    split
    · exact habove i _ _ hb hrow ‹_›
    · exact hbelow i _ _ hb hrow (not_lt.mp ‹_›)
  · intro htaxes
    have hrow : ∀ (i : ℕ) b row, bills[i]? = some b → y.bills[i]? = some row →
        row.tdsPaise = aloneTax limit rate b := by
      intro i b row hb hrow
      have hat := congrArg (·[i]?) htaxes
      simp only [List.getElem?_map, hb, hrow, Option.map_some, Option.some.injEq] at hat
      exact hat
    refine ⟨?_, ?_, ?_⟩
    · intro i b row hb hrow' hlimit
      rw [hrow i b row hb hrow']
      exact if_neg (not_lt.mpr hlimit)
    · intro i b row hb hrow' hlimit
      rw [hrow i b row hb hrow']
      exact if_pos hlimit
    · rw [htaxes]
      exact alone_sum limit rate bills

/-- Under a section without an aggregate limit the bills of a year are taxed one by one if and only
if no bill over the limit sweeps another one in. -/
theorem single_limit_iff (hrule : ruleFor fy vendor.tdsSection = some rule)
    (hnone : rule.aggregateThresholdPaise = none) (hbills : ∀ b ∈ bills, 0 < b.1 ∧ b.1 ≤ b.2)
    (hok : runYear vendor fy ⟨[], []⟩ (bills.map fun b => .bill b.1 b.2) = .ok y) :
    TaxedAlone rule.singleThresholdPaise (vendorRate vendor fy rule) bills y ↔
      Unswept rule.singleThresholdPaise (vendorRate vendor fy rule) 0 0 bills := by
  obtain ⟨hrate, hrate'⟩ := vendor_rate_bounds hrule
  have htaxes : y.bills.map (·.tdsPaise) =
      taxesFrom rule.singleThresholdPaise (vendorRate vendor fy rule) 0 0 bills := by
    cases haccepted : limitsFor rule fy (strip (upper vendor.tdsSection))
        vendor.interestThresholdClass with
    | ok limits =>
      have hrun := run_taxes ⟨hrule, haccepted⟩ hnone le_rfl rfl hbills hok
      rw [aggregate_nil] at hrun
      simpa using hrun
    | error refusal =>
      cases bills with
      | nil =>
        cases hok
        rfl
      | cons b bills =>
        simp [runYear, TdsEvent.record, recordBill, resolveResidentTds, resolveTds, hrule,
          haccepted] at hok
  have hlen : ∀ (total withheld : ℤ) (bills : List (ℤ × ℤ)), (taxesFrom rule.singleThresholdPaise
      (vendorRate vendor fy rule) total withheld bills).length = bills.length := by
    intro total withheld bills
    induction bills generalizing total withheld with
    | nil => rfl
    | cons b bills ih => simp [taxesFrom, ih]
  have hrows : y.bills.length = bills.length := by
    have := congrArg List.length htaxes
    rwa [List.length_map, hlen] at this
  rw [taxed_alone_iff hrows, htaxes]
  exact taxes_alone_iff hrate hrate' hbills (by simp)

/-- Two rents over the limit, each taxed on itself. -/
theorem single_limit_rents :
    TaxedAlone 5000000 1000 [(6000000, 7080000), (8000000, 9440000)]
      ⟨[⟨6000000, 600000, "194I", 0⟩, ⟨8000000, 800000, "194I", 0⟩], []⟩ := by
  refine (@single_limit_iff ⟨"AAAPA1234A", "194I", none⟩ "2025-26" _
    ⟨5000000, 1000, 1000, none, false, none, []⟩ _ (by decide +kernel) rfl (by decide)
    (by decide +kernel)).mpr ?_
  simp only [unswept_cons]
  refine ⟨by decide +kernel, by decide +kernel, ?_⟩
  intro before b after hsplit
  simp at hsplit

/-- A rent within the limit is taxed with the next one over it. -/
theorem single_limit_swept :
    runYear ⟨"AAAPA1234A", "194I", none⟩ "2025-26" ⟨[], []⟩
        [.bill 4000000 4720000, .bill 6000000 7080000] =
      .ok ⟨[⟨4000000, 0, "194I", 0⟩, ⟨6000000, 1000000, "194I", 0⟩], []⟩ ∧
    ¬ TaxedAlone 5000000 1000 [(4000000, 4720000), (6000000, 7080000)]
      ⟨[⟨4000000, 0, "194I", 0⟩, ⟨6000000, 1000000, "194I", 0⟩], []⟩ := by
  refine ⟨by decide +kernel, ?_⟩
  rintro ⟨-, habove, -⟩
  have hsecond := habove 1 (6000000, 7080000) ⟨6000000, 1000000, "194I", 0⟩ rfl rfl (by decide)
  exact absurd hsecond (by decide)

end Caflow.Tds
