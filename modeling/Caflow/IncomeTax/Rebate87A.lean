import Caflow.IncomeTax.StatutoryRates

namespace Caflow.IncomeTax

/-- The rebate of section 87A up to a threshold of total income, capped. Marginal relief above the
threshold is granted under the new regime only. -/
structure RebateRule where
  thresholdPaise : ℤ
  maxRebatePaise : ℤ
  marginalRelief : Bool

/-- The year's two rebate rules. -/
structure FYRebates where
  newRegimeRebate : RebateRule
  oldRegimeRebate : RebateRule

def rebates2025_26 : FYRebates where
  newRegimeRebate := ⟨120000000, 6000000, true⟩
  oldRegimeRebate := ⟨50000000, 1250000, false⟩

/-- Carried forward unchanged. -/
def rebates2026_27 : FYRebates := rebates2025_26

def rebatesFor (currentFy : String) (fy : Option String) : FYRebates :=
  if fyOr currentFy fy = "2026-27" then rebates2026_27 else rebates2025_26

/-- The tax payable after the rebate. -/
def applyRebate87a (taxableIncomePaise taxPaise : ℤ) (rebate : RebateRule) : ℤ :=
  if taxableIncomePaise ≤ rebate.thresholdPaise then
    max 0 (taxPaise - min taxPaise rebate.maxRebatePaise)
  -- the old regime is a hard cliff
  else if rebate.marginalRelief = false then taxPaise
  else min taxPaise (taxableIncomePaise - rebate.thresholdPaise)

/-- What a resident individual under sixty with other income only is charged. -/
def otherIncomeTaxPaise (currentFy : String) (fy : Option String) (useNewRegime : Bool)
    (otherIncomePaise : ℤ) : ℤ :=
  let rates := ratesFor currentFy fy
  let rebates := rebatesFor currentFy fy
  let slabs := slabsFor rates useNewRegime false false
  let taxableIncome := max 0 otherIncomePaise
  let tax := slabTaxPaise taxableIncome slabs
  let rebateRule := if useNewRegime then rebates.newRegimeRebate else rebates.oldRegimeRebate
  let rebate := tax - applyRebate87a taxableIncome tax rebateRule
  let afterRebate := max 0 (tax - rebate)
  let newCap := if useNewRegime then some rates.newRegimeSurchargeCapPercent else none
  let surcharge := applySurchargeWithMarginalRelief taxableIncome afterRebate
    rates.surchargeBrackets newCap (slabTaxPaise · slabs)
  afterRebate + surcharge + cessPaise (afterRebate + surcharge) rates

/-- The rebate never makes a tax negative and never raises it. -/
theorem rebate_within (rule : RebateRule) (hmax : 0 ≤ rule.maxRebatePaise) (htax : 0 ≤ tax) :
    0 ≤ applyRebate87a income tax rule ∧ applyRebate87a income tax rule ≤ tax := by
  unfold applyRebate87a
  split_ifs <;> omega

/-- Where marginal relief is granted, going past the threshold costs no more than was earned past
it. -/
theorem rebate_relieved {rule : RebateRule} (hrelief : rule.marginalRelief = true)
    (hpast : rule.thresholdPaise < income) :
    applyRebate87a income tax rule ≤ income - rule.thresholdPaise := by
  rw [applyRebate87a, if_neg (not_le.mpr hpast), if_neg (by simp [hrelief])]
  exact min_le_right _ _

end Caflow.IncomeTax
