import Caflow.Tds.ChallanMapping

set_option linter.all false

namespace Caflow.Tds
open Text

/-- Limits and rates of one section, rates in basis points. -/
structure TdsSectionRule where
  singleThresholdPaise : ℤ
  individualRateBps : ℤ
  companyRateBps : ℤ
  aggregateThresholdPaise : Option ℤ := none
  chargeOnExcessOnly : Bool := false
  parentSection : Option String := none
  classThresholdsPaise : List (String × ℤ) := []
  deriving DecidableEq

structure FyTdsRates where
  fy : String
  verified : Bool
  sections : List (String × TdsSectionRule)
  section206aaFloorRateBps : ℤ := 2000

def thresholdClassOrdinary : String := "ordinary"

def section194aClassThresholds : List (String × ℤ) :=
  [("bank_deposit", 5000000), ("bank_deposit_senior", 10000000)]

def sections2025 : List (String × TdsSectionRule) :=
  [("192", { singleThresholdPaise := 0, individualRateBps := 0, companyRateBps := 0 }),
   ("193", { singleThresholdPaise := 1000000, individualRateBps := 1000, companyRateBps := 1000,
             aggregateThresholdPaise := some 1000000 }),
   ("194", { singleThresholdPaise := 1000000, individualRateBps := 1000, companyRateBps := 1000,
             aggregateThresholdPaise := some 1000000 }),
   ("194A", { singleThresholdPaise := 1000000, individualRateBps := 1000, companyRateBps := 1000,
              aggregateThresholdPaise := some 1000000,
              classThresholdsPaise := section194aClassThresholds }),
   ("194B", { singleThresholdPaise := 1000000, individualRateBps := 3000, companyRateBps := 3000 }),
   ("194C", { singleThresholdPaise := 3000000, individualRateBps := 100, companyRateBps := 200,
              aggregateThresholdPaise := some 10000000 }),
   ("194D", { singleThresholdPaise := 2000000, individualRateBps := 200, companyRateBps := 1000,
              aggregateThresholdPaise := some 2000000 }),
   ("194G", { singleThresholdPaise := 2000000, individualRateBps := 200, companyRateBps := 200,
              aggregateThresholdPaise := some 2000000 }),
   ("194H", { singleThresholdPaise := 2000000, individualRateBps := 200, companyRateBps := 200,
              aggregateThresholdPaise := some 2000000 }),
   ("194I", { singleThresholdPaise := 5000000, individualRateBps := 1000, companyRateBps := 1000 }),
   ("194J", { singleThresholdPaise := 5000000, individualRateBps := 1000, companyRateBps := 1000,
              aggregateThresholdPaise := some 5000000 }),
   ("194K", { singleThresholdPaise := 1000000, individualRateBps := 1000, companyRateBps := 1000,
              aggregateThresholdPaise := some 1000000 }),
   ("194I(A)", { singleThresholdPaise := 5000000, individualRateBps := 200, companyRateBps := 200,
                 parentSection := some "194I" }),
   ("194I(B)", { singleThresholdPaise := 5000000, individualRateBps := 1000, companyRateBps := 1000,
                 parentSection := some "194I" }),
   ("194J(A)", { singleThresholdPaise := 5000000, individualRateBps := 200, companyRateBps := 200,
                 parentSection := some "194J", aggregateThresholdPaise := some 5000000 }),
   ("194J(B)", { singleThresholdPaise := 5000000, individualRateBps := 1000, companyRateBps := 1000,
                 parentSection := some "194J", aggregateThresholdPaise := some 5000000 }),
   ("194LA", { singleThresholdPaise := 50000000, individualRateBps := 1000, companyRateBps := 1000,
               aggregateThresholdPaise := some 50000000 }),
   ("194T", { singleThresholdPaise := 2000000, individualRateBps := 1000, companyRateBps := 1000,
              aggregateThresholdPaise := some 2000000 }),
   ("194Q", { singleThresholdPaise := 500000000, individualRateBps := 10, companyRateBps := 10,
              aggregateThresholdPaise := some 500000000, chargeOnExcessOnly := true }),
   ("206C", { singleThresholdPaise := 0, individualRateBps := 10, companyRateBps := 10 })]

/-- A year that is not held is answered with the last verified year. -/
def tdsRatesFor (fy : String) : FyTdsRates :=
  if fy = "2026-27" then { fy := "2026-27", verified := false, sections := sections2025 }
  else { fy := "2025-26", verified := true, sections := sections2025 }

def ruleFor (fy sectionText : String) : Option TdsSectionRule :=
  (tdsRatesFor fy).sections.lookup (strip (upper sectionText))

/-- Whether the raised limits of section 194A exist in a year. -/
def classThresholdsInForce (fy : String) : Bool :=
  match readNat (fy.toList.take 4) with
  | none => false
  | some year => 2025 ≤ year

theorem rule_mem {fy sectionText : String} {rule : TdsSectionRule}
    (h : ruleFor fy sectionText = some rule) : ∃ key, (key, rule) ∈ sections2025 := by
  have hsections : (tdsRatesFor fy).sections = sections2025 := by
    unfold tdsRatesFor
    split <;> rfl
  unfold ruleFor at h
  rw [hsections] at h
  obtain ⟨before, after, hsplit, -⟩ := List.lookup_eq_some_iff.mp h
  exact ⟨_, hsplit ▸ List.mem_append_right _ List.mem_cons_self⟩

/-- No rate takes all of a payment, and no limit or rate is negative. -/
theorem rule_bounds {fy sectionText : String} {rule : TdsSectionRule}
    (h : ruleFor fy sectionText = some rule) :
    0 ≤ rule.singleThresholdPaise ∧ 0 ≤ rule.individualRateBps ∧ rule.individualRateBps < 10000 ∧
      0 ≤ rule.companyRateBps ∧ rule.companyRateBps < 10000 := by
  obtain ⟨key, hmem⟩ := rule_mem h
  have hall : ∀ entry ∈ sections2025, 0 ≤ entry.2.singleThresholdPaise ∧
      0 ≤ entry.2.individualRateBps ∧ entry.2.individualRateBps < 10000 ∧
      0 ≤ entry.2.companyRateBps ∧ entry.2.companyRateBps < 10000 := by decide +kernel
  exact hall _ hmem

/-- Only a section with an aggregate limit charges the excess alone or has classes of limits. -/
theorem no_aggregate {fy sectionText : String} {rule : TdsSectionRule}
    (h : ruleFor fy sectionText = some rule) (hnone : rule.aggregateThresholdPaise = none) :
    rule.chargeOnExcessOnly = false ∧ rule.classThresholdsPaise = [] := by
  obtain ⟨key, hmem⟩ := rule_mem h
  have hall : ∀ entry ∈ sections2025, entry.2.aggregateThresholdPaise = none →
      entry.2.chargeOnExcessOnly = false ∧ entry.2.classThresholdsPaise = [] := by decide +kernel
  exact hall _ hmem hnone

/-- The section a key belongs to, as the register of sections has it. -/
example : ∀ entry ∈ sections2025, parentOf entry.1 = entry.2.parentSection.getD entry.1 := by
  decide +kernel

end Caflow.Tds
