import Caflow.Failure
import Caflow.Text
import Caflow.IncomeTax.StatutoryRates

set_option linter.all false

namespace Caflow.IncomeTax
open MarginalRelief

def crorePaise : ℤ := 1000000000

inductive EntityKind
  | firm | llp | domesticCompany
  deriving DecidableEq

inductive CompanyRegime
  | normal | s115BAA | s115BAB

structure EntityTaxRates where
  fy : String
  firmRatePercent : ℤ
  firmSurcharge : List SurchargeBracket
  companyRatePercent : ℤ
  companyConcessionalRatePercent : ℤ
  companyTurnoverLimitPaise : ℤ
  companyTurnoverLookbackYears : ℤ
  companySurcharge : List SurchargeBracket
  s115baaRatePercent : ℤ
  s115babRatePercent : ℤ
  concessionalSurchargePercent : ℤ

def entityFy2025_26 : EntityTaxRates where
  fy := "2025-26"
  firmRatePercent := 30
  firmSurcharge := [⟨1 * crorePaise, 12⟩]
  companyRatePercent := 30
  companyConcessionalRatePercent := 25
  companyTurnoverLimitPaise := 400 * crorePaise
  companyTurnoverLookbackYears := 2
  companySurcharge := [⟨1 * crorePaise, 7⟩, ⟨10 * crorePaise, 12⟩]
  s115baaRatePercent := 22
  s115babRatePercent := 15
  concessionalSurchargePercent := 10

def entityFy2026_27 : EntityTaxRates := { entityFy2025_26 with fy := "2026-27" }

/-- The rates of the year asked for, or of the current year when none is named. -/
def entityRatesFor (currentFy : String) (fy : Option String) : EntityTaxRates :=
  if fyOr currentFy fy = "2026-27" then entityFy2026_27 else entityFy2025_26

/-- The year whose turnover decides the lower company rate. -/
def turnoverReferenceFy (fy : String) (rates : EntityTaxRates) : Except Failure String :=
  let written := fy.toList.takeWhile (· ≠ '-')
  match Text.readNat written with
  | none =>
    .error (.valueError ("invalid literal for int() with base 10: '" ++ String.ofList written ++ "'"))
  | some year =>
    let start : ℤ := year - rates.companyTurnoverLookbackYears
    .ok (s!"{start}-" ++ String.ofList ((toString (start + 1)).toList.drop 2))

structure EntityTaxResult where
  entity : EntityKind
  regime : Option CompanyRegime
  fy : String
  ratePercent : ℤ
  taxBeforeSurchargePaise : ℤ
  surchargePaise : ℤ
  cessPaise : ℤ
  totalTaxPaise : ℤ
  turnoverReferenceFy : Option String

/-- What an entity is taxed on: one rate, and either brackets or a flat surcharge. -/
structure Basis where
  ratePercent : ℤ
  brackets : List SurchargeBracket
  flatSurcharge : Option ℤ

def basisOf (rates : EntityTaxRates) (entity : EntityKind) (companyRegime : CompanyRegime)
    (turnoverInReferenceYearPaise : Option ℤ) : Basis :=
  match entity with
  | .firm | .llp => ⟨rates.firmRatePercent, rates.firmSurcharge, none⟩
  | .domesticCompany =>
    match companyRegime with
    | .s115BAA => ⟨rates.s115baaRatePercent, [], some rates.concessionalSurchargePercent⟩
    | .s115BAB => ⟨rates.s115babRatePercent, [], some rates.concessionalSurchargePercent⟩
    | .normal =>
      match turnoverInReferenceYearPaise with
      | none => ⟨rates.companyRatePercent, rates.companySurcharge, none⟩
      | some turnover =>
        if turnover ≤ rates.companyTurnoverLimitPaise then
          ⟨rates.companyConcessionalRatePercent, rates.companySurcharge, none⟩
        else ⟨rates.companyRatePercent, rates.companySurcharge, none⟩

def refFyOf (rates : EntityTaxRates) (entity : EntityKind) : Except Failure (Option String) :=
  match entity with
  | .firm | .llp => .ok none
  | .domesticCompany => (turnoverReferenceFy rates.fy rates).map some

def surchargePaise (basis : Basis) (income tax : ℤ) : ℤ :=
  match basis.flatSurcharge with
  | some flat => tax * flat / 100
  | none => applySurchargeWithMarginalRelief income tax basis.brackets none
      (fun inc => inc * basis.ratePercent / 100)

/-- Tax for a firm, an LLP or a domestic company. -/
def computeEntityTax (currentFy : String) (totalIncomePaise : ℤ) (entity : EntityKind)
    (fy : Option String) (companyRegime : CompanyRegime)
    (turnoverInReferenceYearPaise : Option ℤ) : Except Failure EntityTaxResult := do
  let rates := entityRatesFor currentFy fy
  let income := max 0 totalIncomePaise
  let refFy ← refFyOf rates entity
  let basis := basisOf rates entity companyRegime turnoverInReferenceYearPaise
  let tax := income * basis.ratePercent / 100
  let surcharge := surchargePaise basis income tax
  let cess := cessPaise (tax + surcharge) (ratesFor currentFy (some rates.fy))
  return {
    entity := entity
    regime := if entity = .domesticCompany then some companyRegime else none
    fy := rates.fy
    ratePercent := basis.ratePercent
    taxBeforeSurchargePaise := tax
    surchargePaise := surcharge
    cessPaise := cess
    totalTaxPaise := tax + surcharge + cess
    turnoverReferenceFy := refFy }

theorem refFyOf_held (currentFy : String) (fy : Option String) (entity : EntityKind) :
    ∃ label, refFyOf (entityRatesFor currentFy fy) entity = .ok label := by
  cases entity with
  | firm => exact ⟨_, rfl⟩
  | llp => exact ⟨_, rfl⟩
  | domesticCompany =>
    unfold entityRatesFor
    split
    · exact ⟨some "2024-25", by decide +kernel⟩
    · exact ⟨some "2023-24", by decide +kernel⟩

/-- The computation always returns, with the total its basis charges. -/
theorem computeEntityTax_total (currentFy : String) (income : ℤ) (entity : EntityKind)
    (fy : Option String) (regime : CompanyRegime) (turnover : Option ℤ) :
    let basis := basisOf (entityRatesFor currentFy fy) entity regime turnover
    let tax := max 0 income * basis.ratePercent / 100
    let surcharge := surchargePaise basis (max 0 income) tax
    ∃ result, computeEntityTax currentFy income entity fy regime turnover = .ok result ∧
      result.totalTaxPaise = tax + surcharge + cessPaise (tax + surcharge)
        (ratesFor currentFy (some (entityRatesFor currentFy fy).fy)) := by
  obtain ⟨label, hlabel⟩ := refFyOf_held currentFy fy entity
  unfold computeEntityTax
  simp only [hlabel]
  exact ⟨_, rfl, rfl⟩

/-- A flat rate between nothing and the whole is sound on brackets its relief keeps apart. -/
theorem flat_sound (hr : 0 ≤ rate) (hr' : rate ≤ 100) (hclimb : Climbs (ladderOf brackets none))
    (hpos : ∀ s ∈ ladderOf brackets none, 0 < s.rate)
    (hsep : Separate (percent · rate) (ladderOf brackets none)) :
    Sound (percent · rate) brackets none :=
  ⟨percent_steady hr hr', hclimb, (fun _ h => nomatch h), hpos, hsep⟩

end Caflow.IncomeTax
