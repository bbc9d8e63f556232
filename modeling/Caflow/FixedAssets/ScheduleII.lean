import Caflow.Failure
import Caflow.Lib.IsoDate
import Caflow.Text

namespace Caflow.FixedAssets
open IsoDate

/-- A day of a month; months are counted through, twelve to the year. -/
structure Day where
  month : ℤ
  day : ℕ
  deriving DecidableEq

def daysIn (month : ℤ) : ℕ := monthDays (month / 12).toNat ((month % 12).toNat + 1)

/-- `YYYY-MM`. -/
def label (month : ℤ) : String :=
  String.ofList (digits 4 (month / 12).toNat ++ '-' :: digits 2 ((month % 12).toNat + 1))

/-- The year that the financial year of a month starts in. -/
def fyOf (month : ℤ) : ℤ := if 3 ≤ month % 12 then month / 12 else month / 12 - 1

theorem fy_mono {m n : ℤ} (h : m ≤ n) : fyOf m ≤ fyOf n := by
  unfold fyOf
  split_ifs <;> omega

inductive Method where
  | sl | wdv
  deriving DecidableEq

def Method.name : Method → String
  | .sl => "SL"
  | .wdv => "WDV"

/-- The first life Part C offers for a category, which Land, Intangibles and the rest have none of. -/
def defaultLife (category : String) : Option ℕ :=
  if category = "Building" then some 60
  else if category = "Plant & Machinery" then some 15
  else if category = "Furniture & Fixtures" then some 10
  else if category = "Office Equipment" then some 5
  else if category = "Computer & IT Equipment" then some 3
  else if category = "Vehicles" then some 8
  else none

/-- The percentage, to the nearest hundredth, that takes a cost to a twentieth of it over a life: the
highest at which a charge of half a hundredth less still leaves a twentieth. -/
def wdvRateForLife (years : ℕ) : ℚ :=
  (Nat.findGreatest (fun r => 20000 ^ years ≤ 20 * (20001 - 2 * r) ^ years) 10000 : ℚ) / 100

def notDepreciable (category : String) : Prop := category = "Land"

instance (category : String) : Decidable (notDepreciable category) :=
  inferInstanceAs (Decidable (_ = _))

def defaultWdvRate (category : String) : Option ℚ :=
  if notDepreciable category then some 0 else (defaultLife category).map wdvRateForLife

def noStatutoryBasis (category : String) (method : Method) : String :=
  let needed := if method = .wdv then "a WDV rate" else "a useful life"
  "Schedule II prescribes no useful life for '" ++ category ++ "', so there is no rate to " ++
    "default to — record " ++ needed ++ " for this asset. Intangible assets are amortised " ++
    "under AS 26 / Ind AS 38 (Schedule II Part A), which is a judgement the CA makes, " ++
    "not a figure this table can supply."

/-- The five columns that a month's depreciation or its reversal can move. -/
structure Register where
  accumulatedPaise : ℤ
  currentWdvPaise : ℤ
  postedThrough : Option Day
  fy : Option ℤ
  fyStartAccumPaise : Option ℤ
  deriving DecidableEq

/-- A row of the asset register, with what its depreciation reads. -/
structure Asset where
  category : String
  purchaseDate : Day
  purchaseCostPaise : ℤ
  salvageValuePaise : ℤ
  method : Method
  usefulLifeYears : Option ℕ
  wdvRatePercent : Option ℚ
  isDisposed : Bool
  openingPositionDate : Option Day
  register : Register
  deriving DecidableEq

namespace Asset

variable (asset : Asset)

/-- One year's charge off a written-down value. -/
def reduce (rate : ℚ) (wdv : ℤ) : ℤ := wdv - ⌊(wdv : ℚ) * rate / 100⌋

/-- The yearly charges of a rate run over a life. -/
def wdvChain (rate : ℚ) : ℕ → ℤ → ℤ
  | 0, wdv => wdv
  | years + 1, wdv => if reduce rate wdv ≤ 0 then 0 else wdvChain rate years (reduce rate wdv)

/-- Where the row's own rate and life say that its charge stops. -/
def wdvResidualAtEndOfLife (rate : ℚ) : ℤ :=
  let life := asset.usefulLifeYears.getD 0
  if life < 1 ∨ asset.purchaseCostPaise ≤ 0 then 0
  else if rate ≤ 0 then asset.purchaseCostPaise
  else if 100 ≤ rate then 0
  else wdvChain rate life asset.purchaseCostPaise

def categoryOrOther : String := if asset.category = "" then "Other" else asset.category

/-- One year's charge from an opening balance of accumulated depreciation, or why there is none. -/
def computeAnnualDepreciation (accum : ℤ) : Except String ℤ :=
  let category := asset.categoryOrOther
  let wdvNow := asset.purchaseCostPaise - accum
  if notDepreciable category then .ok 0
  else match asset.method with
    | .sl =>
      match (asset.usefulLifeYears.filter (· ≠ 0)).or (defaultLife category) with
      | none => .error (noStatutoryBasis category .sl)
      | some life =>
        let floorPaise := asset.salvageValuePaise
        if wdvNow ≤ floorPaise then .ok 0
        else .ok (min ((asset.purchaseCostPaise - asset.salvageValuePaise) / life)
          (wdvNow - floorPaise))
    | .wdv =>
      match asset.wdvRatePercent.or (defaultWdvRate category) with
      | none => .error (noStatutoryBasis category .wdv)
      | some rate =>
        let floorPaise := max asset.salvageValuePaise (asset.wdvResidualAtEndOfLife rate)
        if wdvNow ≤ floorPaise then .ok 0
        else .ok (min ⌊(wdvNow : ℚ) * rate / 100⌋ (wdvNow - floorPaise))

end Asset

end Caflow.FixedAssets
