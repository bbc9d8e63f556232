import Caflow.Lib.Rounding
import Caflow.Text

namespace Caflow.Currency
open Rounding Text

/-- Rupees have two decimals. -/
def baseMinorUnit : ℤ := 2

/-- Minor units of a currency as paise, at rupees for one of its major units. -/
def toBaseMinor (txnMinor : ℤ) (rate : ℚ) (txnMinorUnit : ℕ) : ℤ :=
  halfUp (txnMinor * rate * (10 : ℚ) ^ (baseMinorUnit - txnMinorUnit))

/-- What settling a part of a document takes off its rupees: all that is left where it settles the
whole, so that the books clear, and otherwise the part at the rate it was booked at. -/
def relieved (baseOut foreignOut foreign : ℤ) (rate : ℚ) (txnMinorUnit : ℕ) : ℤ :=
  if foreign = foreignOut then baseOut else toBaseMinor foreign rate txnMinorUnit

/-- Minor units written with the decimals of their currency. -/
def minorUnitsText (amount : ℤ) (minorUnit : ℕ) : String :=
  let magnitude := amount.natAbs
  let sign := if amount < 0 then "-" else ""
  if minorUnit = 0 then sign ++ String.ofList (groupIndian (toString magnitude).toList)
  else
    let scale := 10 ^ minorUnit
    let decimals := (toString (magnitude % scale)).toList
    sign ++ String.ofList (groupIndian (toString (magnitude / scale)).toList) ++ "." ++
      String.ofList (List.replicate (minorUnit - decimals.length) '0' ++ decimals)

@[simp] theorem to_base_minor_zero (rate : ℚ) (txnMinorUnit : ℕ) :
    toBaseMinor 0 rate txnMinorUnit = 0 := by simp [toBaseMinor]

theorem to_base_minor_nonneg {txnMinor : ℤ} {rate : ℚ} (h : 0 ≤ txnMinor) (hrate : 0 < rate)
    (txnMinorUnit : ℕ) : 0 ≤ toBaseMinor txnMinor rate txnMinorUnit := by
  apply half_up_nonneg
  positivity

end Caflow.Currency
