import Caflow.Lib.Calendar

namespace Caflow.IncomeTax.HoldingPeriod
open Calendar (Day lt_of_month_index)

def equityLike : List String := ["equity", "equity_shares", "mutual_funds"]

def propertyLike : List String := ["property"]

/-- The asset types of which it is asked whether the security is listed. -/
def listingIsAsked : List String := ["bonds", "other"]

def longTermMonthsListed : ℕ := 12

def longTermMonthsOtherFrom23Jul2024 : ℕ := 24

def longTermMonthsOtherBefore23Jul2024 : ℕ := 36

def longTermMonthsPropertyBefore23Jul2024 : ℕ := 24

def financeNo2Act2024 : Day := .of 2024 7 23

/-- The threshold in force on the date of transfer. Not knowing whether a security is listed takes
the unlisted one. -/
def longTermThresholdMonths (assetType : String) (saleDate : Day) (isListedSecurity : Option Bool) :
    ℕ :=
  if assetType ∈ equityLike then longTermMonthsListed
  else if isListedSecurity = some true ∧ assetType ∈ listingIsAsked then longTermMonthsListed
  else if financeNo2Act2024 ≤ saleDate then longTermMonthsOtherFrom23Jul2024
  else if assetType ∈ propertyLike then longTermMonthsPropertyBefore23Jul2024
  else longTermMonthsOtherBefore23Jul2024

/-- Down from the months between two dates while that many end on the sale or after it. -/
def completedMonths (purchaseDate saleDate : Day) : ℕ → ℕ
  | 0 => 0
  | n + 1 =>
    if saleDate ≤ purchaseDate.addMonthsClamped (n + 1) then completedMonths purchaseDate saleDate n
    else n + 1

/-- Whole months completed in the period of holding, which ends the day before the transfer. -/
def holdingMonths (purchaseDate saleDate : Day) : ℕ :=
  completedMonths purchaseDate saleDate (saleDate.monthIndex - purchaseDate.monthIndex)

/-- The period of holding exceeds a number of months. -/
def HeldBeyond (months : ℕ) (purchaseDate saleDate : Day) : Prop :=
  purchaseDate.addMonthsClamped months < saleDate

instance (months : ℕ) (purchaseDate saleDate : Day) :
    Decidable (HeldBeyond months purchaseDate saleDate) :=
  inferInstanceAs (Decidable (_ < _))

def isLongTerm (assetType : String) (purchaseDate saleDate : Day) (isListedSecurity : Option Bool) :
    Bool :=
  HeldBeyond (longTermThresholdMonths assetType saleDate isListedSecurity) purchaseDate saleDate

variable {purchaseDate saleDate : Day} {months : ℕ}

theorem add_months_strict (d : Day) : StrictMono d.addMonthsClamped := by
  intro m n hlt
  apply lt_of_month_index
  rw [d.month_index_add, d.month_index_add]
  exact Nat.add_lt_add_left hlt _

theorem month_index_mono {a b : Day} (h : a ≤ b) : a.monthIndex ≤ b.monthIndex :=
  not_lt.mp fun hlt => not_le.mpr (lt_of_month_index hlt) h

/-- The count stops at the most months that end before the sale. -/
theorem completed_months_iff (hpos : 0 < months) (n : ℕ) :
    months ≤ completedMonths purchaseDate saleDate n ↔
      months ≤ n ∧ HeldBeyond months purchaseDate saleDate := by
  induction n with
  | zero =>
    rw [completedMonths]
    constructor
    · intro h
      omega
    · intro h
      omega
  | succ n ih =>
    rw [completedMonths]
    split
    · rename_i hends
      rw [ih]
      constructor
      · rintro ⟨hle, hheld⟩
        exact ⟨by omega, hheld⟩
      · rintro ⟨hle, hheld⟩
        refine ⟨Nat.le_of_lt_succ (lt_of_le_of_ne hle ?_), hheld⟩
        rintro rfl
        exact absurd hheld (not_lt.mpr hends)
    · rename_i hbefore
      constructor
      · intro hle
        refine ⟨hle, lt_of_le_of_lt ?_ (not_le.mp hbefore)⟩
        exact (add_months_strict purchaseDate).monotone hle
      · exact And.left

theorem held_beyond_within (h : HeldBeyond months purchaseDate saleDate) :
    months ≤ saleDate.monthIndex - purchaseDate.monthIndex := by
  have hle := month_index_mono (le_of_lt h)
  rw [purchaseDate.month_index_add] at hle
  omega

/-- A positive number of months is exceeded exactly when that many are completed. -/
theorem held_beyond_iff (hpos : 0 < months) :
    HeldBeyond months purchaseDate saleDate ↔ months ≤ holdingMonths purchaseDate saleDate := by
  unfold holdingMonths
  rw [completed_months_iff hpos]
  exact ⟨fun h => ⟨held_beyond_within h, h⟩, And.right⟩

theorem threshold_pos (assetType : String) (saleDate : Day) (isListedSecurity : Option Bool) :
    0 < longTermThresholdMonths assetType saleDate isListedSecurity := by
  unfold longTermThresholdMonths
  split_ifs
  · decide
  · decide
  · decide
  · decide
  · decide

/-- No later transfer meets a longer threshold. -/
theorem threshold_anti (assetType : String) (isListedSecurity : Option Bool) {sale later : Day}
    (hle : sale ≤ later) :
    longTermThresholdMonths assetType later isListedSecurity ≤
      longTermThresholdMonths assetType sale isListedSecurity := by
  unfold longTermThresholdMonths
  split
  · exact le_rfl
  · split
    · exact le_rfl
    · by_cases hsale : financeNo2Act2024 ≤ sale
      · rw [if_pos hsale, if_pos (hsale.trans hle)]
      · rw [if_neg hsale]
        split_ifs
        · decide
        · decide
        · exact le_rfl
        · exact le_rfl

theorem HeldBeyond.later {later : Day} (h : HeldBeyond months purchaseDate saleDate)
    (hle : saleDate ≤ later) : HeldBeyond months purchaseDate later := lt_of_lt_of_le h hle

theorem HeldBeyond.shorter {fewer : ℕ} (h : HeldBeyond months purchaseDate saleDate)
    (hle : fewer ≤ months) : HeldBeyond fewer purchaseDate saleDate :=
  lt_of_le_of_lt ((add_months_strict purchaseDate).monotone hle) h

theorem is_long_term_later {assetType : String} {isListedSecurity : Option Bool} {later : Day}
    (h : isLongTerm assetType purchaseDate saleDate isListedSecurity) (hle : saleDate ≤ later) :
    isLongTerm assetType purchaseDate later isListedSecurity := by
  have hheld := of_decide_eq_true h
  exact decide_eq_true ((hheld.later hle).shorter (threshold_anti assetType isListedSecurity hle))

/-- The two counts agree for every positive threshold and so for each asset's own, and a day more
never makes a long-term asset short-term. -/
theorem long_term_agrees (purchaseDate saleDate : Day) :
    (∀ months, 0 < months →
      (HeldBeyond months purchaseDate saleDate ↔ months ≤ holdingMonths purchaseDate saleDate)) ∧
    ∀ assetType isListedSecurity,
      (isLongTerm assetType purchaseDate saleDate isListedSecurity ↔
        longTermThresholdMonths assetType saleDate isListedSecurity ≤
          holdingMonths purchaseDate saleDate) ∧
      (isLongTerm assetType purchaseDate saleDate isListedSecurity →
        isLongTerm assetType purchaseDate saleDate.next isListedSecurity) := by
  refine ⟨fun months hpos => held_beyond_iff hpos, fun assetType isListedSecurity => ⟨?_, ?_⟩⟩
  · rw [isLongTerm, decide_eq_true_iff]
    exact held_beyond_iff (threshold_pos assetType saleDate isListedSecurity)
  · exact fun h => is_long_term_later h saleDate.lt_next.le

-- bought on the last of January, twelve months end on the last of January, leap year or not
example : ¬ isLongTerm "equity" (.of 2024 1 31) (.of 2025 1 31) none ∧
    isLongTerm "equity" (.of 2024 2 29) (.of 2025 3 1) none := by decide +kernel

end Caflow.IncomeTax.HoldingPeriod
