import Caflow.Gst.CreditHeads
import Caflow.Lib.RoundUp

namespace Caflow.Gst.Rule37
open RoundUp

/-- What has been settled against the bill. Tax deducted at source counts as paid. -/
def dischargedPaise (paidPaise tdsPaise : ℤ) : ℤ := max 0 (paidPaise + tdsPaise)

/-- What the supplier is owed for the supply in all, after its notes. -/
def supplyValuePaise (totalPaise debitedPaise creditNotePaise : ℤ) : ℤ :=
  max 0 (totalPaise - debitedPaise + creditNotePaise)

def unpaidPaise (totalPaise paidPaise tdsPaise debitedPaise creditNotePaise : ℤ) : ℤ :=
  max 0 (supplyValuePaise totalPaise debitedPaise creditNotePaise -
    dischargedPaise paidPaise tdsPaise)

/-- The credit still availed under one head. -/
def availedHeadPaise (billHeadPaise debitNoteHeadPaise creditNoteHeadPaise : ℤ) : ℤ :=
  max 0 (billHeadPaise - debitNoteHeadPaise + creditNoteHeadPaise)

def proportionate (itcPaise unpaid totalPaise : ℤ) : ℤ :=
  if totalPaise ≤ 0 ∨ unpaid ≤ 0 ∨ itcPaise ≤ 0 then 0
  else if totalPaise ≤ unpaid then itcPaise
  else ceilDiv (itcPaise * unpaid) totalPaise

/-- A bill with what was paid and deducted on it, and its debit and credit notes. -/
structure Bill where
  totalPaise : ℤ
  paidPaise : ℤ
  tdsPaise : ℤ
  tax : Heads
  debitedPaise : ℤ
  creditNotePaise : ℤ
  debitNoteTax : Heads
  creditNoteTax : Heads

structure Reversal where
  unpaidPaise : ℤ
  supplyValuePaise : ℤ
  heads : Heads
  totalPaise : ℤ

def Bill.value (b : Bill) : ℤ := supplyValuePaise b.totalPaise b.debitedPaise b.creditNotePaise

def Bill.unpaid (b : Bill) : ℤ :=
  unpaidPaise b.totalPaise b.paidPaise b.tdsPaise b.debitedPaise b.creditNotePaise

def Bill.availed (b : Bill) : Heads := fun h =>
  availedHeadPaise (b.tax h) (b.debitNoteTax h) (b.creditNoteTax h)

/-- The credit to be reversed on a bill, head by head. -/
def reversalForBill (b : Bill) : Reversal :=
  let heads : Heads := fun h => proportionate (b.availed h) b.unpaid b.value
  { unpaidPaise := b.unpaid
    supplyValuePaise := b.value
    heads := heads
    totalPaise := heads.totalPaise }

theorem discharged_nonneg (paidPaise tdsPaise : ℤ) : 0 ≤ dischargedPaise paidPaise tdsPaise :=
  le_max_left _ _

theorem availed_nonneg (b : Bill) (h : CreditHead) : 0 ≤ b.availed h := le_max_left _ _

theorem unpaid_nonneg (b : Bill) : 0 ≤ b.unpaid := le_max_left _ _

/-- No more is unpaid than the supply is worth. -/
theorem unpaid_le_value (b : Bill) : b.unpaid ≤ b.value := by
  have hvalue : 0 ≤ b.value := le_max_left _ _
  have hpaid := discharged_nonneg b.paidPaise b.tdsPaise
  exact max_le hvalue (sub_le_self _ hpaid)

/-- Up to the whole value the share is the exact one rounded up, also where it needs no rounding. -/
theorem proportionate_eq (hitc : 0 ≤ itc) (hnonneg : 0 ≤ unpaid) (hle : unpaid ≤ value)
    (hvalue : 0 < value) : proportionate itc unpaid value = ceilDiv (itc * unpaid) value := by
  unfold proportionate
  split_ifs with hnone hwhole
  · have hzero : itc * unpaid = 0 := by
      rcases hnone with h | h | h
      · omega
      · rw [le_antisymm h hnonneg, mul_zero]
      · rw [le_antisymm h hitc, zero_mul]
    rw [hzero, ceil_div_zero]
  · rw [le_antisymm hle hwhole, ceil_div_mul hvalue]
  · rfl

theorem proportionate_worthless (itc unpaid : ℤ) (hvalue : value ≤ 0) :
    proportionate itc unpaid value = 0 := if_pos (.inl hvalue)

theorem proportionate_nothing (itc value : ℤ) : proportionate itc 0 value = 0 :=
  if_pos (.inr (.inl le_rfl))

theorem reversal_bounds (b : Bill) (h : CreditHead) :
    0 ≤ (reversalForBill b).heads h ∧ (reversalForBill b).heads h ≤ b.availed h := by
  have havailed := availed_nonneg b h
  change 0 ≤ proportionate _ _ _ ∧ proportionate _ _ _ ≤ _
  rcases le_or_gt b.value 0 with hworth | hworth
  · rw [proportionate_worthless _ _ hworth]
    exact ⟨le_rfl, havailed⟩
  · rw [proportionate_eq havailed (unpaid_nonneg b) (unpaid_le_value b) hworth]
    refine ⟨ceil_div_nonneg hworth (mul_nonneg havailed (unpaid_nonneg b)), ?_⟩
    apply (ceil_div_le_iff hworth).mpr
    exact mul_le_mul_of_nonneg_left (unpaid_le_value b) havailed

/-- The exact share of the credit. Nothing is shared out of a supply that is worth nothing. -/
theorem reversal_exact (b : Bill) (h : CreditHead) :
    (b.availed h * b.unpaid / b.value : ℚ) ≤ (reversalForBill b).heads h ∧
      ((reversalForBill b).heads h : ℚ) < b.availed h * b.unpaid / b.value + 1 := by
  change _ ≤ ((proportionate _ _ _ : ℤ) : ℚ) ∧ ((proportionate _ _ _ : ℤ) : ℚ) < _
  rcases le_or_gt b.value 0 with hworth | hworth
  · have hnone : b.unpaid = 0 := le_antisymm ((unpaid_le_value b).trans hworth) (unpaid_nonneg b)
    rw [proportionate_worthless _ _ hworth, hnone]
    simp
  · rw [proportionate_eq (availed_nonneg b h) (unpaid_nonneg b) (unpaid_le_value b) hworth]
    have hexact := ceil_div_exact hworth (b.availed h * b.unpaid)
    push_cast at hexact
    exact hexact

theorem reversal_whole (b : Bill) (hvalue : 0 < b.value)
    (hnone : dischargedPaise b.paidPaise b.tdsPaise = 0) (h : CreditHead) :
    (reversalForBill b).heads h = b.availed h := by
  have hunpaid : b.unpaid = b.value := by
    change max 0 (b.value - dischargedPaise b.paidPaise b.tdsPaise) = b.value
    rw [hnone, sub_zero, max_eq_right hvalue.le]
  change proportionate _ _ _ = _
  rw [proportionate_eq (availed_nonneg b h) (unpaid_nonneg b) (unpaid_le_value b) hvalue, hunpaid,
    ceil_div_mul hvalue]

/-- More settled leaves less unpaid. -/
theorem unpaid_anti (b : Bill) (h : b.paidPaise + b.tdsPaise ≤ paid + tds) :
    ({ b with paidPaise := paid, tdsPaise := tds } : Bill).unpaid ≤ b.unpaid := by
  have hsettled : dischargedPaise b.paidPaise b.tdsPaise ≤ dischargedPaise paid tds :=
    max_le_max_left 0 h
  exact max_le_max_left 0 (sub_le_sub_left hsettled _)

theorem reversal_anti (b : Bill) (h : b.paidPaise + b.tdsPaise ≤ paid + tds) (head : CreditHead) :
    (reversalForBill { b with paidPaise := paid, tdsPaise := tds }).heads head ≤
      (reversalForBill b).heads head := by
  have hunpaid := unpaid_anti b h
  change proportionate (b.availed head) _ b.value ≤ proportionate (b.availed head) _ b.value
  rcases le_or_gt b.value 0 with hworth | hworth
  · rw [proportionate_worthless _ _ hworth, proportionate_worthless _ _ hworth]
  · have havailed := availed_nonneg b head
    rw [proportionate_eq havailed (unpaid_nonneg _) (hunpaid.trans (unpaid_le_value b)) hworth,
      proportionate_eq havailed (unpaid_nonneg b) (unpaid_le_value b) hworth]
    exact ceil_div_mono hworth (mul_le_mul_of_nonneg_left hunpaid havailed)

/-- A debit note for one fraction of the value and of every head leaves the rest of the tax. -/
theorem reversal_after_return (b : Bill) (htotal : 0 < b.totalPaise) (htax : ∀ h, 0 ≤ b.tax h)
    (hnone : dischargedPaise b.paidPaise b.tdsPaise = 0) (hcredit : b.creditNotePaise = 0)
    (hcreditTax : ∀ h, b.creditNoteTax h = 0) (hpq : p ≤ q) (hq : 0 < q)
    (hvalue : q * b.debitedPaise = p * b.totalPaise)
    (hheads : ∀ h, q * b.debitNoteTax h = p * b.tax h) (h : CreditHead) :
    (reversalForBill b).heads h = b.tax h - b.debitNoteTax h := by
  have hleft : b.debitNoteTax h ≤ b.tax h := by
    apply le_of_mul_le_mul_left _ hq
    rw [hheads h]
    exact mul_le_mul_of_nonneg_right hpq (htax h)
  have havailed : b.availed h = b.tax h - b.debitNoteTax h := by
    unfold Bill.availed availedHeadPaise
    rw [hcreditTax h, add_zero, max_eq_right (sub_nonneg.mpr hleft)]
  rcases hpq.lt_or_eq with hlt | rfl
  · have hworth : 0 < b.value := by
      have hpart : b.debitedPaise < b.totalPaise := by
        apply lt_of_mul_lt_mul_left _ hq.le
        rw [hvalue]
        exact mul_lt_mul_of_pos_right hlt htotal
      unfold Bill.value supplyValuePaise
      rw [hcredit]
      omega
    rw [reversal_whole b hworth hnone h, havailed]
  · have hall : b.debitedPaise = b.totalPaise := mul_left_cancel₀ hq.ne' hvalue
    have hallTax : b.debitNoteTax h = b.tax h := mul_left_cancel₀ hq.ne' (hheads h)
    have hworth : b.value ≤ 0 := by
      unfold Bill.value supplyValuePaise
      rw [hcredit, hall]
      simp
    change proportionate _ _ _ = _
    rw [proportionate_worthless _ _ hworth, hallTax, sub_self]

/-- The reversal is the credit's share of what is unpaid, rounded up: within its bounds, nothing
where nothing is owed, the whole of it where nothing of a value is settled, never more for a larger
payment or deduction, and the rest of the tax after a return in proportion. -/
theorem reversal_proportionate (b : Bill) :
    (∀ h, 0 ≤ (reversalForBill b).heads h ∧ (reversalForBill b).heads h ≤ b.availed h) ∧
    (∀ h, (b.availed h * b.unpaid / b.value : ℚ) ≤ (reversalForBill b).heads h ∧
      ((reversalForBill b).heads h : ℚ) < b.availed h * b.unpaid / b.value + 1) ∧
    (b.unpaid = 0 → ∀ h, (reversalForBill b).heads h = 0) ∧
    (0 < b.value → dischargedPaise b.paidPaise b.tdsPaise = 0 →
      ∀ h, (reversalForBill b).heads h = b.availed h) ∧
    (∀ paid tds, b.paidPaise ≤ paid → b.tdsPaise ≤ tds → ∀ h,
      (reversalForBill { b with paidPaise := paid, tdsPaise := tds }).heads h ≤
        (reversalForBill b).heads h) ∧
    (∀ p q, p ≤ q → 0 < q → 0 < b.totalPaise → (∀ h, 0 ≤ b.tax h) →
      dischargedPaise b.paidPaise b.tdsPaise = 0 →
      b.creditNotePaise = 0 → (∀ h, b.creditNoteTax h = 0) →
      q * b.debitedPaise = p * b.totalPaise → (∀ h, q * b.debitNoteTax h = p * b.tax h) →
      ∀ h, (reversalForBill b).heads h = b.tax h - b.debitNoteTax h) := by
  refine ⟨reversal_bounds b, reversal_exact b, ?_, ?_, ?_, ?_⟩
  · intro hnone h
    change proportionate _ b.unpaid _ = 0
    rw [hnone, proportionate_nothing]
  · intro hvalue hnone
    exact reversal_whole b hvalue hnone
  · intro paid tds hpaid htds
    exact reversal_anti b (add_le_add hpaid htds)
  · intro p q hpq hq htotal htax hnone hcredit hcreditTax hvalue hheads
    exact reversal_after_return b htotal htax hnone hcredit hcreditTax hpq hq hvalue hheads

/-- All of the goods are returned, and a paisa of the tax is not: nothing is owed and nothing is
reversed, though nothing was settled. -/
theorem returned_supply_reverses_nothing :
    ¬ ∀ b : Bill, 0 ≤ b.totalPaise → 0 ≤ b.debitedPaise → 0 ≤ b.creditNotePaise →
      (∀ h, 0 ≤ b.tax h ∧ 0 ≤ b.debitNoteTax h ∧ 0 ≤ b.creditNoteTax h) →
      b.paidPaise = 0 → b.tdsPaise = 0 → ∀ h, (reversalForBill b).heads h = b.availed h := by
  intro h
  have hwhole := h
    { totalPaise := 11800, paidPaise := 0, tdsPaise := 0, tax := Heads.of 0 900 900
      debitedPaise := 11800, creditNotePaise := 0, debitNoteTax := Heads.of 0 900 899
      creditNoteTax := Heads.of 0 0 0 }
    (by decide) (by decide) (by decide) (fun h => by cases h <;> decide) rfl rfl .sgst
  revert hwhole
  decide

end Caflow.Gst.Rule37
