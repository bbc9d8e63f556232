import Caflow.Inventory.Movements
import Caflow.Lib.GrowingLog

namespace Caflow.Inventory
open Rounding GrowingLog

/-- An entry and the row it became. -/
structure Posting where
  entry : Entry
  row : Movement
  deriving DecidableEq

abbrev Ledger := List Posting

/-- The row every new movement chains its running totals from. -/
def lastLedgerRow (ledger : Ledger) : Option Movement := ledger.getLast?.map Posting.row

/-- One movement computed from the last row. -/
def Records (ledger : Ledger) (p : Posting) : Prop :=
  p.entry.Allowed ∧ price (lastLedgerRow ledger) p.entry = .ok (some p.row)

/-- The ledger after the entries given, each computed from the row before it. An entry that
is refused or needs no row leaves none. -/
def record (ledger : Ledger) (entry : Entry) : Ledger :=
  match price (lastLedgerRow ledger) entry with
  | .ok (some row) => ledger ++ [⟨entry, row⟩]
  | _ => ledger

def recordAll (entries : List Entry) : Ledger := entries.foldl record []

@[simp] theorem last_ledger_row_nil : lastLedgerRow [] = none := rfl

@[simp] theorem last_ledger_row_concat (ledger : Ledger) (p : Posting) :
    lastLedgerRow (ledger ++ [p]) = some p.row := by simp [lastLedgerRow]

theorem record_grown (h : Grown Records ledger) (ha : entry.Allowed) :
    Grown Records (record ledger entry) := by
  unfold record
  split
  · exact .record h ⟨ha, by assumption⟩
  · exact h

theorem record_all_grown (ha : ∀ e ∈ entries, Entry.Allowed e) :
    Grown Records (recordAll entries) := by
  induction entries using List.reverseRecOn with
  | nil => exact .start
  | append_singleton es e ih =>
    simp only [recordAll, List.foldl_append, List.foldl_cons, List.foldl_nil]
    exact record_grown (ih fun x hx => ha x (by simp [hx])) (ha e (by simp))

/-- The tail of a ledger carries no value on nothing. -/
theorem tail_force_closed (h : Grown Records ledger) : ForceClosed (lastLedgerRow ledger) := by
  cases h with
  | start => intro _; rfl
  | record _ hs =>
    rw [last_ledger_row_concat]
    exact price_force_closed hs.2

def valueDeltas (ledger : Ledger) : ℤ := (ledger.map fun p => p.row.valueDeltaPaise).sum

def quantityDeltas (ledger : Ledger) : ℚ := (ledger.map fun p => p.row.quantityDelta).sum

@[simp] theorem value_deltas_concat (ledger : Ledger) (p : Posting) :
    valueDeltas (ledger ++ [p]) = valueDeltas ledger + p.row.valueDeltaPaise := by
  simp [valueDeltas]

@[simp] theorem quantity_deltas_concat (ledger : Ledger) (p : Posting) :
    quantityDeltas (ledger ++ [p]) = quantityDeltas ledger + p.row.quantityDelta := by
  simp [quantityDeltas]

/-- The running totals are the sums of the deltas. -/
theorem tail_totals (h : Grown Records ledger) :
    prevQty (lastLedgerRow ledger) = quantityDeltas ledger ∧
      prevValue (lastLedgerRow ledger) = valueDeltas ledger := by
  induction h with
  | start => exact ⟨rfl, rfl⟩
  | record hg hs ih =>
    rw [last_ledger_row_concat, quantity_deltas_concat, value_deltas_concat, ← ih.1, ← ih.2]
    exact ⟨(price_quantity hs.2).2, price_value hs.2 (tail_force_closed hg)⟩

/-- A row is in order: worth something or nothing, worth what the deltas add up to, and worth
nothing when there is nothing on hand. -/
structure InOrder (ledger : Ledger) (p : Posting) : Prop where
  nonneg : 0 ≤ p.row.runningValuePaise
  summed : p.row.runningValuePaise = valueDeltas (ledger ++ [p])
  closed : p.row.runningQtyUnits ≤ 0 → p.row.runningValuePaise = 0

/-- The two entries that leave less than nothing on the books: an issue at the average whose
rounded cost exceeds the value on hand, and a receipt whose rounded cost of the deficit it
clears exceeds its own cost. -/
def Overdraws (ledger : Ledger) (p : Posting) : Prop :=
  let prev := lastLedgerRow ledger
  match p.entry with
  | .issueAverage q => q < prevQty prev ∧ (prevValue prev : ℚ) + 1 / 2 ≤ q * prevAvg prev
  | .receive q c =>
    prevQty prev < 0 ∧ 0 < prevQty prev + q ∧ (c : ℚ) + 1 / 2 ≤ halfUp (c / q) * -prevQty prev
  | _ => False

/-- A receipt leaves a value that is not negative exactly when it does not overdraw. -/
theorem receive_nonneg_iff (hr : computeStockIn pq pv q c = .ok r) (hv : 0 ≤ pv)
    (hc : pq ≤ 0 → pv = 0) :
    0 ≤ r.movement.runningValuePaise ↔
      ¬(pq < 0 ∧ 0 < pq + q ∧ (c : ℚ) + 1 / 2 ≤ halfUp (c / q) * -pq) := by
  obtain ⟨hq, hc0, -, -, ⟨hn, -, hz, -⟩ | ⟨hn, ht, hd, hrun⟩⟩ := stock_in_cases hr
  · exact ⟨fun _ hbad => absurd hn (not_le.mpr hbad.2.1), fun _ => hz.ge⟩
  rcases le_or_gt 0 pq with hp | hp
  · rw [deficit_cost_of_nonneg hp] at ht
    exact ⟨fun _ hbad => absurd hbad.1 (not_lt.mpr hp), fun _ => by omega⟩
  · rw [deficit_cost_of_cleared hp hn] at ht
    have hle : 0 ≤ r.movement.runningValuePaise ↔ halfUp (halfUp (c / q) * -pq) ≤ c := by
      have := hc hp.le
      omega
    rw [hle, half_up_le_iff hc0]
    exact ⟨fun hlt hbad => absurd hlt (not_lt.mpr hbad.2.2), fun hgood =>
      not_le.mp fun hbad => hgood ⟨hp, hn, hbad⟩⟩

/-- The same for an issue at the moving average. -/
theorem issue_average_nonneg_iff (ho : computeStockOut pq pv pa q = .ok m) (hv : 0 ≤ pv) :
    0 ≤ m.runningValuePaise ↔ ¬(q < pq ∧ (pv : ℚ) + 1 / 2 ≤ q * pa) := by
  obtain ⟨hi, hout⟩ := stock_out_cases ho
  rcases le_or_gt (pq - q) 0 with hn | hn
  · refine ⟨fun _ hbad => ?_, fun _ => (hi.closed (hi.running ▸ hn)).ge⟩
    linarith [hbad.1]
  · have hle : 0 ≤ m.runningValuePaise ↔ halfUp (q * pa) ≤ pv := by
      have := hi.chains
      have := hout hn
      omega
    rw [hle, half_up_le_iff hv]
    exact ⟨fun hlt hbad => absurd hlt (not_lt.mpr hbad.2), fun hgood =>
      not_le.mp fun hbad => hgood ⟨by linarith, hbad⟩⟩

/-- Clamped issues never take more than the books hold. -/
theorem Issued.nonneg (hi : Issued pq pv q m)
    (ho : 0 < pq - q → m.valueDeltaPaise = -min x pv) : 0 ≤ m.runningValuePaise := by
  rcases le_or_gt (pq - q) 0 with hn | hn
  · exact (hi.closed (hi.running ▸ hn)).ge
  · have := hi.chains
    have := ho hn
    omega

/-- One movement from a tail that is not negative leaves one that is not, unless it overdraws. -/
theorem price_nonneg_iff (hs : Records ledger p) (hg : Grown Records ledger)
    (hv : 0 ≤ prevValue (lastLedgerRow ledger)) :
    0 ≤ p.row.runningValuePaise ↔ ¬ Overdraws ledger p := by
  obtain ⟨entry, m⟩ := p
  obtain ⟨ha, h⟩ := hs
  cases entry with
  | receive q c =>
    obtain ⟨r, hr, rfl⟩ := price_receive h
    exact receive_nonneg_iff hr hv (tail_force_closed hg)
  | issueAverage q => exact issue_average_nonneg_iff (map_some_ok h) hv
  | issueFifo q layers =>
    obtain ⟨hi, ho⟩ := stock_out_fifo_cases (map_some_ok h)
    exact iff_of_true (hi.nonneg ho) not_false
  | issueAtValue q v =>
    obtain ⟨hi, ho⟩ := stock_out_at_value_cases (map_some_ok h)
    exact iff_of_true (hi.nonneg ho) not_false
  | writeDown nrv =>
    obtain ⟨hp, -, -, hn, -⟩ := nrv_writedown_cases (price_write_down h)
    have hnrv : (0 : ℚ) ≤ nrv := by exact_mod_cast ha
    refine iff_of_true ?_ not_false
    rw [hn]
    exact half_up_nonneg (by positivity)

theorem tail_nonneg (hp : Everywhere InOrder ledger) :
    0 ≤ prevValue (lastLedgerRow ledger) := by
  rcases List.eq_nil_or_concat ledger with rfl | ⟨init, last, rfl⟩
  · exact le_rfl
  · rw [List.concat_eq_append] at hp ⊢
    rw [last_ledger_row_concat]
    exact (everywhere_concat.mp hp).2.nonneg

/-- In every run the rows are all in order exactly when no movement overdraws. -/
theorem ledger_in_order_iff (h : Grown Records ledger) :
    Everywhere InOrder ledger ↔ Everywhere (fun l p => ¬ Overdraws l p) ledger := by
  refine h.everywhere_iff fun l p hg hp hs => ?_
  have hrow := Grown.record hg hs
  have hiff := price_nonneg_iff hs hg (tail_nonneg hp)
  refine ⟨fun ho => hiff.mp ho.nonneg, fun ho => ⟨hiff.mpr ho, ?_, price_force_closed hs.2⟩⟩
  simpa using (tail_totals hrow).2

/-- Three units for two paise, then two and a half of them sold at the average of one paisa;
and three units sold before two and four come in, where the deficit costs three paise. -/
theorem ledger_in_order_fails :
    (∀ e ∈ [Entry.receive 3 2, .issueAverage (5 / 2)], e.Allowed) ∧
      ¬ Everywhere InOrder (recordAll [.receive 3 2, .issueAverage (5 / 2)]) ∧
      (∀ e ∈ [Entry.issueAverage 3, .receive 4 2], e.Allowed) ∧
      ¬ Everywhere InOrder (recordAll [.issueAverage 3, .receive 4 2]) := by
  refine ⟨by decide +kernel, fun h => ?_, by decide +kernel, fun h => ?_⟩
  · have hrow := h [⟨.receive 3 2, ⟨3, 1, 2, 3, 1, 2⟩⟩]
      ⟨.issueAverage (5 / 2), ⟨-(5 / 2), 1, -3, 1 / 2, -2, -1⟩⟩ [] (by decide +kernel)
    exact absurd hrow.nonneg (by decide)
  · have hrow := h [⟨.issueAverage 3, ⟨-3, 0, 0, -3, 0, 0⟩⟩]
      ⟨.receive 4 2, ⟨4, 1, -1, 1, -1, -1⟩⟩ [] (by decide +kernel)
    exact absurd hrow.nonneg (by decide)

theorem ledger_in_order_sold_out :
    Everywhere InOrder (recordAll [.receive 3 2, .issueAverage 3]) ↔
      Everywhere (fun l p => ¬ Overdraws l p) (recordAll [.receive 3 2, .issueAverage 3]) :=
  ledger_in_order_iff (record_all_grown (by decide +kernel))

end Caflow.Inventory
