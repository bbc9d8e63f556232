import Caflow.Inventory.Costing

namespace Caflow.Inventory
open Rounding

/-- A stock-in as computed, with the cost of the oversold units it covered. -/
structure Receipt where
  movement : Movement
  trueupPaise : ℤ

/-- The cost of the part of a receipt that covers units already sold. -/
def deficitCost (prevQty quantity : ℚ) (totalCostPaise : ℤ) : ℤ :=
  let unitCost := halfUp (totalCostPaise / quantity)
  let deficit := if prevQty < 0 then min quantity (-prevQty) else 0
  if 0 < deficit then halfUp (unitCost * deficit) else 0

def computeStockIn (prevQty : ℚ) (prevValuePaise : ℤ) (quantity : ℚ) (totalCostPaise : ℤ) :
    Except Failure Receipt :=
  if quantity ≤ 0 then .error (.valueError "Stock-in quantity must be positive.")
  else if totalCostPaise < 0 then .error (.valueError "Stock-in cost cannot be negative.")
  else
    let newQty := prevQty + quantity
    let unitCost := halfUp (totalCostPaise / quantity)
    let trueup := deficitCost prevQty quantity totalCostPaise
    if newQty ≤ 0 then .ok ⟨⟨quantity, unitCost, 0, newQty, 0, 0⟩, totalCostPaise⟩
    else
      let excess := totalCostPaise - trueup
      let newValue := prevValuePaise + excess
      .ok ⟨⟨quantity, unitCost, excess, newQty, halfUp (newValue / newQty), newValue⟩, trueup⟩

/-- A stock-out at the moving average. -/
def computeStockOut (prevQty : ℚ) (prevValuePaise prevAvgPaise : ℤ) (quantity : ℚ) :
    Except Failure Movement :=
  if quantity ≤ 0 then .error (.valueError "Stock-out quantity must be positive.")
  else
    let newQty := prevQty - quantity
    let outValue := if newQty ≤ 0 then prevValuePaise else halfUp (quantity * prevAvgPaise)
    let newValue := if newQty ≤ 0 then 0 else prevValuePaise - outValue
    let newAvg := if 0 < newQty then halfUp (newValue / newQty) else 0
    .ok ⟨-quantity, prevAvgPaise, -outValue, newQty, newAvg, newValue⟩

/-- A stock-out off the oldest layers, held to what the books hold. -/
def computeStockOutFifo (prevQty : ℚ) (prevValuePaise : ℤ) (quantity : ℚ)
    (layers : List Layer) : Except Failure Movement :=
  if quantity ≤ 0 then .error (.valueError "Stock-out quantity must be positive.")
  else
    let newQty := prevQty - quantity
    (consume layers quantity).map fun issue =>
      let outValue :=
        if newQty ≤ 0 then prevValuePaise else min issue.valuePaise prevValuePaise
      let newValue := if newQty ≤ 0 then 0 else prevValuePaise - outValue
      let newAvg := if 0 < newQty then halfUp (newValue / newQty) else 0
      ⟨-quantity, halfUp (outValue / quantity), -outValue, newQty, newAvg, newValue⟩

/-- A stock-out at a value the caller gives: the reversal of an earlier movement. -/
def stockOutAtValue (prevQty : ℚ) (prevValuePaise : ℤ) (quantity : ℚ) (valuePaise : ℤ) :
    Except Failure Movement :=
  if quantity ≤ 0 then .error (.valueError "Stock-out quantity must be positive.")
  else
    let newQty := prevQty - quantity
    let outValue := if newQty ≤ 0 then prevValuePaise else min valuePaise prevValuePaise
    let newValue := prevValuePaise - outValue
    let newAvg := if 0 < newQty then halfUp (newValue / newQty) else 0
    .ok ⟨-quantity, halfUp (outValue / quantity), -outValue, newQty, newAvg,
      if 0 < newQty then newValue else 0⟩

/-- A write-down to net realisable value; none when the stock is carried at less already. -/
def computeNrvWritedown (prevQty : ℚ) (prevValuePaise nrvPerUnitPaise : ℤ) :
    Option Movement :=
  if prevQty ≤ 0 then none
  else
    let newValue := halfUp (prevQty * nrvPerUnitPaise)
    if prevValuePaise ≤ newValue then none
    else some ⟨0, nrvPerUnitPaise, newValue - prevValuePaise, prevQty,
      halfUp (newValue / prevQty), newValue⟩

/-- What a caller asks the stock ledger to record. A first-in first-out issue comes with the
layers its caller read. -/
inductive Entry where
  | receive (quantity : ℚ) (totalCostPaise : ℤ)
  | issueAverage (quantity : ℚ)
  | issueFifo (quantity : ℚ) (layers : List Layer)
  | issueAtValue (quantity : ℚ) (valuePaise : ℤ)
  | writeDown (nrvPerUnitPaise : ℤ)
  deriving DecidableEq

/-- The cost formula a client's books are kept on. -/
inductive Method where
  | movingAverage
  | fifo

def Method.issue (quantity : ℚ) (layers : List Layer) : Method → Entry
  | .movingAverage => .issueAverage quantity
  | .fifo => .issueFifo quantity layers

/-- Quantities are positive, costs and values are not negative. -/
def Entry.Allowed : Entry → Prop
  | .receive q c => 0 < q ∧ 0 ≤ c
  | .issueAverage q | .issueFifo q _ => 0 < q
  | .issueAtValue q v => 0 < q ∧ 0 ≤ v
  | .writeDown nrv => 0 ≤ nrv

instance : DecidablePred Entry.Allowed
  | .receive q c => inferInstanceAs (Decidable (0 < q ∧ 0 ≤ c))
  | .issueAverage q => inferInstanceAs (Decidable (0 < q))
  | .issueFifo q _ => inferInstanceAs (Decidable (0 < q))
  | .issueAtValue q v => inferInstanceAs (Decidable (0 < q ∧ 0 ≤ v))
  | .writeDown nrv => inferInstanceAs (Decidable (0 ≤ nrv))

def Entry.signedQuantity : Entry → ℚ
  | .receive q _ => q
  | .issueAverage q | .issueFifo q _ | .issueAtValue q _ => -q
  | .writeDown _ => 0

/-- The running totals a movement chains from: those of the last row, or nothing. -/
def prevQty (prev : Option Movement) : ℚ := (prev.map Movement.runningQtyUnits).getD 0

def prevValue (prev : Option Movement) : ℤ := (prev.map Movement.runningValuePaise).getD 0

def prevAvg (prev : Option Movement) : ℤ := (prev.map Movement.runningAvgCostPaise).getD 0

/-- Compute an entry from the last row; a write-down may need no row at all. -/
def price (prev : Option Movement) : Entry → Except Failure (Option Movement)
  | .receive q c =>
    (computeStockIn (prevQty prev) (prevValue prev) q c).map fun r => some r.movement
  | .issueAverage q =>
    (computeStockOut (prevQty prev) (prevValue prev) (prevAvg prev) q).map some
  | .issueFifo q layers =>
    (computeStockOutFifo (prevQty prev) (prevValue prev) q layers).map some
  | .issueAtValue q v =>
    (stockOutAtValue (prevQty prev) (prevValue prev) q v).map some
  | .writeDown nrv =>
    .ok (prev.bind fun p => computeNrvWritedown p.runningQtyUnits p.runningValuePaise nrv)

theorem deficit_cost_of_nonneg (h : 0 ≤ pq) : deficitCost pq q c = 0 := by
  simp [deficitCost, not_lt.mpr h]

theorem deficit_cost_of_cleared (h : pq < 0) (hq : 0 < pq + q) :
    deficitCost pq q c = halfUp (halfUp (c / q) * -pq) := by
  have hmin : min q (-pq) = -pq := min_eq_right (by linarith)
  simp [deficitCost, h, hmin]

theorem deficit_cost_nonneg (pq : ℚ) (hq : 0 < q) (hc : 0 ≤ c) : 0 ≤ deficitCost pq q c := by
  have hc' : (0 : ℚ) ≤ c := by exact_mod_cast hc
  have hu : 0 ≤ halfUp (c / q) := half_up_nonneg (by positivity)
  have hu' : (0 : ℚ) ≤ halfUp (c / q) := by exact_mod_cast hu
  unfold deficitCost
  dsimp only
  generalize (if pq < 0 then min q (-pq) else 0) = d
  split
  · exact half_up_nonneg (by positivity)
  · exact le_rfl

/-- Everything a stock-in can do: cover a deficit and nothing else, or leave stock behind. -/
theorem stock_in_cases (h : computeStockIn pq pv q c = .ok r) :
    0 < q ∧ 0 ≤ c ∧ r.movement.quantityDelta = q ∧ r.movement.runningQtyUnits = pq + q ∧
      ((pq + q ≤ 0 ∧ r.movement.valueDeltaPaise = 0 ∧ r.movement.runningValuePaise = 0 ∧
          r.trueupPaise = c) ∨
        (0 < pq + q ∧ r.trueupPaise = deficitCost pq q c ∧
          r.movement.valueDeltaPaise = c - r.trueupPaise ∧
          r.movement.runningValuePaise = pv + r.movement.valueDeltaPaise)) := by
  unfold computeStockIn at h
  split at h
  · cases h
  split at h
  · cases h
  rename_i hq hc
  dsimp only at h
  split at h <;> cases h
  · rename_i hn
    exact ⟨not_le.mp hq, not_lt.mp hc, rfl, rfl, .inl ⟨hn, rfl, rfl, rfl⟩⟩
  · rename_i hn
    exact ⟨not_le.mp hq, not_lt.mp hc, rfl, rfl, .inr ⟨not_le.mp hn, rfl, rfl, rfl⟩⟩

/-- What every stock-out does, however it is priced: an issue that exhausts the stock
relieves exactly what was on the books. -/
structure Issued (pq : ℚ) (pv : ℤ) (q : ℚ) (m : Movement) : Prop where
  positive : 0 < q
  delta : m.quantityDelta = -q
  running : m.runningQtyUnits = pq - q
  closes : pq - q ≤ 0 → m.valueDeltaPaise = -pv
  chains : m.runningValuePaise = pv + m.valueDeltaPaise

theorem Issued.closed (h : Issued pq pv q m) (hn : m.runningQtyUnits ≤ 0) :
    m.runningValuePaise = 0 := by
  have hd := h.closes (h.running ▸ hn)
  rw [h.chains, hd]
  omega

/-- A stock-out that takes `out` off the books, or everything when nothing is left on hand. -/
theorem Issued.of_value (out : ℤ) (hq : 0 < q) (hd : m.quantityDelta = -q)
    (hr : m.runningQtyUnits = pq - q)
    (hv : m.valueDeltaPaise = -(if pq - q ≤ 0 then pv else out))
    (hn : m.runningValuePaise = if pq - q ≤ 0 then 0 else pv - out) :
    Issued pq pv q m ∧ (0 < pq - q → m.valueDeltaPaise = -out) := by
  rcases le_or_gt (pq - q) 0 with hz | hp
  · rw [if_pos hz] at hv hn
    exact ⟨⟨hq, hd, hr, fun _ => hv, by omega⟩, fun hp => absurd hz (not_le.mpr hp)⟩
  · rw [if_neg (not_le.mpr hp)] at hv hn
    exact ⟨⟨hq, hd, hr, fun hz => absurd hz (not_le.mpr hp), by omega⟩, fun _ => hv⟩

theorem stock_out_cases (h : computeStockOut pq pv pa q = .ok m) :
    Issued pq pv q m ∧ (0 < pq - q → m.valueDeltaPaise = -halfUp (q * pa)) := by
  unfold computeStockOut at h
  split at h
  · cases h
  · rename_i hq
    cases h
    exact Issued.of_value _ (not_le.mp hq) rfl rfl rfl (by grind)

theorem stock_out_fifo_cases (h : computeStockOutFifo pq pv q layers = .ok m) :
    Issued pq pv q m ∧
      (0 < pq - q → m.valueDeltaPaise = -min (takeOldest layers q).valuePaise pv) := by
  unfold computeStockOutFifo consume at h
  split at h
  · cases h
  · rename_i hq
    cases h
    exact Issued.of_value _ (not_le.mp hq) rfl rfl rfl (by grind)

theorem stock_out_at_value_cases (h : stockOutAtValue pq pv q v = .ok m) :
    Issued pq pv q m ∧ (0 < pq - q → m.valueDeltaPaise = -min v pv) := by
  unfold stockOutAtValue at h
  split at h
  · cases h
  · rename_i hq
    cases h
    exact Issued.of_value _ (not_le.mp hq) rfl rfl rfl (by grind)

/-- A write-down only happens to stock on hand, and only downward. -/
theorem nrv_writedown_cases (h : computeNrvWritedown pq pv nrv = some m) :
    0 < pq ∧ m.quantityDelta = 0 ∧ m.runningQtyUnits = pq ∧
      m.runningValuePaise = halfUp (pq * nrv) ∧ m.runningValuePaise < pv ∧
      m.valueDeltaPaise = m.runningValuePaise - pv := by
  unfold computeNrvWritedown at h
  split at h
  · cases h
  dsimp only at h
  split at h
  · cases h
  · rename_i hq hv
    cases h
    exact ⟨not_le.mp hq, rfl, rfl, rfl, not_le.mp hv, rfl⟩

/-- A position at or below nothing carries no value. -/
def ForceClosed (prev : Option Movement) : Prop := prevQty prev ≤ 0 → prevValue prev = 0

@[simp] theorem Method.issue_signed_quantity (m : Method) (q : ℚ) (ls : List Layer) :
    (m.issue q ls).signedQuantity = -q := by
  cases m <;> rfl

@[simp] theorem prev_qty_none : prevQty none = 0 := rfl

@[simp] theorem prev_value_none : prevValue none = 0 := rfl

@[simp] theorem prev_qty_some (m : Movement) : prevQty (some m) = m.runningQtyUnits := rfl

@[simp] theorem prev_value_some (m : Movement) : prevValue (some m) = m.runningValuePaise := rfl

theorem map_ok {f : α → β} {x : Except Failure α} (h : x.map f = .ok b) :
    ∃ a, x = .ok a ∧ f a = b := by
  cases x with
  | error e => cases h
  | ok a => exact ⟨a, rfl, by cases h; rfl⟩

theorem map_some_ok {x : Except Failure Movement} (h : x.map some = .ok (some m)) : x = .ok m := by
  obtain ⟨a, ha, hm⟩ := map_ok h
  cases hm
  exact ha

theorem price_receive (h : price prev (.receive q c) = .ok (some m)) :
    ∃ r, computeStockIn (prevQty prev) (prevValue prev) q c = .ok r ∧ r.movement = m := by
  obtain ⟨r, hr, hm⟩ := map_ok h
  cases hm
  exact ⟨r, hr, rfl⟩

theorem price_write_down (h : price prev (.writeDown nrv) = .ok (some m)) :
    computeNrvWritedown (prevQty prev) (prevValue prev) nrv = some m := by
  cases prev with
  | none => cases h
  | some p => simpa [price] using h

/-- The quantities of a row: its own change is the entry's, and it chains from the row before. -/
theorem price_quantity (h : price prev e = .ok (some m)) :
    m.quantityDelta = e.signedQuantity ∧
      m.runningQtyUnits = prevQty prev + m.quantityDelta := by
  cases e with
  | receive q c =>
    obtain ⟨r, hr, rfl⟩ := price_receive h
    obtain ⟨-, -, hd, hq, -⟩ := stock_in_cases hr
    exact ⟨hd, by rw [hq, hd]⟩
  | issueAverage q =>
    have hi := (stock_out_cases (map_some_ok h)).1
    exact ⟨hi.delta, by rw [hi.running, hi.delta]; ring⟩
  | issueFifo q layers =>
    have hi := (stock_out_fifo_cases (map_some_ok h)).1
    exact ⟨hi.delta, by rw [hi.running, hi.delta]; ring⟩
  | issueAtValue q v =>
    have hi := (stock_out_at_value_cases (map_some_ok h)).1
    exact ⟨hi.delta, by rw [hi.running, hi.delta]; ring⟩
  | writeDown nrv =>
    obtain ⟨-, hd, hq, -⟩ := nrv_writedown_cases (price_write_down h)
    exact ⟨hd, by rw [hq, hd]; ring⟩

/-- Whatever a row was chained from, it does not carry value on nothing. -/
theorem price_force_closed (h : price prev e = .ok (some m)) : ForceClosed (some m) := by
  intro hn
  cases e with
  | receive q c =>
    obtain ⟨r, hr, rfl⟩ := price_receive h
    obtain ⟨-, -, -, hq, hz | hp⟩ := stock_in_cases hr
    · exact hz.2.2.1
    · exact absurd (hq ▸ hn) (not_le.mpr hp.1)
  | issueAverage q => exact (stock_out_cases (map_some_ok h)).1.closed hn
  | issueFifo q layers => exact (stock_out_fifo_cases (map_some_ok h)).1.closed hn
  | issueAtValue q v => exact (stock_out_at_value_cases (map_some_ok h)).1.closed hn
  | writeDown nrv =>
    obtain ⟨hp, -, hq, -⟩ := nrv_writedown_cases (price_write_down h)
    exact absurd (hq ▸ hn) (not_le.mpr hp)

/-- A row's value is the value before it plus its own change. -/
theorem price_value (h : price prev e = .ok (some m)) (hc : ForceClosed prev) :
    m.runningValuePaise = prevValue prev + m.valueDeltaPaise := by
  cases e with
  | receive q c =>
    obtain ⟨r, hr, rfl⟩ := price_receive h
    obtain ⟨hq, -, -, -, hz | hp⟩ := stock_in_cases hr
    · have := hc (by linarith [hz.1])
      rw [hz.2.1, hz.2.2.1, this, add_zero]
    · exact hp.2.2.2
  | issueAverage q => exact (stock_out_cases (map_some_ok h)).1.chains
  | issueFifo q layers => exact (stock_out_fifo_cases (map_some_ok h)).1.chains
  | issueAtValue q v => exact (stock_out_at_value_cases (map_some_ok h)).1.chains
  | writeDown nrv =>
    obtain ⟨-, -, -, -, -, hd⟩ := nrv_writedown_cases (price_write_down h)
    omega

end Caflow.Inventory
