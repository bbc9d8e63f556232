import Caflow.Inventory.Movements
import Caflow.Lib.Tally

namespace Caflow.Inventory.Godowns
open Rounding Tally

/-- A place the client keeps stock, as far as a transfer reads it. -/
structure Godown where
  godownId : String
  name : String
  isActive : Bool

/-- A row of the stock ledger with its date, its place and its lot. A movement recorded by a
document names neither place nor lot. -/
structure StockRow where
  movementDate : ℕ
  godownId : Option String
  batchId : Option String
  movement : Movement
  deriving DecidableEq

structure Transfer where
  fromGodownId : String
  toGodownId : String
  quantity : ℚ
  movementDate : ℕ
  batchId : Option String

inductive Refusal where
  | godownMissing
  | sameGodown
  | notOneOfThisClients
  | closed (name : String)
  | notPositive
  | onlyHeld (available : ℚ) (godown : String) (when : ℕ) (quantity : ℚ)
  deriving DecidableEq

def findGodown (godowns : List Godown) (godownId : String) : Option Godown :=
  godowns.find? (·.godownId = godownId)

/-- Why this godown cannot take a movement, or none. -/
def refusalFor (godowns : List Godown) (chosenId : String) : Option Refusal :=
  match findGodown godowns chosenId with
  | none => some .notOneOfThisClients
  | some godown => if godown.isActive then none else some (.closed godown.name)

/-- What is asked before the position is read. -/
def Transfer.refusal (t : Transfer) (godowns : List Godown) : Option Refusal :=
  if findGodown godowns t.fromGodownId = none ∨ findGodown godowns t.toGodownId = none then
    some .godownMissing
  else if t.fromGodownId = t.toGodownId then some .sameGodown
  else
    match refusalFor godowns t.fromGodownId with
    | some refusal => some refusal
    | none =>
      match refusalFor godowns t.toGodownId with
      | some refusal => some refusal
      | none => if t.quantity ≤ 0 then some .notPositive else none

/-- A godown and a batch, a missing one read as blank. -/
abbrev Place := String × String

def StockRow.place (row : StockRow) : Place := (row.godownId.getD "", row.batchId.getD "")

def Transfer.source (t : Transfer) : Place := (t.fromGodownId, t.batchId.getD "")

/-- Quantity and value for each place, over the rows dated up to a day. -/
def positionDetail (asOf : ℕ) (rows : List StockRow) : List (Place × ℚ × ℤ) :=
  grouped ((rows.filter (·.movementDate ≤ asOf)).map fun r =>
    (r.place, r.movement.quantityDelta, r.movement.valueDeltaPaise))

/-- What a place holds on a day: its quantity and its value. -/
def heldAt (asOf : ℕ) (place : Place) (rows : List StockRow) : ℚ × ℤ :=
  (((positionDetail asOf rows).filter fun p => p.1 = place).map Prod.snd).sum

/-- The part of the value held that goes with the quantity moved; what is cut off stays. -/
def valueMoved (held : ℚ × ℤ) (quantity : ℚ) : ℤ :=
  if held.1 = 0 then 0 else truncate (held.2 * quantity / held.1)

/-- What a transfer found: the quantity and value it moves, and the totals it carries on. -/
structure Carried where
  valuePaise : ℤ
  previous : Option Movement
  deriving DecidableEq

def Transfer.unitCost (t : Transfer) (c : Carried) : ℤ := truncate (c.valuePaise / t.quantity)

/-- A transfer's row: what it adds, with the running totals of the row before it. -/
def Transfer.row (t : Transfer) (c : Carried) (godownId : String) (quantity : ℚ) (value : ℤ) :
    StockRow :=
  ⟨t.movementDate, some godownId, t.batchId,
    ⟨quantity, t.unitCost c, value, prevQty c.previous, prevAvg c.previous, prevValue c.previous⟩⟩

def Transfer.outRow (t : Transfer) (c : Carried) : StockRow :=
  t.row c t.fromGodownId (-t.quantity) (-c.valuePaise)

def Transfer.inRow (t : Transfer) (c : Carried) : StockRow :=
  t.row c t.toGodownId t.quantity c.valuePaise

/-- What a transfer may move of what it finds, or why it may not. -/
def Transfer.takes (t : Transfer) (godowns : List Godown) (held : ℚ × ℤ) : Except Refusal ℤ :=
  if held.1 < t.quantity then
    .error (.onlyHeld held.1 (((findGodown godowns t.fromGodownId).map Godown.name).getD "")
      t.movementDate t.quantity)
  else .ok (valueMoved held t.quantity)

/-- What the rows of a place add up to on a day. -/
def heldQuantity (asOf : ℕ) (place : Place) (rows : List StockRow) : ℚ :=
  ((rows.filter fun r => r.movementDate ≤ asOf ∧ r.place = place).map
    (·.movement.quantityDelta)).sum

variable {asOf : ℕ} {place : Place}

theorem held_at_quantity (rows : List StockRow) :
    (heldAt asOf place rows).1 = heldQuantity asOf place rows := by
  unfold heldAt positionDetail heldQuantity
  have hfst : ∀ l : List (ℚ × ℤ), l.sum.1 = (l.map Prod.fst).sum := by
    intro l
    induction l with
    | nil => rfl
    | cons x l ih => rw [List.sum_cons, Prod.fst_add, ih, List.map_cons, List.sum_cons]
  rw [sum_grouped_filter (p := fun k => decide (k = place)), hfst]
  simp only [List.map_map]
  induction rows with
  | nil => rfl
  | cons r rows ih =>
    by_cases hdate : r.movementDate ≤ asOf <;> by_cases hplace : r.place = place <;>
      simp [hdate, hplace, ih]

@[simp] theorem held_append (rows added : List StockRow) :
    heldQuantity asOf place (rows ++ added) = heldQuantity asOf place rows + heldQuantity asOf place added := by
  simp [heldQuantity]

theorem held_single (row : StockRow) : heldQuantity asOf place [row] =
    if row.movementDate ≤ asOf ∧ row.place = place then row.movement.quantityDelta else 0 := by
  unfold heldQuantity
  rw [List.filter_singleton]
  by_cases h : row.movementDate ≤ asOf ∧ row.place = place <;> simp [h]

@[simp] theorem out_row_place (t : Transfer) (c : Carried) : (t.outRow c).place = t.source := rfl

theorem takes_ok {t : Transfer} {held : ℚ × ℤ} (h : t.takes godowns held = .ok value) :
    t.quantity ≤ held.1 ∧ value = valueMoved held t.quantity := by
  unfold Transfer.takes at h
  split at h
  · cases h
  · rename_i hheld
    exact ⟨not_lt.mp hheld, (Except.ok.inj h).symm⟩

end Caflow.Inventory.Godowns
