import Caflow.Lib.FifoLayers
import Caflow.Lib.LargestRemainder
import Caflow.Lib.SortByKey

namespace Caflow.Reporting.StockAgeing
open FifoLayers Tally

/-- The bands of age, youngest first. -/
inductive Band where
  | d0_30
  | d31_60
  | d61_90
  | d91_180
  | d181_365
  | d365_plus
  deriving DecidableEq

/-- The last day of age that is in a band; the oldest band is open. -/
def Band.upper : Band → Option ℤ
  | .d0_30 => some 30
  | .d31_60 => some 60
  | .d61_90 => some 90
  | .d91_180 => some 180
  | .d181_365 => some 365
  | .d365_plus => none

/-- A row of the stock ledger, with the fields that may be missing. -/
structure Row where
  id : Option String
  serviceCatalogueId : Option String
  movementDate : ℤ
  quantityDelta : Option ℚ
  valueDeltaPaise : Option ℤ
  createdAt : Option String

structure Movement where
  movementDate : ℤ
  quantityDelta : ℚ
  valueDeltaPaise : ℤ
  createdAt : String
  rowId : String

/-- The order of the movements: by date, then the time of entry, then the id. -/
abbrev Movement.key (m : Movement) : ℤ ×ₗ String ×ₗ String :=
  toLex (m.movementDate, toLex (m.createdAt, m.rowId))

/-- A movement as it is consumed: its date and value, and its quantity. -/
def Movement.layer (m : Movement) : (ℤ × ℤ) × ℚ := ((m.movementDate, m.valueDeltaPaise), m.quantityDelta)

def inOrder (movements : List Movement) : List Movement :=
  movements.insertionSort fun a b => a.key ≤ b.key

/-- A total split over weights by the largest remainder, on its magnitude. -/
def splitProRata (totalPaise : ℤ) (weights : List ℚ) : List ℤ :=
  if weights.sum ≤ 0 then weights.map fun _ => 0
  else
    let sign := if totalPaise < 0 then -1 else 1
    (LargestRemainder.apportion |totalPaise|
      (weights.map fun w => (|totalPaise| : ℤ) * w / weights.sum)).map (sign * ·)

/-- A row's item and its movement, where it is up to the date. A row with no id takes its position's
number. -/
def Row.movement (asOf : ℤ) (r : Row) (position : ℕ) : Option (String × Movement) :=
  if r.serviceCatalogueId.getD "" = "" ∨ asOf < r.movementDate then none
  else some (r.serviceCatalogueId.getD "",
    ⟨r.movementDate, r.quantityDelta.getD 0, r.valueDeltaPaise.getD 0, r.createdAt.getD "",
      if r.id.getD "" = "" then toString position else r.id.getD ""⟩)

@[simp] theorem length_split (totalPaise : ℤ) (weights : List ℚ) :
    (splitProRata totalPaise weights).length = weights.length := by
  unfold splitProRata
  split <;> simp

section
variable (movements : List Movement)

/-- A receipt by its date alone. -/
def dated (layers : List ((ℤ × ℤ) × ℚ)) : List (ℤ × ℚ) := layers.map (Prod.map Prod.fst id)

end

section
variable {rows rows' : List Row} (h : rows'.Perm rows) (asOf : ℤ)
include h

end

end Caflow.Reporting.StockAgeing
