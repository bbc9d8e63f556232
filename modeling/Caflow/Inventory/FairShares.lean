import Caflow.Gst.Discount
import Caflow.Inventory.Costing

namespace Caflow.Inventory
open LargestRemainder

/-- `split_pro_rata` over weights that are decimals, as the quantities of lines are. -/
def splitByWeight (amountPaise : ℤ) (weights : List ℚ) : List ℤ :=
  let weights := weights.map fun w => max 0 w
  if amountPaise ≤ 0 ∨ weights.sum ≤ 0 then weights.map fun _ => 0
  else apportion amountPaise (exactShares amountPaise weights)

theorem split_pro_rata_eq (amountPaise : ℤ) (weights : List ℤ) :
    splitProRata amountPaise weights = splitByWeight amountPaise (weights.map Int.cast) := by
  have hfloored : floored weights = (weights.map Int.cast).map fun w : ℚ => max 0 w := by
    simp only [floored, List.map_map]
    exact List.map_congr_left fun w _ => by simp [Function.comp]
  unfold splitProRata splitByWeight
  dsimp only
  rw [← hfloored]
  split_ifs
  · simp [floored, Function.comp_def]
  · rfl

end Caflow.Inventory
