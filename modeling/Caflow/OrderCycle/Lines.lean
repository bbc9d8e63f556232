import Caflow.Lib.Drawdown
import Caflow.Lib.Rounding

namespace Caflow.OrderCycle
open Drawdown Rounding Tally

/-- A typed quantity as the column keeps it, in thousandths. -/
def column (quantity : ℚ) : ℤ := halfUp (1000 * quantity)

/-- A stored quantity, in units. -/
def toDecimal (thousandths : ℤ) : ℚ := thousandths / 1000

/-- A line of a document as it is typed: the order line it names, and how much it takes of it. -/
structure LineIn where
  orderLineId : Option ℕ
  quantity : ℚ

inductive Problem where
  | namesNoOrder
  | notOfThisOrder (orderLineId : ℕ)
  | notPositive (orderLineId : ℕ)
  | moreThanOpen (orderLineId : ℕ) (openQty : ℤ)

/-- Taking more of a line than is open is refused, never clamped. -/
def overTaking (line : OpenLine) (quantity : ℚ) : Option Problem :=
  if quantity ≤ 0 then some (.notPositive line.orderLineId)
  else if toDecimal line.openQty < quantity then
    some (.moreThanOpen line.orderLineId line.openQty)
  else none

/-- What one line of a document against an order is told. -/
def LineIn.problem (position : List OpenLine) (line : LineIn) : Option Problem :=
  match line.orderLineId with
  | none => none
  | some orderLineId =>
    match position.find? (·.orderLineId = orderLineId) with
    | none => some (.notOfThisOrder orderLineId)
    | some row => overTaking row line.quantity

/-- Each line is asked by itself, against what is open before the document. -/
def refuseOverTaking (position : Option (List OpenLine)) (lines : List LineIn) : List Problem :=
  match position with
  | none => (lines.filter (·.orderLineId.isSome)).map fun _ => .namesNoOrder
  | some position => lines.filterMap (·.problem position)

/-- Where several lines of a document name one order line, they come together to no more than is
open of it. -/
def Together (position : List OpenLine) (takes : List (Option ℕ × ℤ)) : Prop :=
  ∀ row ∈ position, 2 ≤ takes.countP (·.1 = some row.orderLineId) →
    tally takes (some row.orderLineId) ≤ row.openQty

instance (position : List OpenLine) (takes : List (Option ℕ × ℤ)) :
    Decidable (Together position takes) := List.decidableBAll _ _

theorem line_accepted {position : List OpenLine} {line : LineIn} {orderLineId : ℕ}
    (h : line.problem position = none) (hname : line.orderLineId = some orderLineId) :
    0 < line.quantity ∧ ∃ row ∈ position, row.orderLineId = orderLineId ∧
      line.quantity ≤ toDecimal row.openQty := by
  simp only [LineIn.problem, hname] at h
  split at h
  · cases h
  · rename_i row hrow
    unfold overTaking at h
    split_ifs at h with hpos hopen
    exact ⟨not_le.mp hpos, row, List.mem_of_find?_eq_some hrow,
      by simpa using List.find?_some hrow, not_lt.mp hopen⟩

theorem accepted_lines {lines : List LineIn} {position : Option (List OpenLine)}
    (h : refuseOverTaking position lines = []) {line : LineIn} (hline : line ∈ lines)
    {orderLineId : ℕ} (hname : line.orderLineId = some orderLineId) :
    ∃ rows, position = some rows ∧ 0 < line.quantity ∧
      ∃ row ∈ rows, row.orderLineId = orderLineId ∧ line.quantity ≤ toDecimal row.openQty := by
  cases position with
  | none =>
    have hnone := List.filter_eq_nil_iff.mp (List.map_eq_nil_iff.mp h) line hline
    simp [hname] at hnone
  | some rows =>
    have hnone := List.filterMap_eq_nil_iff.mp h line hline
    exact ⟨rows, rfl, line_accepted hnone hname⟩

theorem tally_le_of_count {takes : List (Option ℕ × ℤ)} {key : Option ℕ} {n : ℤ}
    (hcount : takes.countP (·.1 = key) ≤ 1) (hle : ∀ t ∈ takes, t.1 = key → t.2 ≤ n)
    (hn : 0 ≤ n) : tally takes key ≤ n := by
  rw [List.countP_eq_length_filter] at hcount
  unfold tally
  generalize hfilter : takes.filter (·.1 = key) = found at hcount ⊢
  match found with
  | [] => simpa using hn
  | [t] =>
    have hmem : t ∈ takes.filter (·.1 = key) := by simp [hfilter]
    obtain ⟨ht, hkey⟩ := List.mem_filter.mp hmem
    simpa using hle t ht (of_decide_eq_true hkey)
  | t :: t' :: rest => simp at hcount

/-- Lines accepted one by one fit together, the ones that share an order line being asked for it:
each is kept as no more than the open quantity it was asked against. -/
theorem accepted_fit {α : Type} {position : List OpenLine} {lines : List α} {asked : α → LineIn}
    {takes : α → Option ℕ × ℤ} (hids : (position.map OpenLine.orderLineId).Nodup)
    (h : refuseOverTaking (some position) (lines.map asked) = [])
    (hname : ∀ line, (takes line).1 = (asked line).orderLineId)
    (hkept : ∀ line ∈ lines, ∀ n : ℤ, 0 ≤ n → (asked line).quantity ≤ toDecimal n →
      (takes line).2 ≤ n)
    (htogether : Together position (lines.map takes)) :
    ∀ row ∈ position, tally (lines.map takes) (some row.orderLineId) ≤ row.openQty := by
  intro row hrow
  by_cases hcount : 2 ≤ (lines.map takes).countP (·.1 = some row.orderLineId)
  · exact htogether row hrow hcount
  · apply tally_le_of_count (by omega) _ (le_max_left _ _)
    intro t ht hkey
    obtain ⟨line, hline, rfl⟩ := List.mem_map.mp ht
    rw [hname] at hkey
    obtain ⟨rows, hrows, -, row', hrow', hid, hle⟩ :=
      accepted_lines h (List.mem_map_of_mem hline) hkey
    obtain rfl := Option.some.inj hrows
    obtain rfl := List.inj_on_of_nodup_map hids hrow' hrow hid
    exact hkept line hline _ (le_max_left _ _) hle

theorem column_nonneg {quantity : ℚ} (h : 0 ≤ quantity) : 0 ≤ column quantity := by
  apply half_up_nonneg
  positivity

theorem to_decimal_le {m n : ℤ} : toDecimal m ≤ toDecimal n ↔ m ≤ n := by
  unfold toDecimal
  rw [div_le_div_iff_of_pos_right (by norm_num), Int.cast_le]

end Caflow.OrderCycle
