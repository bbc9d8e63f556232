import Caflow.Lib.Fifo
import Caflow.Lib.SortByKey
import Caflow.Text

set_option linter.all false

namespace Caflow.Tds
open Fifo Tally Text

structure Deduction where
  id : String
  sectionText : String
  onDate : String
  sourceId : String
  tdsPaise : ℤ

structure Challan where
  id : String
  sectionText : String
  financialYear : String
  quarter : String
  paymentDate : String
  challanNo : String
  tdsPaise : ℤ
  surchargePaise : ℤ
  deriving DecidableEq

/-- The section a key belongs to: the clauses of sections 194I and 194J belong to their section. -/
@[irreducible] def parentOf (sectionText : String) : String :=
  let typed := strip (upper sectionText)
  if typed = "194I(A)" ∨ typed = "194I(B)" then "194I"
  else if typed = "194J(A)" ∨ typed = "194J(B)" then "194J"
  else typed

/-- One deduction's challan, and how much of it was paid by which challan. -/
structure Assignment where
  challan : Option Challan
  depositedPaise : ℤ
  parts : List (Challan × ℤ)

inductive Gap where
  | deductionsNotDeposited (sectionKey : String) (shortfallPaise : ℤ)
  | challanExceedsDeductions (sectionKey : String) (surplusPaise : ℤ) (challanNos : List String)

/-- The assignments in the order they were made; a later one of an id stands. -/
structure Mapping where
  byDeductionId : List (String × Assignment)
  gaps : List Gap

def Mapping.forDeduction (m : Mapping) (id : String) : Assignment :=
  (m.byDeductionId.reverse.lookup id).getD ⟨none, 0, []⟩

def sourceIdOf (d : Deduction) : String := if d.sourceId = "" then d.id else d.sourceId

/-- By the day of the deduction, and within a day by the source document. -/
def deductionKey (d : Deduction) : String ×ₗ String := toLex (d.onDate, sourceIdOf d)

def challanKey (c : Challan) : String ×ₗ String ×ₗ String :=
  toLex (c.paymentDate, toLex (c.challanNo, c.id))

/-- What a deduction owes: a negative row owes nothing. -/
def Deduction.need (d : Deduction) : ℤ := max 0 d.tdsPaise

def Challan.capacity (c : Challan) : ℤ := max 0 c.tdsPaise

def groupOf (deductions : List Deduction) (sectionKey : String) : List Deduction :=
  (deductions.filter (parentOf ·.sectionText = sectionKey)).insertionSort
    fun a b => deductionKey a ≤ deductionKey b

def poolOf (challans : List Challan) (sectionKey : String) : List Challan :=
  (challans.filter (parentOf ·.sectionText = sectionKey)).insertionSort
    fun a b => challanKey a ≤ challanKey b

def capacities (pool : List Challan) : List (Challan × ℤ) := pool.map fun c => (c, c.capacity)

def assignmentOf (parts : List (Challan × ℤ)) : Assignment :=
  ⟨parts.head?.map Prod.fst, total parts, parts⟩

/-- The deductions of a section in their order, each with the challans it drew on. -/
def sectionRows (deductions : List Deduction) (challans : List Challan) (sectionKey : String) :
    List (Deduction × Assignment) :=
  let group := groupOf deductions sectionKey
  group.zip ((fill (group.map (·.need)) (capacities (poolOf challans sectionKey))).1.map assignmentOf)

/-- What is left of the challans of a section. -/
def sectionLeft (deductions : List Deduction) (challans : List Challan) (sectionKey : String) :
    List (Challan × ℤ) :=
  (fill ((groupOf deductions sectionKey).map (·.need)) (capacities (poolOf challans sectionKey))).2

def undeposited (rows : List (Deduction × Assignment)) : ℤ :=
  (rows.map fun row => row.1.need - row.2.depositedPaise).sum

def sectionGaps (deductions : List Deduction) (challans : List Challan) (sectionKey : String) :
    List Gap :=
  let shortfall := undeposited (sectionRows deductions challans sectionKey)
  let surplus := total (sectionLeft deductions challans sectionKey)
  (if 0 < shortfall then [.deductionsNotDeposited sectionKey shortfall] else []) ++
    (if 0 < surplus then
      [.challanExceedsDeductions sectionKey surplus
        ((poolOf challans sectionKey).map (·.challanNo))]
    else [])

def sectionsOf (deductions : List Deduction) (challans : List Challan) : List String :=
  (deductions.map (parentOf ·.sectionText) ++ challans.map (parentOf ·.sectionText)).dedup.insertionSort
    (· ≤ ·)

/-- Match each deduction to the challans that deposited it, first in first out. -/
def assign (deductions : List Deduction) (challans : List Challan) : Mapping :=
  let sections := sectionsOf deductions challans
  { byDeductionId := sections.flatMap fun sectionKey =>
      (sectionRows deductions challans sectionKey).map fun row => (row.1.id, row.2)
    gaps := sections.flatMap (sectionGaps deductions challans) }

variable {deductions : List Deduction} {challans : List Challan} {sectionKey : String}

theorem capacities_nonneg (pool : List Challan) : Nonneg (capacities pool) := by
  intro p hp
  obtain ⟨c, -, rfl⟩ := List.mem_map.mp hp
  exact le_max_left _ _

theorem needs_nonneg (group : List Deduction) : ∀ need ∈ group.map (·.need), 0 ≤ need := by
  intro need hneed
  obtain ⟨d, -, rfl⟩ := List.mem_map.mp hneed
  exact le_max_left _ _

/-- What the challans of a section can pay. -/
def sectionCapacity (challans : List Challan) (sectionKey : String) : ℤ :=
  ((challans.filter (parentOf ·.sectionText = sectionKey)).map (·.capacity)).sum

theorem pool_capacity (challans : List Challan) (sectionKey : String) :
    total (capacities (poolOf challans sectionKey)) = sectionCapacity challans sectionKey := by
  unfold total capacities poolOf sectionCapacity
  rw [List.map_map]
  exact ((List.perm_insertionSort _ _).map _).sum_eq

theorem section_capacity_nonneg (challans : List Challan) (sectionKey : String) :
    0 ≤ sectionCapacity challans sectionKey := by
  rw [← pool_capacity]
  exact (capacities_nonneg _).total

theorem rows_group : (sectionRows deductions challans sectionKey).map Prod.fst =
    groupOf deductions sectionKey := by
  unfold sectionRows
  apply List.map_fst_zip
  simp

/-- What each deduction of a section is deposited depends on the challans through their total. -/
theorem rows_deposited : (sectionRows deductions challans sectionKey).map (·.2.depositedPaise) =
    cover (sectionCapacity challans sectionKey)
      ((groupOf deductions sectionKey).map (·.need)) := by
  unfold sectionRows
  rw [← pool_capacity, ← fill_cover (capacities_nonneg _) (needs_nonneg _)]
  have hsplit : ∀ (rows : List (Deduction × Assignment)),
      rows.map (fun row => row.2.depositedPaise) = (rows.map Prod.snd).map (·.depositedPaise) := by
    intro rows
    rw [List.map_map]
    rfl
  rw [hsplit, List.map_snd_zip (by simp), List.map_map]
  rfl

theorem rows_parts : (sectionRows deductions challans sectionKey).map (·.2.parts) =
    (fill ((groupOf deductions sectionKey).map (·.need))
      (capacities (poolOf challans sectionKey))).1 := by
  unfold sectionRows
  have hsplit : ∀ (rows : List (Deduction × Assignment)),
      rows.map (fun row => row.2.parts) = (rows.map Prod.snd).map (·.parts) := by
    intro rows
    rw [List.map_map]
    rfl
  rw [hsplit, List.map_snd_zip (by simp), List.map_map]
  exact List.map_id _

theorem undeposited_eq : undeposited (sectionRows deductions challans sectionKey) +
    ((sectionRows deductions challans sectionKey).map (·.2.depositedPaise)).sum =
      ((groupOf deductions sectionKey).map (·.need)).sum := by
  rw [← @rows_group _ challans, List.map_map, undeposited, ← List.sum_map_add]
  apply congrArg
  apply List.map_congr_left
  intro row _
  simp

end Caflow.Tds
