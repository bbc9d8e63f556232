import Caflow.Tds.DepositState
import Caflow.Tds.StableMapping

set_option linter.all false

namespace Caflow.Tds
open Fifo Tally Text IsoDate

variable {deductions : List RegisterRow} {challans : List Challan} {period : Period}
  {dueDateOf : Option (Date → Date)} {today : Option Date}

/-- What the challans of a quarter deposited of a deduction. -/
def depositOf (deductions : List RegisterRow) (challans : List Challan) (period : Period)
    (id : String) : ℤ :=
  ((quarterMapping deductions challans period).forDeduction id).depositedPaise

theorem period_lawful : LawfulBEq Period := inferInstance

attribute [local instance] period_lawful

/-- The state a deduction is left in. -/
def stateFor (deductions : List RegisterRow) (challans : List Challan)
    (dueDateOf : Option (Date → Date)) (today : Option Date) (r : RegisterRow) : RowState :=
  match standingOf r with
  | .settled state => state
  | .owing period =>
    if period ∈ recorded challans then
      judgedState period ((quarterMapping deductions challans period).forDeduction r.id) r
        dueDateOf today
    else { state := .notRecorded, taxPaise := nilFloor r, financialYear := period.1,
           quarter := period.2 }

theorem nil_floor_section (r : RegisterRow) (sectionText : String) :
    nilFloor { r with sectionText := sectionText } = nilFloor r := rfl

theorem judged_state_section (assignment : Assignment) (r : RegisterRow) (sectionText : String) :
    judgedState period assignment { r with sectionText := sectionText } dueDateOf today =
      judgedState period assignment r dueDateOf today := by
  unfold judgedState
  simp only [nil_floor_section]
  cases asDate r.transactionDate with
  | none => rfl
  | some on => rfl

theorem quarter_states_eq : quarterStates deductions challans dueDateOf today period =
    (deductions.filter (periodFor · = some period)).map fun r =>
      (r.id, stateFor deductions challans dueDateOf today r) := by
  unfold quarterStates rowsOf
  rw [List.map_map]
  apply List.map_congr_left
  intro r hr
  simp only [List.mem_filter, decide_eq_true_eq] at hr
  have hstanding : standingOf r = .owing period := by
    unfold periodFor at hr
    cases hs : standingOf r with
    | settled state => simp [hs] at hr
    | owing period' => simpa [hs] using hr.2
  unfold stateFor
  rw [hstanding]
  simp only [Function.comp_apply, judged_state_section, nil_floor_section]
  exact (apply_ite (Prod.mk r.id) _ _ _).symm

theorem settled_states_eq : settledStates deductions =
    (deductions.filter (periodFor · = none)).map fun r =>
      (r.id, stateFor deductions challans dueDateOf today r) := by
  have hlist : ∀ l : List RegisterRow, settledStates l =
      (l.filter (periodFor · = none)).map fun r =>
        (r.id, stateFor deductions challans dueDateOf today r) := by
    intro l
    unfold settledStates
    induction l with
    | nil => rfl
    | cons r l ih =>
      rw [List.filterMap_cons, List.filter_cons, ih]
      unfold periodFor stateFor
      cases hs : standingOf r with
      | settled state => simp [hs]
      | owing period => simp
  exact hlist deductions

theorem mem_periods : period ∈ periods deductions challans ↔
    period ∈ recorded challans ∨ ∃ r ∈ deductions, periodFor r = some period := by
  unfold periods owingPeriods
  rw [(List.perm_insertionSort _ _).mem_iff, List.mem_dedup, List.mem_append, List.mem_filterMap]

theorem periods_nodup : (periods deductions challans).Nodup := by
  unfold periods
  rw [(List.perm_insertionSort _ _).nodup_iff]
  exact List.nodup_dedup _

/-- The judgement has one state for every deduction. -/
theorem states_perm : (judge deductions challans dueDateOf today).states.Perm
    (deductions.map fun r => (r.id, stateFor deductions challans dueDateOf today r)) := by
  have hkeys : (none :: (periods deductions challans).map some).Nodup := by
    refine List.nodup_cons.mpr ⟨by simp, ?_⟩
    exact periods_nodup.map (Option.some_injective _)
  have hcover : ∀ r ∈ deductions, periodFor r ∈ none :: (periods deductions challans).map some := by
    intro r hr
    cases hp : periodFor r with
    | none => exact List.mem_cons_self
    | some period =>
      refine List.mem_cons_of_mem _ (List.mem_map.mpr ⟨period, ?_, rfl⟩)
      exact mem_periods.mpr (.inr ⟨r, hr, hp⟩)
  have hshare := share_out hkeys periodFor hcover
  rw [List.flatMap_cons, List.flatMap_map] at hshare
  have hstates : (judge deductions challans dueDateOf today).states =
      (deductions.filter (periodFor · = none) ++ (periods deductions challans).flatMap
        fun period => deductions.filter (periodFor · = some period)).map
          fun r => (r.id, stateFor deductions challans dueDateOf today r) := by
    unfold judge
    simp only
    rw [settled_states_eq, List.map_append, List.map_flatMap]
    congr 1
    apply congrArg (fun f => List.flatMap f _)
    funext period
    exact quarter_states_eq
  rw [hstates]
  exact hshare.map _

/-- Deductions of distinct ids each read their own state. -/
theorem state_of (hids : (deductions.map (·.id)).Nodup) {r : RegisterRow} (hr : r ∈ deductions) :
    (judge deductions challans dueDateOf today).stateOf r.id =
      some (stateFor deductions challans dueDateOf today r) := by
  have hperm := @states_perm deductions challans dueDateOf today
  have hmem : (r.id, stateFor deductions challans dueDateOf today r) ∈
      (judge deductions challans dueDateOf today).states :=
    hperm.mem_iff.mpr (List.mem_map.mpr ⟨r, hr, rfl⟩)
  have hnodup : ((judge deductions challans dueDateOf today).states.map Prod.fst).Nodup := by
    rw [(hperm.map Prod.fst).nodup_iff, List.map_map]
    exact hids
  unfold Judgement.stateOf
  refine @lookup_row _ _ ?_ (r.id, stateFor deductions challans dueDateOf today r) ?_
  · rw [List.map_reverse, List.nodup_reverse]
    exact hnodup
  · exact List.mem_reverse.mpr hmem

/-- The section under which the mapping reads a section the card groups by. -/
def readAs (group : String) : String :=
  parentOf (if strip group = "" then "(no section)" else strip group)

/-- The deductions the mapping reads as one section, in its order. -/
def readRows (deductions : List RegisterRow) (period : Period) (sectionKey : String) :
    List RegisterRow :=
  ((rowsOf deductions period).filter fun r =>
    !isSalary r.sectionText && decide (readAs r.sectionText = sectionKey)).insertionSort
      fun a b => deductionKey (eventOf a) ≤ deductionKey (eventOf b)

/-- What the challans the mapping reads as one section paid. -/
def readCapacity (challans : List Challan) (period : Period) (sectionKey : String) : ℤ :=
  (((challansOf challans period).filter fun c =>
    !isSalary c.sectionText && decide (parentOf c.sectionText = sectionKey)).map (·.paid)).sum

/-- Of the earliest tax under a section, as much as its challans paid, the part typed one way. -/
def earliestTax (deductions : List RegisterRow) (challans : List Challan) (period : Period)
    (group : String) : ℤ :=
  if isSalary group then 0
  else
    let rows := readRows deductions period (readAs group)
    tally ((rows.map (·.sectionText)).zip
      (cover (readCapacity challans period (readAs group)) (rows.map nilFloor))) group

theorem event_section (r : RegisterRow) :
    parentOf (eventOf r).sectionText = readAs r.sectionText := rfl

theorem event_need (r : RegisterRow) : (eventOf r).need = nilFloor r := rfl

theorem paying_section (c : Challan) : (payingChallan c).sectionText = c.sectionText := rfl

theorem paying_capacity (c : Challan) : (payingChallan c).capacity = c.paid := rfl

theorem group_read_rows (sectionKey : String) :
    groupOf (((rowsOf deductions period).filter fun r => !isSalary r.sectionText).map eventOf)
      sectionKey = (readRows deductions period sectionKey).map eventOf := by
  unfold groupOf readRows
  rw [List.map_insertionSort (r := fun a b => deductionKey (eventOf a) ≤ deductionKey (eventOf b))
    (s := fun a b => deductionKey a ≤ deductionKey b) eventOf _ (fun _ _ _ _ => Iff.rfl),
    List.filter_map, List.filter_filter]
  congr 2
  apply List.filter_congr
  intro r _
  rw [Function.comp_apply, event_section, Bool.and_comm]

theorem capacity_read (sectionKey : String) :
    sectionCapacity (((challansOf challans period).filter fun c => !isSalary c.sectionText).map
      payingChallan) sectionKey = readCapacity challans period sectionKey := by
  unfold sectionCapacity readCapacity
  rw [List.filter_map, List.filter_filter, List.map_map]
  have hfilter : ((challansOf challans period).filter fun c =>
      ((fun c => decide (parentOf c.sectionText = sectionKey)) ∘ payingChallan) c &&
        !isSalary c.sectionText) =
      (challansOf challans period).filter fun c =>
        !isSalary c.sectionText && decide (parentOf c.sectionText = sectionKey) := by
    apply List.filter_congr
    intro c _
    rw [Function.comp_apply, paying_section, Bool.and_comm]
  rw [hfilter]
  apply congrArg
  apply List.map_congr_left
  intro c _
  rw [Function.comp_apply, paying_capacity]

theorem rows_ids (hids : (deductions.map (·.id)).Nodup) :
    ((rowsOf deductions period).map (·.id)).Nodup := by
  unfold rowsOf
  rw [List.map_map]
  exact hids.sublist (List.filter_sublist.map _)

theorem events_ids (hids : (deductions.map (·.id)).Nodup) :
    ((((rowsOf deductions period).filter fun r => !isSalary r.sectionText).map eventOf).map
      (·.id)).Nodup := by
  rw [List.map_map]
  exact (rows_ids hids).sublist (List.filter_sublist.map _)

theorem deposits_read (hids : (deductions.map (·.id)).Nodup) (sectionKey : String) :
    (readRows deductions period sectionKey).map
        (fun r => depositOf deductions challans period r.id) =
      cover (readCapacity challans period sectionKey)
        ((readRows deductions period sectionKey).map nilFloor) := by
  have hcover := @deposits_cover _
    (((challansOf challans period).filter fun c => !isSalary c.sectionText).map payingChallan)
    sectionKey (@events_ids _ period hids)
  rw [group_read_rows, capacity_read, List.map_map, List.map_map] at hcover
  have hneeds : (readRows deductions period sectionKey).map ((·.need) ∘ eventOf) =
      (readRows deductions period sectionKey).map nilFloor :=
    List.map_congr_left fun r _ => event_need r
  rw [hneeds] at hcover
  exact hcover

theorem mem_read_rows {sectionKey : String} {r : RegisterRow} :
    r ∈ readRows deductions period sectionKey ↔ r ∈ rowsOf deductions period ∧
      isSalary r.sectionText = false ∧ readAs r.sectionText = sectionKey := by
  unfold readRows
  rw [(List.perm_insertionSort _ _).mem_iff]
  simp

/-- A deduction whose section reads as salary once its limb is dropped gets nothing. -/
theorem salary_deposit (hids : (deductions.map (·.id)).Nodup) {r : RegisterRow}
    (hr : r ∈ rowsOf deductions period) (hsalary : isSalary r.sectionText = true) :
    depositOf deductions challans period r.id = 0 := by
  unfold depositOf quarterMapping mappingFromRegister
  rw [no_deduction]
  intro hmem
  rw [List.map_map] at hmem
  obtain ⟨r', hr', hid⟩ := List.mem_map.mp hmem
  obtain ⟨hin, hnot⟩ := List.mem_filter.mp hr'
  have hsame : r' = r := List.inj_on_of_nodup_map (rows_ids hids) hin hr hid
  rw [hsame, hsalary] at hnot
  cases hnot

theorem deposit_bounds (hids : (deductions.map (·.id)).Nodup) {r : RegisterRow}
    (hr : r ∈ rowsOf deductions period) : 0 ≤ depositOf deductions challans period r.id ∧
      depositOf deductions challans period r.id ≤ nilFloor r := by
  cases hsalary : isSalary r.sectionText with
  | true =>
    rw [salary_deposit hids hr hsalary]
    exact ⟨le_rfl, le_max_left _ _⟩
  | false =>
    have hmem : r ∈ readRows deductions period (readAs r.sectionText) :=
      mem_read_rows.mpr ⟨hr, hsalary, rfl⟩
    obtain ⟨i, hi⟩ := List.mem_iff_getElem?.mp hmem
    have hcover := @deposits_read _ challans period hids
      (readAs r.sectionText)
    have hneeds : ∀ need ∈ (readRows deductions period (readAs r.sectionText)).map nilFloor,
        0 ≤ need := by
      intro need hneed
      obtain ⟨r', -, rfl⟩ := List.mem_map.mp hneed
      exact le_max_left _ _
    have hcapacity : 0 ≤ readCapacity challans period (readAs r.sectionText) := by
      rw [← capacity_read]
      exact section_capacity_nonneg _ _
    have hneed : ((readRows deductions period (readAs r.sectionText)).map nilFloor)[i]? =
        some (nilFloor r) := by
      rw [List.getElem?_map, hi]
      rfl
    have hat := cover_at hneeds hcapacity hneed
    rw [← hcover, List.getElem?_map, hi] at hat
    have hfloor : 0 ≤ nilFloor r := le_max_left _ _
    simp only [Option.map_some, Option.some.injEq] at hat
    omega

/-- What the deductions typed one way are deposited. -/
theorem deposits_typed (hids : (deductions.map (·.id)).Nodup) (group : String) :
    (((rowsOf deductions period).filter (·.sectionText = group)).map
        fun r => depositOf deductions challans period r.id).sum =
      earliestTax deductions challans period group := by
  unfold earliestTax
  cases hsalary : isSalary group with
  | true =>
    rw [if_pos rfl]
    apply List.sum_eq_zero
    intro x hx
    obtain ⟨r, hr, rfl⟩ := List.mem_map.mp hx
    simp only [List.mem_filter, decide_eq_true_eq] at hr
    exact salary_deposit hids hr.1 (by rw [hr.2, hsalary])
  | false =>
    simp only [Bool.false_eq_true, if_false]
    rw [← deposits_read hids, List.zip_map', tally, List.filter_map, List.map_map]
    have hperm : ((readRows deductions period (readAs group)).filter (·.sectionText = group)).Perm
        ((rowsOf deductions period).filter (·.sectionText = group)) := by
      unfold readRows
      refine ((List.perm_insertionSort _ _).filter _).trans ?_
      rw [List.filter_filter]
      refine List.Perm.of_eq (List.filter_congr ?_)
      intro r _
      by_cases hr : r.sectionText = group
      · simp [hr, hsalary]
      · simp [hr]
    exact ((hperm.map _).sum_eq).symm

end Caflow.Tds
