import Caflow.Tds.DepositAgreement

set_option linter.all false

namespace Caflow.Tds
open Fifo Tally Text IsoDate

variable {deductions : List RegisterRow} {challans : List Challan} {period : Period}
  {dueDateOf : Option (Date → Date)} {today : Option Date}

/-- The tax a part deposited or undeposited row has left to deposit. -/
def RowState.short (s : RowState) : ℤ :=
  if s.state = .part ∨ s.state = .notDeposited then s.taxPaise - s.depositedPaise else 0

def RowState.unrecorded (s : RowState) : ℤ := if s.state = .notRecorded then s.taxPaise else 0

/-- The tax deducted in a quarter under a section typed one way. -/
def taxTyped (deductions : List RegisterRow) (key : Period × String) : ℤ :=
  ((deductions.filter (keyOf · = some key)).map nilFloor).sum

/-- What the challans of a quarter under a section typed one way paid. -/
def paidTyped (challans : List Challan) (key : Period × String) : ℤ :=
  ((challans.filter (challanKeyOf · = some key)).map (·.paid)).sum

/-- The states of the deductions and the position across them give the same figures, and no section
of a quarter is deposited more than its challans paid. -/
structure AnswersAgree (deductions : List RegisterRow) (challans : List Challan) (j : Judgement)
    (p : Position) : Prop where
  undeposited : (deductions.map fun r => (j.stateOf r.id).elim 0 (·.short)).sum =
    p.undepositedPaise
  notRecorded : (deductions.map fun r => (j.stateOf r.id).elim 0 (·.unrecorded)).sum =
    p.notRecordedPaise
  within : ∀ key, ((deductions.filter (keyOf · = some key)).map fun r =>
    (j.stateOf r.id).elim 0 (·.depositedPaise)).sum ≤ paidTyped challans key

theorem key_group {r : RegisterRow} {key : Period × String} (h : keyOf r = some key) :
    sectionGroup r.sectionText noSection = key.2 := by
  unfold keyOf at h
  cases hon : asDate r.transactionDate with
  | none => simp [hon] at h
  | some on =>
    simp only [hon] at h
    split at h
    · cases h
    · rw [← Option.some.inj h]

theorem nil_floor_nonneg (r : RegisterRow) : 0 ≤ nilFloor r := le_max_left _ _

/-- A state that adds nothing to any figure. -/
def RowState.Silent (s : RowState) : Prop := s.short = 0 ∧ s.unrecorded = 0 ∧ s.depositedPaise = 0

/-- A deduction is outside the register, owes nothing, or is held to its quarter. -/
theorem standing_cases (r : RegisterRow) :
    (keyOf r = none ∧ ∃ s, standingOf r = .settled s ∧ s.Silent) ∨
    (∃ key, keyOf r = some key ∧ nilFloor r = 0 ∧ ∃ s, standingOf r = .settled s ∧ s.Silent) ∨
    ∃ key, keyOf r = some key ∧ 0 < nilFloor r ∧ standingOf r = .owing key.1 := by
  unfold keyOf standingOf
  cases hsalary : isSalary r.sectionText with
  | true =>
    refine .inl ⟨?_, { state := .salary }, rfl, rfl, rfl, rfl⟩
    cases asDate r.transactionDate <;> rfl
  | false =>
    cases asDate r.transactionDate with
    | none => exact .inl ⟨rfl, { state := .undated, taxPaise := nilFloor r }, rfl, rfl, rfl, rfl⟩
    | some on =>
      by_cases hnil : nilFloor r ≤ 0
      · refine .inr (.inl ⟨_, rfl, le_antisymm hnil (nil_floor_nonneg r), _, if_pos hnil, ?_⟩)
        exact ⟨rfl, rfl, rfl⟩
      · exact .inr (.inr ⟨_, rfl, not_le.mp hnil, if_neg hnil⟩)

theorem paid_nonneg (c : Challan) : 0 ≤ c.paid := le_max_left _ _

theorem paid_typed_nonneg (key : Period × String) : 0 ≤ paidTyped challans key := by
  apply List.sum_nonneg
  intro x hx
  obtain ⟨c, -, rfl⟩ := List.mem_map.mp hx
  exact paid_nonneg c

theorem mem_recorded : period ∈ recorded challans ↔
    ∃ c ∈ challans, ∃ group, challanKeyOf c = some (period, group) := by
  unfold recorded registerChallans
  rw [List.map_map, List.mem_map]
  constructor
  · rintro ⟨c, hc, rfl⟩
    obtain ⟨hmem, hsalary⟩ := List.mem_filter.mp hc
    refine ⟨c, hmem, sectionGroup c.sectionText "", ?_⟩
    unfold challanKeyOf
    rw [if_neg (by simpa using hsalary)]
    rfl
  · rintro ⟨c, hmem, group, hkey⟩
    unfold challanKeyOf at hkey
    split at hkey
    · cases hkey
    · rename_i hsalary
      refine ⟨c, List.mem_filter.mpr ⟨hmem, by simpa using hsalary⟩, ?_⟩
      exact congrArg Prod.fst (Option.some.inj hkey)

theorem recorded_paid : period ∈ (paid challans).map (·.1.1) ↔ period ∈ recorded challans := by
  unfold paid
  rw [grouped_eq, List.map_map, mem_recorded]
  constructor
  · intro h
    obtain ⟨key, hkey, rfl⟩ := List.mem_map.mp h
    obtain ⟨p, hp, rfl⟩ := mem_first_keys.mp hkey
    obtain ⟨c, hc, hpair⟩ := List.mem_filterMap.mp hp
    obtain ⟨k, hk, rfl⟩ := Option.map_eq_some_iff.mp hpair
    exact ⟨c, hc, k.2, hk⟩
  · rintro ⟨c, hc, group, hk⟩
    refine List.mem_map.mpr ⟨(period, group), ?_, rfl⟩
    refine mem_first_keys.mpr ⟨((period, group), c.paid), ?_, rfl⟩
    exact List.mem_filterMap.mpr ⟨c, hc, by rw [hk]; rfl⟩

/-- The sections that deductions are netted in. -/
def owedKeys (deductions : List RegisterRow) : List (Period × String) :=
  firstKeys (deductions.filterMap fun r => (keyOf r).map fun key => (key, nilFloor r))

theorem owed_keys_nodup : (owedKeys deductions).Nodup := first_keys_nodup _

theorem mem_owed_keys {key : Period × String} : key ∈ owedKeys deductions ↔
    ∃ r ∈ deductions, keyOf r = some key := by
  unfold owedKeys
  rw [mem_first_keys]
  constructor
  · rintro ⟨p, hp, rfl⟩
    obtain ⟨r, hr, hpair⟩ := List.mem_filterMap.mp hp
    obtain ⟨key, hkey, rfl⟩ := Option.map_eq_some_iff.mp hpair
    exact ⟨r, hr, hkey⟩
  · rintro ⟨r, hr, hkey⟩
    exact ⟨(key, nilFloor r), List.mem_filterMap.mpr ⟨r, hr, by rw [hkey]; rfl⟩, rfl⟩

theorem owed_eq : owed deductions = (owedKeys deductions).map fun key =>
    (key, taxTyped deductions key) := by
  unfold owed
  rw [grouped_eq]
  apply List.map_congr_left
  intro key _
  rw [tally_posted]
  rfl

theorem paid_lookup (key : Period × String) :
    ((paid challans).lookup key).getD 0 = paidTyped challans key := by
  have hkeys := lookup_grouped
    (challans.filterMap fun c => (challanKeyOf c).map fun key => (key, c.paid)) key
  rw [tally_posted] at hkeys
  unfold paid paidTyped
  rw [← hkeys]
  congr!

theorem position_undeposited : (position deductions challans).undepositedPaise =
    ((owedKeys deductions).map fun key => if key.1 ∈ recorded challans then
      max 0 (taxTyped deductions key - paidTyped challans key) else 0).sum := by
  unfold position
  simp only [recorded_paid, paid_lookup, owed_eq, List.map_map]
  rfl

theorem position_not_recorded : (position deductions challans).notRecordedPaise =
    ((owedKeys deductions).map fun key =>
      if key.1 ∈ recorded challans then 0 else taxTyped deductions key).sum := by
  unfold position
  simp only [recorded_paid, owed_eq, List.map_map]
  rfl

theorem judged_deposited (assignment : Assignment) (r : RegisterRow) :
    (judgedState period assignment r dueDateOf today).depositedPaise = assignment.depositedPaise := by
  unfold judgedState
  cases asDate r.transactionDate with
  | none => rfl
  | some on => cases dueDateOf <;> cases today <;> rfl

theorem judged_tax (assignment : Assignment) (r : RegisterRow) :
    (judgedState period assignment r dueDateOf today).taxPaise = nilFloor r := by
  unfold judgedState
  cases asDate r.transactionDate with
  | none => rfl
  | some on => cases dueDateOf <;> cases today <;> rfl

theorem judged_status (assignment : Assignment) (r : RegisterRow) :
    (judgedState period assignment r dueDateOf today).state =
      if nilFloor r ≤ assignment.depositedPaise then .deposited
      else if 0 < assignment.depositedPaise then .part else .notDeposited := by
  unfold judgedState
  cases asDate r.transactionDate with
  | none => rfl
  | some on => cases dueDateOf <;> cases today <;> rfl

theorem judged_short {assignment : Assignment} {r : RegisterRow}
    (h : assignment.depositedPaise ≤ nilFloor r) :
    (judgedState period assignment r dueDateOf today).short =
      nilFloor r - assignment.depositedPaise := by
  unfold RowState.short
  rw [judged_status, judged_tax, judged_deposited]
  by_cases hfull : nilFloor r ≤ assignment.depositedPaise
  · have hexact : nilFloor r = assignment.depositedPaise := le_antisymm hfull h
    simp [hexact]
  · by_cases hpart : 0 < assignment.depositedPaise
    · simp [hfull, hpart]
    · simp [hfull, hpart]

theorem judged_unrecorded (assignment : Assignment) (r : RegisterRow) :
    (judgedState period assignment r dueDateOf today).unrecorded = 0 := by
  unfold RowState.unrecorded
  rw [judged_status]
  split_ifs <;> simp_all

theorem mem_rows {r : RegisterRow} {key : Period × String} (hr : r ∈ deductions)
    (hkey : keyOf r = some key) (hstanding : standingOf r = .owing key.1) :
    { r with sectionText := key.2 } ∈ rowsOf deductions key.1 := by
  unfold rowsOf
  refine List.mem_map.mpr ⟨r, List.mem_filter.mpr ⟨hr, ?_⟩, ?_⟩
  · simp [periodFor, hstanding]
  · rw [key_group hkey]

/-- A deduction in a quarter with a challan is short of what the challans did not deposit. -/
theorem state_recorded (hids : (deductions.map (·.id)).Nodup) {r : RegisterRow}
    (hr : r ∈ deductions) {key : Period × String} (hkey : keyOf r = some key)
    (hrecorded : key.1 ∈ recorded challans) :
    (stateFor deductions challans dueDateOf today r).short =
        nilFloor r - (stateFor deductions challans dueDateOf today r).depositedPaise ∧
      (stateFor deductions challans dueDateOf today r).unrecorded = 0 ∧
      0 ≤ (stateFor deductions challans dueDateOf today r).depositedPaise ∧
      (stateFor deductions challans dueDateOf today r).depositedPaise ≤ nilFloor r := by
  obtain ⟨hnone, -⟩ | ⟨key', hkey', hnil, s, hs, hshort, hun, hdep⟩ | ⟨key', hkey', hpos, hs⟩ :=
    standing_cases r
  · rw [hkey] at hnone
    cases hnone
  · unfold stateFor
    rw [hs]
    simp [hshort, hun, hdep, hnil]
  · obtain rfl : key' = key := Option.some.inj (hkey'.symm.trans hkey)
    have hbounds := @deposit_bounds _ challans _ hids _ (mem_rows hr hkey hs)
    rw [nil_floor_section] at hbounds
    unfold depositOf at hbounds
    unfold stateFor
    rw [hs]
    simp only [hrecorded, if_true]
    rw [judged_short hbounds.2, judged_unrecorded, judged_deposited]
    exact ⟨rfl, rfl, hbounds⟩

theorem state_unrecorded {r : RegisterRow} {key : Period × String} (hkey : keyOf r = some key)
    (hrecorded : key.1 ∉ recorded challans) :
    (stateFor deductions challans dueDateOf today r).short = 0 ∧
      (stateFor deductions challans dueDateOf today r).unrecorded = nilFloor r ∧
      (stateFor deductions challans dueDateOf today r).depositedPaise = 0 := by
  obtain ⟨hnone, -⟩ | ⟨key', hkey', hnil, s, hs, hshort, hun, hdep⟩ | ⟨key', hkey', hpos, hs⟩ :=
    standing_cases r
  · rw [hkey] at hnone
    cases hnone
  · unfold stateFor
    rw [hs]
    simp [hshort, hun, hdep, hnil]
  · obtain rfl : key' = key := Option.some.inj (hkey'.symm.trans hkey)
    unfold stateFor
    rw [hs]
    simp [hrecorded, RowState.short, RowState.unrecorded]

theorem state_outside {r : RegisterRow} (hkey : keyOf r = none) :
    (stateFor deductions challans dueDateOf today r).Silent := by
  obtain ⟨-, s, hs, hsilent⟩ | ⟨key, hsome, -⟩ | ⟨key, hsome, -⟩ := standing_cases r
  · unfold stateFor
    rw [hs]
    exact hsilent
  · rw [hkey] at hsome
    cases hsome
  · rw [hkey] at hsome
    cases hsome

/-- In a quarter with a challan, what the deductions typed one way are deposited. -/
theorem deposited_typed (hids : (deductions.map (·.id)).Nodup) {key : Period × String}
    (hrecorded : key.1 ∈ recorded challans) :
    ((deductions.filter (keyOf · = some key)).map fun r =>
        (stateFor deductions challans dueDateOf today r).depositedPaise).sum =
      earliestTax deductions challans key.1 key.2 := by
  rw [← deposits_typed hids]
  unfold rowsOf
  rw [List.filter_map, List.map_map, List.filter_filter]
  have hlist : ∀ l : List RegisterRow,
      ((l.filter (keyOf · = some key)).map fun r =>
        (stateFor deductions challans dueDateOf today r).depositedPaise).sum =
      ((l.filter fun r => decide (sectionGroup r.sectionText noSection = key.2) &&
          decide (periodFor r = some key.1)).map fun r =>
        depositOf deductions challans key.1 r.id).sum := by
    intro l
    induction l with
    | nil => rfl
    | cons r l ih =>
      rw [List.filter_cons, List.filter_cons]
      obtain ⟨hnone, s, hs, hsilent⟩ | ⟨key', hkey', hnil, s, hs, hsilent⟩ |
        ⟨key', hkey', hpos, hs⟩ := standing_cases r
      · have hperiod : periodFor r = none := by simp [periodFor, hs]
        simpa [hnone, hperiod] using ih
      · have hperiod : periodFor r = none := by simp [periodFor, hs]
        have hdep : (stateFor deductions challans dueDateOf today r).depositedPaise = 0 := by
          unfold stateFor
          rw [hs]
          exact hsilent.2.2
        by_cases hsame : key' = key
        · simpa [hkey', hsame, hperiod, hdep] using ih
        · simpa [hkey', hsame, hperiod] using ih
      · have hperiod : periodFor r = some key'.1 := by simp [periodFor, hs]
        have hgroup := key_group hkey'
        by_cases hsame : key' = key
        · subst hsame
          have hdep : (stateFor deductions challans dueDateOf today r).depositedPaise =
              depositOf deductions challans key'.1 r.id := by
            unfold stateFor
            rw [hs]
            simp only [hrecorded, if_true]
            exact judged_deposited _ _
          simp [hkey', hperiod, hgroup, hdep, ih]
        · have hother : ¬ (key'.2 = key.2 ∧ key'.1 = key.1) :=
            fun h => hsame (Prod.ext h.2 h.1)
          simpa [hkey', hsame, hperiod, hgroup, hother] using ih
  rw [hlist]
  rfl

theorem earliest_le (hids : (deductions.map (·.id)).Nodup) {key : Period × String}
    (hrecorded : key.1 ∈ recorded challans) :
    earliestTax deductions challans key.1 key.2 ≤ taxTyped deductions key := by
  rw [← @deposited_typed _ _ none none hids _ hrecorded]
  apply List.sum_le_sum
  intro r hr
  simp only [List.mem_filter, decide_eq_true_eq] at hr
  exact (state_recorded hids hr.1 hr.2 hrecorded).2.2.2

theorem earliest_nonneg (hids : (deductions.map (·.id)).Nodup) {key : Period × String}
    (hrecorded : key.1 ∈ recorded challans) :
    0 ≤ earliestTax deductions challans key.1 key.2 := by
  rw [← @deposited_typed _ _ none none hids _ hrecorded]
  apply List.sum_nonneg
  intro x hx
  obtain ⟨r, hr, rfl⟩ := List.mem_map.mp hx
  simp only [List.mem_filter, decide_eq_true_eq] at hr
  exact (state_recorded hids hr.1 hr.2 hrecorded).2.2.1

theorem judged_undeposited (hids : (deductions.map (·.id)).Nodup) :
    (deductions.map fun r => ((judge deductions challans dueDateOf today).stateOf r.id).elim 0
        (·.short)).sum =
      ((owedKeys deductions).map fun key => if key.1 ∈ recorded challans then
        taxTyped deductions key - earliestTax deductions challans key.1 key.2 else 0).sum := by
  have hstate : (deductions.map fun r =>
      ((judge deductions challans dueDateOf today).stateOf r.id).elim 0 (·.short)) =
      deductions.map fun r => (stateFor deductions challans dueDateOf today r).short := by
    apply List.map_congr_left
    intro r hr
    rw [state_of hids hr]
    rfl
  rw [hstate, sum_by_key owed_keys_nodup keyOf]
  · apply congrArg
    apply List.map_congr_left
    intro key _
    split
    · rename_i hrecorded
      rw [← @deposited_typed _ _ dueDateOf today hids _ hrecorded, taxTyped]
      apply eq_sub_of_add_eq
      rw [← List.sum_map_add]
      apply congrArg
      apply List.map_congr_left
      intro r hr
      simp only [List.mem_filter, decide_eq_true_eq] at hr
      rw [(state_recorded hids hr.1 hr.2 hrecorded).1]
      ring
    · rename_i hrecorded
      apply List.sum_eq_zero
      intro x hx
      obtain ⟨r, hr, rfl⟩ := List.mem_map.mp hx
      simp only [List.mem_filter, decide_eq_true_eq] at hr
      exact (state_unrecorded hr.2 hrecorded).1
  · intro r hr key hkey
    exact mem_owed_keys.mpr ⟨r, hr, hkey⟩
  · intro r hr hkey
    exact (state_outside hkey).1

/-- The tax of the quarters without a challan is the same for both answers. -/
theorem judged_not_recorded (hids : (deductions.map (·.id)).Nodup) :
    (deductions.map fun r => ((judge deductions challans dueDateOf today).stateOf r.id).elim 0
        (·.unrecorded)).sum = (position deductions challans).notRecordedPaise := by
  have hstate : (deductions.map fun r =>
      ((judge deductions challans dueDateOf today).stateOf r.id).elim 0 (·.unrecorded)) =
      deductions.map fun r => (stateFor deductions challans dueDateOf today r).unrecorded := by
    apply List.map_congr_left
    intro r hr
    rw [state_of hids hr]
    rfl
  rw [hstate, position_not_recorded, sum_by_key owed_keys_nodup keyOf]
  · apply congrArg
    apply List.map_congr_left
    intro key _
    split
    · rename_i hrecorded
      apply List.sum_eq_zero
      intro x hx
      obtain ⟨r, hr, rfl⟩ := List.mem_map.mp hx
      simp only [List.mem_filter, decide_eq_true_eq] at hr
      exact (state_recorded hids hr.1 hr.2 hrecorded).2.1
    · rename_i hrecorded
      unfold taxTyped
      apply congrArg
      apply List.map_congr_left
      intro r hr
      simp only [List.mem_filter, decide_eq_true_eq] at hr
      exact (state_unrecorded hr.2 hrecorded).2.1
  · intro r hr key hkey
    exact mem_owed_keys.mpr ⟨r, hr, hkey⟩
  · intro r hr hkey
    exact (state_outside hkey).2.1

theorem judged_deposits (hids : (deductions.map (·.id)).Nodup) (key : Period × String) :
    ((deductions.filter (keyOf · = some key)).map fun r =>
        ((judge deductions challans dueDateOf today).stateOf r.id).elim 0 (·.depositedPaise)).sum =
      if key.1 ∈ recorded challans then earliestTax deductions challans key.1 key.2 else 0 := by
  have hstate : ((deductions.filter (keyOf · = some key)).map fun r =>
      ((judge deductions challans dueDateOf today).stateOf r.id).elim 0 (·.depositedPaise)) =
      (deductions.filter (keyOf · = some key)).map fun r =>
        (stateFor deductions challans dueDateOf today r).depositedPaise := by
    apply List.map_congr_left
    intro r hr
    rw [state_of hids (List.mem_of_mem_filter hr)]
    rfl
  rw [hstate]
  split
  · exact deposited_typed hids ‹_›
  · rename_i hrecorded
    apply List.sum_eq_zero
    intro x hx
    obtain ⟨r, hr, rfl⟩ := List.mem_map.mp hx
    simp only [List.mem_filter, decide_eq_true_eq] at hr
    exact (state_unrecorded hr.2 hrecorded).2.2

/-- In every quarter with a challan, the part of the earliest tax that is typed one way is the tax so
typed, or what the challans so typed paid if that is less. -/
def TypedApart (deductions : List RegisterRow) (challans : List Challan) : Prop :=
  ∀ period ∈ recorded challans, ∀ group,
    earliestTax deductions challans period group =
      min (taxTyped deductions (period, group)) (paidTyped challans (period, group))

/-- The two answers agree on the deductions and challans whose sections are typed apart, and on no
others. -/
theorem deposit_answers_agree (hids : (deductions.map (·.id)).Nodup) :
    AnswersAgree deductions challans (judge deductions challans dueDateOf today)
      (position deductions challans) ↔ TypedApart deductions challans := by
  constructor
  · rintro ⟨hundeposited, -, hwithin⟩
    rw [judged_undeposited hids, position_undeposited] at hundeposited
    have hle : ∀ key, key.1 ∈ recorded challans →
        earliestTax deductions challans key.1 key.2 ≤ paidTyped challans key := by
      intro key hrecorded
      have := hwithin key
      rwa [judged_deposits hids, if_pos hrecorded] at this
    intro period hrecorded group
    have hbelow := @earliest_le _ _ hids (period, group) hrecorded
    have hpaid := hle (period, group) hrecorded
    by_contra hapart
    have howed : (period, group) ∈ owedKeys deductions := by
      by_contra hnot
      have htax : taxTyped deductions (period, group) = 0 := by
        unfold taxTyped
        rw [List.filter_eq_nil_iff.mpr]
        · rfl
        · intro r hr hkey
          exact hnot (mem_owed_keys.mpr ⟨r, hr, of_decide_eq_true hkey⟩)
      have hearly := @earliest_nonneg _ _ hids (period, group) hrecorded
      have hcapacity := @paid_typed_nonneg challans (period, group)
      simp only at hbelow hearly
      omega
    -- no section is short of less than its own shortfall, and this one is short of more
    refine absurd hundeposited (ne_of_gt (List.sum_lt_sum _ _ ?_ ⟨(period, group), howed, ?_⟩))
    · rintro ⟨period', group'⟩ -
      split
      · rename_i hrecorded'
        have hbelow' := @earliest_le _ _ hids (period', group') hrecorded'
        have hpaid' := hle (period', group') hrecorded'
        dsimp only at hbelow' hpaid' ⊢
        omega
      · exact le_rfl
    · dsimp only at hbelow hpaid ⊢
      rw [if_pos hrecorded, if_pos hrecorded]
      omega
  · intro h
    refine ⟨?_, judged_not_recorded hids, ?_⟩
    · rw [judged_undeposited hids, position_undeposited]
      apply congrArg
      apply List.map_congr_left
      rintro ⟨period, group⟩ -
      split
      · rename_i hrecorded
        rw [h period hrecorded group]
        omega
      · rfl
    · rintro ⟨period, group⟩
      rw [judged_deposits hids]
      split
      · rename_i hrecorded
        rw [h period hrecorded group]
        exact min_le_right _ _
      · exact paid_typed_nonneg _

/-- Two limbs of section 194J and a challan typed without one. -/
theorem deposit_answers_agree_limbs :
    let first : RegisterRow := ⟨"d1", "194J(A)", "2025-05-10", "b1", "", 1000, 0, 0⟩
    let second : RegisterRow := ⟨"d2", "194J(B)", "2025-06-02", "b2", "", 1000, 0, 0⟩
    let challan : Challan := ⟨"c1", "194J", "2025-26", "Q1", "2025-06-07", "00123", 1500, 0⟩
    AnswersAgree [first, second] [challan] (judge [first, second] [challan] none none)
      (position [first, second] [challan]) := by
  intro first second challan
  apply (deposit_answers_agree (by decide +kernel)).mpr
  have hrecorded : recorded [challan] = [("2025-26", "Q1")] := by decide +kernel
  intro period hperiod group
  rw [hrecorded, List.mem_singleton] at hperiod
  subst hperiod
  have hrow : keyOf first = some (("2025-26", "Q1"), "194J") := by decide +kernel
  have hrow' : keyOf second = some (("2025-26", "Q1"), "194J") := by decide +kernel
  have hchallan : challanKeyOf challan = some (("2025-26", "Q1"), "194J") := by decide +kernel
  by_cases hgroup : group = "194J"
  · subst hgroup
    decide +kernel
  · have htax : taxTyped [first, second] (("2025-26", "Q1"), group) = 0 := by
      simp [taxTyped, hrow, hrow', Ne.symm hgroup]
    have hids : ([first, second].map (·.id)).Nodup := by decide +kernel
    have hmem : ("2025-26", "Q1") ∈ recorded [challan] := by simp [hrecorded]
    have hbelow := @earliest_le _ _ hids (("2025-26", "Q1"), group) hmem
    have hnonneg := @earliest_nonneg _ _ hids (("2025-26", "Q1"), group) hmem
    have hpaid := @paid_typed_nonneg [challan] (("2025-26", "Q1"), group)
    dsimp only at hbelow hnonneg
    omega

/-- A space before the limb stays in the section the position nets by, and the states do not see it. -/
theorem deposit_answers_apart :
    let row : RegisterRow := ⟨"d1", "194J (B)", "2025-05-10", "b1", "", 1000, 0, 0⟩
    let challan : Challan := ⟨"c1", "194J", "2025-26", "Q1", "2025-06-07", "00123", 1000, 0⟩
    ¬ AnswersAgree [row] [challan] (judge [row] [challan] none none) (position [row] [challan]) := by
  intro row challan h
  have hjudged : ([row].map fun r => ((judge [row] [challan] none none).stateOf r.id).elim 0
      (·.short)).sum = 0 := by decide +kernel
  have hposition : (position [row] [challan]).undepositedPaise = 1000 := by decide +kernel
  have hagree := h.undeposited
  rw [hjudged, hposition] at hagree
  omega

end Caflow.Tds
