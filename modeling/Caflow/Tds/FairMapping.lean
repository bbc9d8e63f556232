import Caflow.Tds.ChallanMapping

set_option linter.all false

namespace Caflow.Tds
open Fifo Tally

def Gap.shortfallOf (sectionKey : String) : Gap → ℤ
  | .deductionsNotDeposited key shortfallPaise => if key = sectionKey then shortfallPaise else 0
  | .challanExceedsDeductions _ _ _ => 0

def Gap.surplusOf (sectionKey : String) : Gap → ℤ
  | .deductionsNotDeposited _ _ => 0
  | .challanExceedsDeductions key surplusPaise _ => if key = sectionKey then surplusPaise else 0

/-- The shortfall the mapping reports for a section. -/
def Mapping.shortfall (m : Mapping) (sectionKey : String) : ℤ :=
  (m.gaps.map (·.shortfallOf sectionKey)).sum

/-- The surplus the mapping reports for a section. -/
def Mapping.surplus (m : Mapping) (sectionKey : String) : ℤ :=
  (m.gaps.map (·.surplusOf sectionKey)).sum

/-- What the rows of a section drew from a challan. -/
def drawnFrom (rows : List (Deduction × Assignment)) (c : Challan) : ℤ :=
  tally (rows.flatMap (·.2.parts)) c

/-- What all the deductions drew from a challan. -/
def Mapping.drawn (m : Mapping) (c : Challan) : ℤ :=
  tally (m.byDeductionId.flatMap (·.2.parts)) c

variable {deductions deductions' : List Deduction} {challans challans' : List Challan}
  {sectionKey : String}

theorem sections_nodup : (sectionsOf deductions challans).Nodup := by
  unfold sectionsOf
  rw [(List.perm_insertionSort _ _).nodup_iff]
  exact List.nodup_dedup _

theorem mem_sections : sectionKey ∈ sectionsOf deductions challans ↔
    (∃ d ∈ deductions, parentOf d.sectionText = sectionKey) ∨
      ∃ c ∈ challans, parentOf c.sectionText = sectionKey := by
  unfold sectionsOf
  rw [(List.perm_insertionSort _ _).mem_iff, List.mem_dedup, List.mem_append, List.mem_map,
    List.mem_map]

theorem mem_group {d : Deduction} : d ∈ groupOf deductions sectionKey ↔
    d ∈ deductions ∧ parentOf d.sectionText = sectionKey := by
  unfold groupOf
  rw [(List.perm_insertionSort _ _).mem_iff]
  simp

theorem mem_pool {c : Challan} : c ∈ poolOf challans sectionKey ↔
    c ∈ challans ∧ parentOf c.sectionText = sectionKey := by
  unfold poolOf
  rw [(List.perm_insertionSort _ _).mem_iff]
  simp

theorem undeposited_nonneg : 0 ≤ undeposited (sectionRows deductions challans sectionKey) := by
  have hsplit := @undeposited_eq deductions challans sectionKey
  rw [rows_deposited, cover_sum (section_capacity_nonneg _ _) (needs_nonneg _)] at hsplit
  omega

theorem left_nonneg : Nonneg (sectionLeft deductions challans sectionKey) :=
  (fill_nonneg (capacities_nonneg _) _).2

/-- Every figure of a section is reported under that section alone. -/
theorem sum_gaps {f : Gap → ℤ} {x : String → ℤ} {keys : List String} (hkeys : keys.Nodup)
    (h : ∀ key, ((sectionGaps deductions challans key).map f).sum = if key = sectionKey then x key else 0)
    (hout : sectionKey ∉ keys → x sectionKey = 0) :
    ((keys.flatMap (sectionGaps deductions challans)).map f).sum = x sectionKey := by
  have hsum : ((keys.flatMap (sectionGaps deductions challans)).map f).sum =
      (keys.map fun key => if sectionKey = key then x sectionKey else 0).sum := by
    rw [List.map_flatMap, List.flatMap_def, List.sum_flatten, List.map_map]
    apply congrArg
    apply List.map_congr_left
    intro key _
    rw [Function.comp_apply, h key]
    by_cases hkey : key = sectionKey
    · simp [hkey]
    · simp [hkey, Ne.symm hkey]
  rw [hsum, sum_single hkeys]
  split
  · rfl
  · exact (hout ‹_›).symm

theorem shortfall_eq : (assign deductions challans).shortfall sectionKey =
    undeposited (sectionRows deductions challans sectionKey) := by
  apply sum_gaps (x := fun key => undeposited (sectionRows deductions challans key)) sections_nodup
  · intro key
    have := @undeposited_nonneg deductions challans key
    have hsurplus : ((if 0 < total (sectionLeft deductions challans key) then
        [Gap.challanExceedsDeductions key (total (sectionLeft deductions challans key))
          ((poolOf challans key).map (·.challanNo))] else []).map
            (Gap.shortfallOf sectionKey)).sum = 0 := by
      split <;> simp [Gap.shortfallOf]
    unfold sectionGaps
    simp only
    rw [List.map_append, List.sum_append, hsurplus, add_zero]
    by_cases hshort : 0 < undeposited (sectionRows deductions challans key)
    · simp [hshort, Gap.shortfallOf]
    · have hnil : undeposited (sectionRows deductions challans key) = 0 := by omega
      simp [hnil]
  · intro hout
    have hempty : groupOf deductions sectionKey = [] := by
      apply List.eq_nil_iff_forall_not_mem.mpr
      intro d hd
      obtain ⟨hmem, hsection⟩ := mem_group.mp hd
      exact hout (mem_sections.mpr (.inl ⟨d, hmem, hsection⟩))
    simp [undeposited, sectionRows, hempty]

theorem surplus_eq : (assign deductions challans).surplus sectionKey =
    total (sectionLeft deductions challans sectionKey) := by
  apply sum_gaps (x := fun key => total (sectionLeft deductions challans key)) sections_nodup
  · intro key
    have := (@left_nonneg deductions challans key).total
    have hshort : ((if 0 < undeposited (sectionRows deductions challans key) then
        [Gap.deductionsNotDeposited key (undeposited (sectionRows deductions challans key))]
          else []).map (Gap.surplusOf sectionKey)).sum = 0 := by
      split <;> simp [Gap.surplusOf]
    unfold sectionGaps
    simp only
    rw [List.map_append, List.sum_append, hshort, zero_add]
    by_cases hsurplus : 0 < total (sectionLeft deductions challans key)
    · simp [hsurplus, Gap.surplusOf]
    · have hnil : total (sectionLeft deductions challans key) = 0 := by omega
      simp [hnil]
  · intro hout
    have hnone : poolOf challans sectionKey = [] := by
      apply List.eq_nil_iff_forall_not_mem.mpr
      intro c hc
      obtain ⟨hmem, hsection⟩ := mem_pool.mp hc
      exact hout (mem_sections.mpr (.inr ⟨c, hmem, hsection⟩))
    have hempty : groupOf deductions sectionKey = [] := by
      apply List.eq_nil_iff_forall_not_mem.mpr
      intro d hd
      obtain ⟨hmem, hsection⟩ := mem_group.mp hd
      exact hout (mem_sections.mpr (.inl ⟨d, hmem, hsection⟩))
    simp [sectionLeft, hempty, hnone, fill, capacities]

theorem group_needs : ((groupOf deductions sectionKey).map (·.need)).sum =
    ((deductions.filter (parentOf ·.sectionText = sectionKey)).map (·.need)).sum :=
  ((List.perm_insertionSort _ _).map _).sum_eq

/-- Deposited and shortfall come to the tax of the section. -/
theorem deposited_and_shortfall :
    ((sectionRows deductions challans sectionKey).map (·.2.depositedPaise)).sum +
        (assign deductions challans).shortfall sectionKey =
      ((deductions.filter (parentOf ·.sectionText = sectionKey)).map (·.need)).sum := by
  rw [shortfall_eq, ← group_needs, ← @undeposited_eq _ challans]
  ring

theorem deposited_and_surplus :
    ((sectionRows deductions challans sectionKey).map (·.2.depositedPaise)).sum +
        (assign deductions challans).surplus sectionKey =
      sectionCapacity challans sectionKey := by
  rw [surplus_eq, rows_deposited, ← pool_capacity,
    ← fill_cover (capacities_nonneg _) (needs_nonneg _)]
  exact fill_rest (capacities_nonneg _) _

theorem tally_capacities (pool : List Challan) (c : Challan) :
    tally (capacities pool) c = pool.count c * c.capacity := by
  induction pool with
  | nil => simp [capacities]
  | cons c' pool ih =>
    have hcons : capacities (c' :: pool) = (c', c'.capacity) :: capacities pool := rfl
    rw [hcons, tally_cons, ih, List.count_cons]
    by_cases hc : c' = c
    · subst hc
      simp
      ring
    · simp [hc]

theorem pool_count (challans : List Challan) (c : Challan) :
    (poolOf challans sectionKey).count c =
      if parentOf c.sectionText = sectionKey then challans.count c else 0 := by
  unfold poolOf
  rw [(List.perm_insertionSort _ _).count_eq]
  split
  · exact List.count_filter (by simpa using ‹_›)
  · apply List.count_eq_zero_of_not_mem
    intro hmem
    simp only [List.mem_filter, decide_eq_true_eq] at hmem
    exact absurd hmem.2 ‹_›

/-- What a section drew from a challan and what it leaves of it. -/
theorem drawn_and_left (c : Challan) :
    drawnFrom (sectionRows deductions challans sectionKey) c +
        tally (sectionLeft deductions challans sectionKey) c =
      (if parentOf c.sectionText = sectionKey then challans.count c else 0 : ℕ) * c.capacity := by
  have hflat : (sectionRows deductions challans sectionKey).flatMap (·.2.parts) =
      ((sectionRows deductions challans sectionKey).map (·.2.parts)).flatten :=
    List.flatMap_def
  rw [drawnFrom, hflat, rows_parts, ← pool_count, ← tally_capacities]
  exact fill_conserves (capacities_nonneg _) _ c

theorem drawn_nonneg (c : Challan) :
    0 ≤ drawnFrom (sectionRows deductions challans sectionKey) c := by
  apply tally_nonneg
  intro p hp
  obtain ⟨row, hrow, hpart⟩ := List.mem_flatMap.mp hp
  have hparts : row.2.parts ∈ (fill ((groupOf deductions sectionKey).map (·.need))
      (capacities (poolOf challans sectionKey))).1 := by
    rw [← rows_parts]
    exact List.mem_map.mpr ⟨row, hrow, rfl⟩
  exact (fill_nonneg (capacities_nonneg _) _).1 _ hparts p hpart

/-- The deductions draw on a challan in its own section alone. -/
theorem drawn_eq (c : Challan) : (assign deductions challans).drawn c =
    drawnFrom (sectionRows deductions challans (parentOf c.sectionText)) c := by
  have helse : ∀ key, drawnFrom (sectionRows deductions challans key) c =
      if parentOf c.sectionText = key then
        drawnFrom (sectionRows deductions challans (parentOf c.sectionText)) c else 0 := by
    intro key
    split
    · rename_i hkey
      rw [hkey]
    · rename_i hkey
      have hnone := @drawn_and_left deductions challans key c
      have hdrawn := @drawn_nonneg deductions challans key c
      have hleft := tally_nonneg (@left_nonneg deductions challans key) c
      rw [if_neg hkey] at hnone
      simp only [Nat.cast_zero, zero_mul] at hnone
      omega
  have hsum : (assign deductions challans).drawn c =
      ((sectionsOf deductions challans).map fun key =>
        drawnFrom (sectionRows deductions challans key) c).sum := by
    unfold Mapping.drawn assign
    rw [List.flatMap_assoc, tally_flat_map]
    apply congrArg
    apply List.map_congr_left
    intro key _
    rw [drawnFrom, List.flatMap_map]
  rw [hsum, List.map_congr_left fun key _ => helse key, sum_single sections_nodup]
  split
  · rfl
  · rename_i hout
    have hempty : groupOf deductions (parentOf c.sectionText) = [] := by
      apply List.eq_nil_iff_forall_not_mem.mpr
      intro d hd
      obtain ⟨hmem, hsection⟩ := mem_group.mp hd
      exact hout (mem_sections.mpr (.inl ⟨d, hmem, hsection⟩))
    simp [drawnFrom, sectionRows, hempty]

/-- No challan pays more than it can. -/
theorem drawn_le (c : Challan) :
    (assign deductions challans).drawn c ≤ challans.count c * c.capacity := by
  have hsplit := @drawn_and_left deductions challans (parentOf c.sectionText) c
  rw [if_pos rfl] at hsplit
  rw [drawn_eq, ← hsplit]
  exact le_add_of_nonneg_right (tally_nonneg left_nonneg c)

/-- A deduction draws only when every earlier one of its section is covered in full. -/
theorem drawn_in_order {i j : ℕ} (hij : i < j) {earlier later : Deduction × Assignment}
    (hi : (sectionRows deductions challans sectionKey)[i]? = some earlier)
    (hj : (sectionRows deductions challans sectionKey)[j]? = some later)
    (hdrawn : 0 < later.2.depositedPaise) : earlier.2.depositedPaise = earlier.1.need := by
  have hcover : ∀ {n : ℕ} {row : Deduction × Assignment},
      (sectionRows deductions challans sectionKey)[n]? = some row →
      (cover (sectionCapacity challans sectionKey)
        ((groupOf deductions sectionKey).map (·.need)))[n]? = some row.2.depositedPaise := by
    intro n row hrow
    rw [← rows_deposited, List.getElem?_map, hrow]
    rfl
  have hneed := cover_in_order (section_capacity_nonneg _ _) (needs_nonneg _) hij (hcover hj) hdrawn
    (hcover hi)
  rw [← @rows_group _ challans, List.map_map, List.getElem?_map, hi] at hneed
  simpa using hneed.symm

end Caflow.Tds
