import Caflow.Tds.FairMapping

set_option linter.all false

namespace Caflow.Tds
open Fifo Tally

variable {deductions deductions' : List Deduction} {challans challans' : List Challan}
  {sectionKey : String}

/-- The assignments of the same deductions, none of them deposited less. -/
def NoLess : String × Assignment → String × Assignment → Prop := fun before after =>
  before.1 = after.1 ∧ before.2.depositedPaise ≤ after.2.depositedPaise

theorem lookup_no_less {before after : List (String × Assignment)}
    (h : List.Forall₂ NoLess before after) (id : String) :
    ((before.lookup id).getD ⟨none, 0, []⟩).depositedPaise ≤
      ((after.lookup id).getD ⟨none, 0, []⟩).depositedPaise := by
  induction h with
  | nil => exact le_rfl
  | @cons p q before after hpq _ ih =>
    obtain ⟨hid, hdeposited⟩ := hpq
    rw [List.lookup_cons, List.lookup_cons, ← hid]
    split
    · exact hdeposited
    · exact ih

theorem rows_no_less
    (h : sectionCapacity challans sectionKey ≤ sectionCapacity challans' sectionKey) :
    List.Forall₂ NoLess
      ((sectionRows deductions challans sectionKey).map fun row => (row.1.id, row.2))
      ((sectionRows deductions challans' sectionKey).map fun row => (row.1.id, row.2)) := by
  have hlen : ∀ {challans : List Challan}, (sectionRows deductions challans sectionKey).length =
      (groupOf deductions sectionKey).length := by
    intro challans
    rw [← @rows_group _ challans, List.length_map]
  apply List.forall₂_iff_get.mpr
  refine ⟨by simp only [List.length_map, hlen], ?_⟩
  intro i hi hi'
  have hat : ∀ {challans : List Challan} (hlt : i < (sectionRows deductions challans sectionKey).length),
      (groupOf deductions sectionKey)[i]? = some (sectionRows deductions challans sectionKey)[i].1 ∧
      (cover (sectionCapacity challans sectionKey)
        ((groupOf deductions sectionKey).map (·.need)))[i]? =
          some (sectionRows deductions challans sectionKey)[i].2.depositedPaise := by
    intro challans hlt
    constructor
    · rw [← @rows_group _ challans, List.getElem?_map, List.getElem?_eq_getElem hlt]
      rfl
    · rw [← rows_deposited, List.getElem?_map, List.getElem?_eq_getElem hlt]
      rfl
  rw [List.length_map] at hi hi'
  obtain ⟨hrow, hbefore⟩ := hat hi
  obtain ⟨hrow', hafter⟩ := hat hi'
  simp only [List.get_eq_getElem, List.getElem_map]
  constructor
  · rw [hrow] at hrow'
    exact congrArg (·.id) (Option.some.inj hrow')
  · exact cover_mono h (section_capacity_nonneg _ _) (needs_nonneg _) hbefore hafter

/-- A section without deductions assigns nothing. -/
theorem rows_empty (h : sectionKey ∉ sectionsOf deductions []) :
    sectionRows deductions challans sectionKey = [] := by
  have hempty : groupOf deductions sectionKey = [] := by
    apply List.eq_nil_iff_forall_not_mem.mpr
    intro d hd
    obtain ⟨hmem, hsection⟩ := mem_group.mp hd
    exact h (mem_sections.mpr (.inl ⟨d, hmem, hsection⟩))
  simp [sectionRows, hempty]

theorem sections_filter : (sectionsOf deductions challans).filter (· ∈ sectionsOf deductions []) =
    sectionsOf deductions [] := by
  have hsorted : ∀ {challans : List Challan},
      (sectionsOf deductions challans).Pairwise (· ≤ ·) := by
    intro challans
    exact List.pairwise_insertionSort _ _
  refine List.Perm.eq_of_pairwise (fun a b _ _ => le_antisymm) (hsorted.filter _) hsorted ?_
  apply (List.perm_ext_iff_of_nodup (sections_nodup.filter _) sections_nodup).mpr
  intro key
  simp only [List.mem_filter, decide_eq_true_eq, and_iff_right_iff_imp]
  intro hkey
  obtain ⟨d, hd, hsection⟩ | ⟨c, hc, -⟩ := mem_sections.mp hkey
  · exact mem_sections.mpr (.inl ⟨d, hd, hsection⟩)
  · cases hc

theorem assignments_eq : (assign deductions challans).byDeductionId =
    (sectionsOf deductions []).flatMap fun key =>
      (sectionRows deductions challans key).map fun row => (row.1.id, row.2) := by
  have hdrop : ∀ keys : List String,
      (keys.flatMap fun key => (sectionRows deductions challans key).map fun row => (row.1.id, row.2)) =
        (keys.filter (· ∈ sectionsOf deductions [])).flatMap fun key =>
          (sectionRows deductions challans key).map fun row => (row.1.id, row.2) := by
    intro keys
    induction keys with
    | nil => rfl
    | cons key keys ih =>
      rw [List.flatMap_cons, ih, List.filter_cons]
      by_cases hkey : key ∈ sectionsOf deductions []
      · simp [hkey]
      · simp [hkey, rows_empty hkey]
  unfold assign
  simp only
  rw [hdrop, sections_filter]

/-- Challans that can pay no less in any section leave no deduction deposited less. -/
theorem deposit_mono
    (h : ∀ key, sectionCapacity challans key ≤ sectionCapacity challans' key) (id : String) :
    ((assign deductions challans).forDeduction id).depositedPaise ≤
      ((assign deductions challans').forDeduction id).depositedPaise := by
  have hflat : ∀ keys : List String, List.Forall₂ NoLess
      (keys.flatMap fun key =>
        (sectionRows deductions challans key).map fun row => (row.1.id, row.2))
      (keys.flatMap fun key =>
        (sectionRows deductions challans' key).map fun row => (row.1.id, row.2)) := by
    intro keys
    induction keys with
    | nil => exact .nil
    | cons key keys ih =>
      rw [List.flatMap_cons, List.flatMap_cons]
      exact List.rel_append (rows_no_less (h key)) ih
  unfold Mapping.forDeduction
  rw [assignments_eq, assignments_eq]
  exact lookup_no_less (List.rel_reverse (hflat _)) id

theorem capacity_added (before after : List Challan) (c : Challan) (key : String) :
    sectionCapacity (before ++ after) key ≤ sectionCapacity (before ++ c :: after) key := by
  have hc : 0 ≤ c.capacity := le_max_left _ _
  unfold sectionCapacity
  simp only [List.filter_append, List.map_append, List.sum_append, List.filter_cons]
  split
  · simp only [List.map_cons, List.sum_cons]
    omega
  · exact le_rfl

theorem capacity_enlarged (before after : List Challan) {c : Challan} {tdsPaise : ℤ}
    (h : c.tdsPaise ≤ tdsPaise) (key : String) :
    sectionCapacity (before ++ c :: after) key ≤
      sectionCapacity (before ++ { c with tdsPaise := tdsPaise } :: after) key := by
  unfold sectionCapacity
  simp only [List.filter_append, List.map_append, List.sum_append, List.filter_cons]
  split
  · have hc : c.capacity ≤ Challan.capacity { c with tdsPaise := tdsPaise } :=
      max_le_max le_rfl h
    simp only [List.map_cons, List.sum_cons]
    omega
  · exact le_rfl

/-- Rows that come in another order are one list once sorted, where no sort key is tied. -/
theorem group_perm (h : deductions.Perm deductions')
    (hkeys : ((deductions.filter (parentOf ·.sectionText = sectionKey)).map deductionKey).Nodup) :
    groupOf deductions sectionKey = groupOf deductions' sectionKey := by
  unfold groupOf
  have hrows := h.filter (parentOf ·.sectionText = sectionKey)
  refine @SortByKey.eq_of_keys _ _ deductionKey _ _ ?_ (SortByKey.sorted_keys hrows) ?_
  · exact (List.perm_insertionSort _ _).trans (hrows.trans (List.perm_insertionSort _ _).symm)
  · exact (((List.perm_insertionSort _ _).map deductionKey).nodup_iff).mpr hkeys

theorem pool_perm (h : challans.Perm challans')
    (hkeys : ((challans.filter (parentOf ·.sectionText = sectionKey)).map challanKey).Nodup) :
    poolOf challans sectionKey = poolOf challans' sectionKey := by
  unfold poolOf
  have hrows := h.filter (parentOf ·.sectionText = sectionKey)
  refine @SortByKey.eq_of_keys _ _ challanKey _ _ ?_ (SortByKey.sorted_keys hrows) ?_
  · exact (List.perm_insertionSort _ _).trans (hrows.trans (List.perm_insertionSort _ _).symm)
  · exact (((List.perm_insertionSort _ _).map challanKey).nodup_iff).mpr hkeys

theorem sections_perm (h : deductions.Perm deductions') (h' : challans.Perm challans') :
    sectionsOf deductions challans = sectionsOf deductions' challans' := by
  refine List.Perm.eq_of_pairwise (fun a b _ _ => le_antisymm)
    (List.pairwise_insertionSort _ _) (List.pairwise_insertionSort _ _) ?_
  apply (List.perm_ext_iff_of_nodup sections_nodup sections_nodup).mpr
  intro key
  rw [mem_sections, mem_sections]
  simp only [h.mem_iff, h'.mem_iff]

theorem assign_perm (h : deductions.Perm deductions') (h' : challans.Perm challans')
    (hkeys : ∀ key,
      ((deductions.filter (parentOf ·.sectionText = key)).map deductionKey).Nodup)
    (hkeys' : ∀ key, ((challans.filter (parentOf ·.sectionText = key)).map challanKey).Nodup) :
    assign deductions challans = assign deductions' challans' := by
  have hrows : sectionRows deductions challans = sectionRows deductions' challans' := by
    funext key
    unfold sectionRows
    rw [group_perm h (hkeys key), pool_perm h' (hkeys' key)]
  have hgaps : sectionGaps deductions challans = sectionGaps deductions' challans' := by
    funext key
    unfold sectionGaps sectionLeft
    rw [hrows, group_perm h (hkeys key), pool_perm h' (hkeys' key)]
  unfold assign
  rw [sections_perm h h', hrows, hgaps]

theorem lookup_row {β : Type*} {rows : List (String × β)} (h : (rows.map Prod.fst).Nodup)
    {row : String × β} (hrow : row ∈ rows) : rows.lookup row.1 = some row.2 := by
  induction rows with
  | nil => cases hrow
  | cons first rows ih =>
    obtain ⟨hfirst, hrest⟩ := List.nodup_cons.mp (List.map_cons ▸ h)
    rw [List.lookup_cons]
    rcases List.mem_cons.mp hrow with rfl | hlater
    · simp
    · have hne : row.1 ≠ first.1 := by
        intro he
        exact hfirst (he ▸ List.mem_map.mpr ⟨row, hlater, rfl⟩)
      rw [beq_false_of_ne hne]
      exact ih hrest hlater

theorem groups_perm : ((sectionsOf deductions challans).flatMap (groupOf deductions)).Perm
    deductions := by
  have hsorted : ((sectionsOf deductions challans).flatMap (groupOf deductions)).Perm
      ((sectionsOf deductions challans).flatMap fun key =>
        deductions.filter (parentOf ·.sectionText = key)) :=
    List.Perm.flatMap_left _ fun key _ => List.perm_insertionSort _ _
  have hcover : ∀ d ∈ deductions, parentOf d.sectionText ∈ sectionsOf deductions challans := by
    intro d hd
    exact mem_sections.mpr (.inl ⟨d, hd, rfl⟩)
  exact hsorted.trans
    (share_out sections_nodup (fun d : Deduction => parentOf d.sectionText) hcover)

theorem assignment_ids : ((assign deductions challans).byDeductionId.map Prod.fst).Perm
    (deductions.map (·.id)) := by
  have heq : (assign deductions challans).byDeductionId.map Prod.fst =
      ((sectionsOf deductions challans).flatMap (groupOf deductions)).map (·.id) := by
    unfold assign
    rw [List.map_flatMap, List.map_flatMap]
    congr 1
    funext key
    rw [← @rows_group _ challans, List.map_map, List.map_map]
    rfl
  rw [heq]
  exact groups_perm.map _

/-- Deductions of distinct ids each read their own row. -/
theorem deduction_row (h : (deductions.map (·.id)).Nodup) {row : Deduction × Assignment}
    (hrow : row ∈ sectionRows deductions challans sectionKey) :
    (assign deductions challans).forDeduction row.1.id = row.2 := by
  have hmem : (row.1.id, row.2) ∈ (assign deductions challans).byDeductionId := by
    have hgroup : row.1 ∈ groupOf deductions sectionKey := by
      rw [← @rows_group _ challans]
      exact List.mem_map.mpr ⟨row, hrow, rfl⟩
    obtain ⟨hd, hsection⟩ := mem_group.mp hgroup
    refine List.mem_flatMap.mpr ⟨sectionKey, mem_sections.mpr (.inl ⟨_, hd, hsection⟩), ?_⟩
    exact List.mem_map.mpr ⟨row, hrow, rfl⟩
  have hlookup : (assign deductions challans).byDeductionId.reverse.lookup (row.1.id, row.2).1 =
      some (row.1.id, row.2).2 := by
    apply lookup_row
    · rw [List.map_reverse, List.nodup_reverse, assignment_ids.nodup_iff]
      exact h
    · exact List.mem_reverse.mpr hmem
  unfold Mapping.forDeduction
  simp only at hlookup
  rw [hlookup]
  rfl

/-- Nothing is assigned to an id that no deduction has. -/
theorem no_deduction {id : String} (h : id ∉ deductions.map (·.id)) :
    (assign deductions challans).forDeduction id = ⟨none, 0, []⟩ := by
  have hlookup : (assign deductions challans).byDeductionId.reverse.lookup id = none := by
    apply List.lookup_eq_none_iff.mpr
    intro row hrow
    have hid : row.1 ∈ deductions.map (·.id) :=
      assignment_ids.mem_iff.mp (List.mem_map.mpr ⟨row, List.mem_reverse.mp hrow, rfl⟩)
    simp only [bne_iff_ne, ne_eq]
    rintro rfl
    exact h hid
  unfold Mapping.forDeduction
  rw [hlookup]
  rfl

/-- The deductions of a section are deposited first in first out from all its challans. -/
theorem deposits_cover (h : (deductions.map (·.id)).Nodup) :
    ((groupOf deductions sectionKey).map fun d =>
        ((assign deductions challans).forDeduction d.id).depositedPaise) =
      cover (sectionCapacity challans sectionKey)
        ((groupOf deductions sectionKey).map (·.need)) := by
  rw [← rows_deposited, ← @rows_group _ challans, List.map_map]
  apply List.map_congr_left
  intro row hrow
  rw [Function.comp_apply, deduction_row h hrow]

/-- Deposits, shortfalls and surpluses account for every paisa, the earliest deductions are covered
first, more challans deposit no deduction less, and the order the rows come in does not matter. -/
theorem mapping_exact_and_fair (deductions : List Deduction) (challans : List Challan) :
    (∀ sectionKey,
      ((sectionRows deductions challans sectionKey).map Prod.fst).Perm
        (deductions.filter (parentOf ·.sectionText = sectionKey)) ∧
      ((sectionRows deductions challans sectionKey).map (·.2.depositedPaise)).sum +
          (assign deductions challans).shortfall sectionKey =
        ((deductions.filter (parentOf ·.sectionText = sectionKey)).map (·.need)).sum ∧
      ((sectionRows deductions challans sectionKey).map (·.2.depositedPaise)).sum +
          (assign deductions challans).surplus sectionKey =
        ((challans.filter (parentOf ·.sectionText = sectionKey)).map (·.capacity)).sum ∧
      ∀ (i j : ℕ) (earlier later : Deduction × Assignment), i < j →
        (sectionRows deductions challans sectionKey)[i]? = some earlier →
        (sectionRows deductions challans sectionKey)[j]? = some later →
        0 < later.2.depositedPaise → earlier.2.depositedPaise = earlier.1.need) ∧
    ((deductions.map (·.id)).Nodup →
      ∀ sectionKey, ∀ row ∈ sectionRows deductions challans sectionKey,
        (assign deductions challans).forDeduction row.1.id = row.2) ∧
    (∀ c, (assign deductions challans).drawn c ≤ challans.count c * c.capacity ∧
      (assign deductions challans).drawn c +
          tally (sectionLeft deductions challans (parentOf c.sectionText)) c =
        challans.count c * c.capacity) ∧
    (∀ before after c id, challans = before ++ after →
      ((assign deductions challans).forDeduction id).depositedPaise ≤
        ((assign deductions (before ++ c :: after)).forDeduction id).depositedPaise) ∧
    (∀ before after c tdsPaise id, challans = before ++ c :: after → c.tdsPaise ≤ tdsPaise →
      ((assign deductions challans).forDeduction id).depositedPaise ≤
        ((assign deductions (before ++ { c with tdsPaise := tdsPaise } :: after)).forDeduction
          id).depositedPaise) ∧
    ∀ deductions' challans', deductions.Perm deductions' → challans.Perm challans' →
      (∀ key, ((deductions.filter (parentOf ·.sectionText = key)).map deductionKey).Nodup) →
      (∀ key, ((challans.filter (parentOf ·.sectionText = key)).map challanKey).Nodup) →
      assign deductions challans = assign deductions' challans' := by
  refine ⟨fun sectionKey => ⟨?_, deposited_and_shortfall, deposited_and_surplus, ?_⟩, ?_, ?_, ?_,
    ?_, ?_⟩
  · rw [rows_group]
    exact List.perm_insertionSort _ _
  · intro i j earlier later hij hi hj hdrawn
    exact drawn_in_order hij hi hj hdrawn
  · intro hids sectionKey row hrow
    exact deduction_row hids hrow
  · intro c
    have hsplit := @drawn_and_left deductions challans (parentOf c.sectionText) c
    rw [if_pos rfl, ← drawn_eq] at hsplit
    exact ⟨drawn_le c, hsplit⟩
  · rintro before after c id rfl
    exact deposit_mono (capacity_added before after c) id
  · rintro before after c tdsPaise id rfl hmore
    exact deposit_mono (capacity_enlarged before after hmore) id
  · intro deductions' challans' h h' hkeys hkeys'
    exact assign_perm h h' hkeys hkeys'

/-- Two deductions of section 194J under two labels, a challan that covers one and a half of them. -/
theorem mapping_exact_and_fair_short :
    let first : Deduction := ⟨"d1", "194J", "2025-04-10", "b1", 1000⟩
    let second : Deduction := ⟨"d2", "194j(b)", "2025-04-12", "b2", 1000⟩
    let challan : Challan := ⟨"c1", "194J", "2025-26", "Q1", "2025-05-07", "00123", 1500, 0⟩
    ((assign [first, second] [challan]).forDeduction "d2").depositedPaise = 500 ∧
    (assign [first, second] [challan]).shortfall "194J" = 500 ∧
    (assign [first, second] [challan]).drawn challan = 1500 ∧
    assign [first, second] [challan] = assign [second, first] [challan] := by
  intro first second challan
  obtain ⟨hsections, -, hdrawn, -, -, horder⟩ := mapping_exact_and_fair [first, second] [challan]
  obtain ⟨-, hshort, -, -⟩ := hsections "194J"
  refine ⟨by decide +kernel, ?_, ?_, ?_⟩
  · have hdeposited : ((sectionRows [first, second] [challan] "194J").map
        (·.2.depositedPaise)).sum = 1500 := by decide +kernel
    have htax : (([first, second].filter (parentOf ·.sectionText = "194J")).map
        (·.need)).sum = 2000 := by decide +kernel
    omega
  · obtain ⟨-, hsplit⟩ := hdrawn challan
    have hleft : tally (sectionLeft [first, second] [challan] (parentOf challan.sectionText))
        challan = 0 := by decide +kernel
    have hcapacity : ([challan].count challan : ℤ) * challan.capacity = 1500 := by decide +kernel
    omega
  · refine horder [second, first] [challan] (List.Perm.swap _ _ _) (List.Perm.refl _) ?_ ?_
    · intro key
      have hdistinct : ([first, second].map deductionKey).Nodup := by decide +kernel
      exact hdistinct.sublist (List.filter_sublist.map _)
    · intro key
      have hdistinct : ([challan].map challanKey).Nodup := by decide +kernel
      exact hdistinct.sublist (List.filter_sublist.map _)

end Caflow.Tds
