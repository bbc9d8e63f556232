import Caflow.IncomeTax.LossRecord

set_option linter.all false

namespace Caflow.IncomeTax.LossUtilisation
open Text OnePerGroup

/-- A return that is acknowledged: where another stands over it, nothing is stored. -/
def acknowledged (row : LossRow) (filingId financialYear : String) (usedPaise : Option ℤ)
    (kind : Kind) : LossRow :=
  match step row (.filed filingId financialYear usedPaise kind.text) with
  | .ok row' => row'
  | .error _ => row

/-- What columns hold of a filing's use. -/
def storedFor (filingId : String) (columns : Columns) : ℤ :=
  used (columns.utilisations.filter fun x => x.1 = filingId)

/-- The entries of the years other than one. -/
def ofOtherYears (row : LossRow) (year : String) : Entries :=
  (entriesOf row).filter fun x => yearOfEntry x ≠ year

/-- What is left of the loss for a year. -/
def roomFor (row : LossRow) (year : String) : ℤ :=
  paise row.originalAmountPaise - baselinePaise row - used (ofOtherYears row year)

/-- What a filing leaves on a record whose other years have the entries given. -/
def filedEntries (others : Entries) (filingId year : String) (use : ℤ) (kind : Kind) : Entries :=
  others ++ if use > 0 ∨ kind = .revised then [(filingId, ⟨year, use, kind⟩)] else []

/-- A filing that belongs to a year and is no hand entry. -/
structure Belongs (yearOf : String → String) (filingId financialYear : String) : Prop where
  named : strip financialYear ≠ ""
  year : yearOf filingId = strip financialYear
  notByHand : ∀ y, filingId ≠ manualEntryId y

/-- No entry of nothing but a revised return's. -/
def Positive (row : LossRow) : Prop :=
  ∀ x ∈ entriesOf row, x.2.returnType ≠ .revised → 0 < x.2.amountPaise

@[simp] theorem kind_of_text (kind : Kind) : kindOf kind.text = some kind := by
  cases kind <;> decide +kernel

theorem Sound.room_nonneg (h : Sound yearOf row) (year : String) : 0 ≤ roomFor row year := by
  have hbase := h.baseline
  have hwithin := h.within
  have hothers : used (ofOtherYears row year) ≤ used (entriesOf row) :=
    sum_filter_le _ _ fun x hx => (entries_normal hx).nonneg
  unfold roomFor
  omega

/-- What a filing that no other stands over writes. -/
theorem Sound.after_filing_eq (h : Sound yearOf row)
    (hfiling : Belongs yearOf filingId financialYear) (usedPaise : Option ℤ) (kind : Kind)
    (hover : ∀ x ∈ entriesOf row, x.1 ≠ filingId → x.2.financialYear = strip financialYear →
      x.2.returnType.rank ≤ kind.rank) :
    afterFiling row filingId financialYear usedPaise kind.text =
      .ok (totals row (filedEntries (ofOtherYears row (strip financialYear)) filingId
        (strip financialYear) (min (paise usedPaise) (roomFor row (strip financialYear))) kind)) := by
  have hothers : ((entriesOf row).filter fun x =>
        x.2.financialYear ≠ strip financialYear ∨ x.1 = filingId).filter
        (fun x => x.1 ≠ filingId) = ofOtherYears row (strip financialYear) :=
    h.filing_others hfiling.year hfiling.notByHand
  have hnone : (entriesOf row).find? (fun x => decide (x.1 ≠ filingId ∧
      x.2.financialYear = strip financialYear ∧ kind.rank < x.2.returnType.rank)) = none := by
    rw [List.find?_eq_none]
    intro x hx hstands
    obtain ⟨hkey, hfy, hrank⟩ := of_decide_eq_true hstands
    exact absurd (hover x hx hkey hfy) (not_le.mpr hrank)
  have hroom : max 0 (paise row.originalAmountPaise - baselinePaise row -
      used (ofOtherYears row (strip financialYear))) = roomFor row (strip financialYear) :=
    max_eq_right (h.room_nonneg _)
  unfold afterFiling
  simp only [kind_of_text, Option.getD_some, hnone, hothers, hroom, totals, filedEntries]
  split_ifs <;> simp

theorem Rewrites.others_again (hwrites : Rewrites yearOf row year columns) :
    ofOtherYears (row.store columns) year = ofOtherYears row year := by
  obtain ⟨new, hentries, hnew⟩ := hwrites.entries
  unfold ofOtherYears
  rw [entries_of_store row columns hwrites.normal, hentries,
    filter_replaced fun x hx => (hnew x hx).2.2]

/-- A year finds the room it had before its own use was written. -/
theorem Rewrites.room_again (hwrites : Rewrites yearOf row year columns) :
    roomFor (row.store columns) year = roomFor row year := by
  unfold roomFor
  rw [hwrites.others_again, hwrites.stored_baseline]
  rfl

theorem Rewrites.totals_again (hwrites : Rewrites yearOf row year columns) (entries : Entries) :
    totals (row.store columns) entries = totals row entries := by
  unfold totals
  rw [hwrites.stored_baseline]
  rfl

theorem acknowledged_of_ok
    (h : afterFiling row filingId financialYear usedPaise kind.text = .ok columns) :
    acknowledged row filingId financialYear usedPaise kind = row.store columns := by
  simp [acknowledged, step, Step.columns, h, bind, Except.bind, pure, Except.pure]

theorem acknowledged_of_error
    (h : afterFiling row filingId financialYear usedPaise kind.text = .error refusal) :
    acknowledged row filingId financialYear usedPaise kind = row := by
  simp [acknowledged, step, Step.columns, h, bind, Except.bind]

theorem kind_text_manual {kind : Kind} (h : kind ≠ .manual) : kind.text ≠ "manual" := by
  cases kind with
  | manual => contradiction
  | original | revised => decide +kernel

theorem Belongs.rewrites {kind : Kind} (hfiling : Belongs yearOf filingId financialYear)
    (hsound : Sound yearOf row) (hkind : kind ≠ .manual)
    (h : afterFiling row filingId financialYear usedPaise kind.text = .ok columns) :
    Rewrites yearOf row (strip financialYear) columns :=
  after_filing_rewrites hsound hfiling.named hfiling.year hfiling.notByHand
    (kind_text_manual hkind) h

/-- No kind stands over a revised return. -/
theorem rank_le_revised (kind : Kind) : kind.rank ≤ Kind.revised.rank := by
  cases kind <;> decide

/-- What a revised return writes, whatever holds its year. -/
theorem Sound.after_revised (h : Sound yearOf row)
    (hfiling : Belongs yearOf filingId financialYear) (usedPaise : Option ℤ) :
    afterFiling row filingId financialYear usedPaise Kind.revised.text =
      .ok (totals row (ofOtherYears row (strip financialYear) ++ [(filingId,
        ⟨strip financialYear, min (paise usedPaise) (roomFor row (strip financialYear)),
          .revised⟩)])) := by
  rw [h.after_filing_eq hfiling usedPaise .revised fun x _ _ _ => rank_le_revised _]
  simp [filedEntries]

/-- Acknowledged in either order, an original and a revised return of one year leave one record. -/
theorem Sound.acknowledged_comm (h : Sound yearOf row)
    (horiginal : Belongs yearOf originalId financialYear)
    (hrevised : Belongs yearOf revisedId financialYear) (hne : originalId ≠ revisedId)
    (originalUse revisedUse : Option ℤ) :
    acknowledged (acknowledged row originalId financialYear originalUse .original)
        revisedId financialYear revisedUse .revised =
      acknowledged row revisedId financialYear revisedUse .revised ∧
    acknowledged (acknowledged row revisedId financialYear revisedUse .revised)
        originalId financialYear originalUse .original =
      acknowledged row revisedId financialYear revisedUse .revised := by
  have hstored := h.after_revised hrevised revisedUse
  constructor
  · cases hfirst : afterFiling row originalId financialYear originalUse Kind.original.text with
    | error refusal => rw [acknowledged_of_error hfirst]
    | ok columns =>
      have hwrites := horiginal.rewrites h (by decide) hfirst
      have hsecond := (hwrites.stored h).after_revised hrevised revisedUse
      rw [acknowledged_of_ok hfirst, acknowledged_of_ok hsecond, acknowledged_of_ok hstored,
        hwrites.totals_again, hwrites.others_again, hwrites.room_again]
      rfl
  · have hwrites := hrevised.rewrites h (by decide) hstored
    have hread := entries_of_store row _ hwrites.normal
    rw [acknowledged_of_ok hstored]
    -- the revised return's entry is of the year and stands over the original
    have hstands : ∃ refusal, afterFiling (row.store (totals row
        (ofOtherYears row (strip financialYear) ++ [(revisedId, ⟨strip financialYear,
          min (paise revisedUse) (roomFor row (strip financialYear)), .revised⟩)])))
        originalId financialYear originalUse Kind.original.text = .error refusal := by
      unfold afterFiling
      dsimp only
      rw [hread]
      cases hfind : (totals row (ofOtherYears row (strip financialYear) ++ [(revisedId,
          ⟨strip financialYear, min (paise revisedUse) (roomFor row (strip financialYear)),
            .revised⟩)])).utilisations.find? (fun x => decide (x.1 ≠ originalId ∧
          x.2.financialYear = strip financialYear ∧
          ((kindOf Kind.original.text).getD .original).rank < x.2.returnType.rank)) with
      | some x => exact ⟨_, rfl⟩
      | none =>
        have hnone := List.find?_eq_none.mp hfind _ (List.mem_append_right _
          (List.mem_singleton.mpr rfl))
        simp [hne.symm, Kind.rank] at hnone
    obtain ⟨refusal, hrefused⟩ := hstands
    exact acknowledged_of_error hrefused

theorem Sound.available_eq_room (h : Sound yearOf row) (financialYear : String) :
    availableForYearPaise row financialYear = roomFor row (strip financialYear) :=
  h.available financialYear

/-- Where a filing is accepted, no return stands over it. -/
theorem not_superseded
    (h : afterFiling row filingId financialYear usedPaise (Kind.text kind) = .ok columns) :
    ∀ x ∈ entriesOf row, x.1 ≠ filingId → x.2.financialYear = strip financialYear →
      x.2.returnType.rank ≤ kind.rank := by
  intro x hx hkey hfy
  by_contra hrank
  unfold afterFiling at h
  dsimp only at h
  split at h
  · cases h
  · rename_i hnone
    have hstands := List.find?_eq_none.mp hnone x hx
    simp only [kind_of_text, Option.getD_some, decide_eq_true_eq, not_and] at hstands
    exact hstands hkey hfy (not_le.mp hrank)

theorem stored_for_filed (hothers : ∀ x ∈ others, x.1 ≠ filingId) (huse : 0 ≤ use) :
    used ((filedEntries others filingId year use kind).filter fun x => x.1 = filingId) = use := by
  have hnone : others.filter (fun x => x.1 = filingId) = [] := by
    rw [List.filter_eq_nil_iff]
    simpa using hothers
  unfold filedEntries
  rw [List.filter_append, hnone, List.nil_append]
  split_ifs with hkept
  · simp [used]
  · have : use = 0 := by
      rw [not_or] at hkept
      omega
    simp [used, this]

/-- What is stored of a filing's use: as much of it as the year is offered. -/
theorem Sound.stored_for (h : Sound yearOf row) (hfiling : Belongs yearOf filingId financialYear)
    (hok : afterFiling row filingId financialYear usedPaise (Kind.text kind) = .ok columns) :
    storedFor filingId columns =
      min (paise usedPaise) (availableForYearPaise row financialYear) := by
  have heq := h.after_filing_eq hfiling usedPaise kind (not_superseded hok)
  cases Except.ok.inj (hok.symm.trans heq)
  rw [h.available_eq_room]
  refine stored_for_filed (fun x hx hkey => ?_) (le_min (paise_nonneg _) (h.room_nonneg _))
  obtain ⟨hx, hyear⟩ := List.mem_filter.mp hx
  have hkeyed := h.keyed x hx
  unfold Keyed at hkeyed
  split at hkeyed
  · exact hfiling.notByHand _ (hkey.symm.trans hkeyed)
  · have hother : yearOfEntry x ≠ strip financialYear := by simpa using hyear
    exact hother (by rw [yearOfEntry, ← hkeyed.1, hkey, hfiling.year])

/-- What a year is offered is the most that one of its returns can store. -/
theorem Sound.available_greatest (h : Sound yearOf row)
    (hfiling : Belongs yearOf filingId financialYear) :
    IsGreatest { amount | ∃ usedPaise kind columns, kind ≠ Kind.manual ∧
        afterFiling row filingId financialYear usedPaise (Kind.text kind) = .ok columns ∧
        columns.utilizedAmountPaise ≤ paise row.originalAmountPaise ∧
        storedFor filingId columns = amount }
      (availableForYearPaise row financialYear) := by
  have hroom : 0 ≤ availableForYearPaise row financialYear := by
    rw [h.available_eq_room]
    exact h.room_nonneg _
  constructor
  · have hok := h.after_revised hfiling (some (availableForYearPaise row financialYear))
    refine ⟨_, .revised, _, by decide, hok, (hfiling.rewrites h (by decide) hok).within, ?_⟩
    rw [h.stored_for hfiling hok, paise_some hroom, min_self]
  · rintro amount ⟨usedPaise, kind, columns, -, hok, -, rfl⟩
    rw [h.stored_for hfiling hok]
    exact min_le_right _ _

/-- A year's one entry and the others are the whole record. -/
theorem Sound.entries_perm (h : Sound yearOf row) (hx : x ∈ entriesOf row) :
    (ofOtherYears row (yearOfEntry x) ++ [x]).Perm (entriesOf row) := by
  have hheld : (entriesOf row).filter (fun z => yearOfEntry z = yearOfEntry x) = [x] := by
    have hlen := held_for_length h.years (yearOfEntry x)
    have hmem : x ∈ (entriesOf row).filter (fun z => yearOfEntry z = yearOfEntry x) :=
      List.mem_filter.mpr ⟨hx, by simp⟩
    obtain ⟨z, hz⟩ := List.length_eq_one_iff.mp
      (le_antisymm hlen (List.length_pos_of_mem hmem))
    unfold heldFor at hz
    rw [hz] at hmem ⊢
    rw [List.mem_singleton.mp hmem]
  have hperm := List.filter_append_perm (fun z => decide (yearOfEntry z ≠ yearOfEntry x))
    (entriesOf row)
  have hrest : (entriesOf row).filter (fun z => !decide (yearOfEntry z ≠ yearOfEntry x)) = [x] := by
    rw [← hheld]
    exact List.filter_congr fun z _ => by simp
  rwa [hrest] at hperm

theorem Sound.entry_belongs (h : Sound yearOf row) (hx : x ∈ entriesOf row)
    (hkind : x.2.returnType ≠ .manual) : Belongs yearOf x.1 x.2.financialYear := by
  have hnormal := entries_normal hx
  have hkeyed := h.keyed x hx
  unfold Keyed at hkeyed
  rw [if_neg hkind] at hkeyed
  refine ⟨?_, ?_, hkeyed.2⟩
  · rw [hnormal.stripped]
    exact hnormal.named
  · rw [hnormal.stripped]
    exact hkeyed.1

/-- Taking back a year's entry leaves those of the other years. -/
theorem Sound.take_back_eq (h : Sound yearOf row) (hx : x ∈ entriesOf row) :
    takeBack row x.1 = .ok (totals row (ofOtherYears row x.2.financialYear)) ∧
      Rewrites yearOf row x.2.financialYear (totals row (ofOtherYears row x.2.financialYear)) := by
  have hothers : (entriesOf row).filter (fun z => z.1 ≠ x.1) =
      ofOtherYears row x.2.financialYear := by
    apply List.filter_congr
    intro z hz
    rw [decide_eq_decide]
    exact not_congr (h.key_iff_year hz hx)
  have hback : takeBack row x.1 = .ok (totals row (ofOtherYears row x.2.financialYear)) := by
    unfold takeBack
    rw [if_neg (fun hnone => hnone x hx rfl), hothers]
  have hyear : yearKept row x.1 = x.2.financialYear := by
    have hsome : ((entriesOf row).find? fun z => z.1 = x.1).isSome :=
      List.find?_isSome.mpr ⟨x, hx, by simp⟩
    obtain ⟨z, hfind⟩ := Option.isSome_iff_exists.mp hsome
    have hkey : z.1 = x.1 := by simpa using List.find?_some hfind
    unfold yearKept
    rw [hfind]
    exact (h.key_iff_year (List.mem_of_find?_eq_some hfind) hx).mp hkey
  have hwrites := take_back_rewrites h hback
  rw [hyear] at hwrites
  exact ⟨hback, hwrites⟩

theorem Sound.used_of_year (h : Sound yearOf row) (hx : x ∈ entriesOf row) :
    used (ofOtherYears row x.2.financialYear ++ [x]) = used (entriesOf row) ∧
      x.2.amountPaise ≤ roomFor row x.2.financialYear := by
  have hsum : used (ofOtherYears row x.2.financialYear ++ [x]) = used (entriesOf row) :=
    ((h.entries_perm hx).map _).sum_eq
  have hsplit : used (ofOtherYears row x.2.financialYear ++ [x]) =
      used (ofOtherYears row x.2.financialYear) + x.2.amountPaise := by
    rw [used_append]
    simp [used]
  have hbase := h.baseline
  have hwithin := h.within
  refine ⟨hsum, ?_⟩
  unfold roomFor
  omega

/-- A year that lost its entry takes it again, and then the record is as it was. -/
theorem Sound.filed_again (h : Sound yearOf row) (hpositive : Positive row)
    (hx : x ∈ entriesOf row) (hkind : x.2.returnType ≠ .manual) :
    afterFiling (row.store (totals row (ofOtherYears row x.2.financialYear))) x.1
        x.2.financialYear (some x.2.amountPaise) x.2.returnType.text =
      .ok (totals row (ofOtherYears row x.2.financialYear ++ [x])) := by
  have hnormal := entries_normal hx
  obtain ⟨-, hwrites⟩ := h.take_back_eq hx
  have hnone : ∀ z ∈ entriesOf (row.store (totals row (ofOtherYears row x.2.financialYear))),
      z.1 ≠ x.1 → z.2.financialYear = strip x.2.financialYear →
        z.2.returnType.rank ≤ x.2.returnType.rank := by
    intro z hz _ hfy
    rw [entries_of_store row _ hwrites.normal] at hz
    have hother : yearOfEntry z ≠ x.2.financialYear := by
      simpa using (List.mem_filter.mp hz).2
    exact absurd (hfy.trans hnormal.stripped) hother
  have hkept : x.2.amountPaise > 0 ∨ x.2.returnType = .revised := by
    by_cases hrevised : x.2.returnType = .revised
    · exact .inr hrevised
    · exact .inl (hpositive x hx hrevised)
  rw [(hwrites.stored h).after_filing_eq (h.entry_belongs hx hkind) (some x.2.amountPaise)
    x.2.returnType hnone, hnormal.stripped, hwrites.others_again, hwrites.room_again,
    hwrites.totals_again, paise_some hnormal.nonneg, min_eq_left (h.used_of_year hx).2]
  simp [filedEntries, hkept]

/-- A filing that is taken back and acknowledged again leaves the record as it was. -/
theorem Sound.take_back_filed (h : Sound yearOf row) (hpositive : Positive row)
    (hx : x ∈ entriesOf row) (hkind : x.2.returnType ≠ .manual) :
    ∃ back again, step row (.takenBack x.1) = .ok back ∧
      step back (.filed x.1 x.2.financialYear (some x.2.amountPaise) x.2.returnType.text) =
        .ok again ∧
      (entriesOf again).Perm (entriesOf row) ∧
      paise again.utilizedAmountPaise = paise row.utilizedAmountPaise ∧
      paise again.remainingAmountPaise = paise row.remainingAmountPaise ∧
      again.originalAmountPaise = row.originalAmountPaise := by
  obtain ⟨hback, -⟩ := h.take_back_eq hx
  have hagain := h.filed_again hpositive hx hkind
  have hperm := h.entries_perm hx
  have hread := entries_of_store (row.store (totals row (ofOtherYears row x.2.financialYear)))
    (totals row (ofOtherYears row x.2.financialYear ++ [x]))
    (fun z hz => entries_normal (hperm.mem_iff.mp hz))
  have hutilized : (totals row (ofOtherYears row x.2.financialYear ++ [x])).utilizedAmountPaise =
      paise row.utilizedAmountPaise := by
    have hsum := (h.used_of_year hx).1
    have hbase := h.baseline
    change baselinePaise row + used (ofOtherYears row x.2.financialYear ++ [x]) = _
    omega
  refine ⟨row.store (totals row (ofOtherYears row x.2.financialYear)),
    (row.store (totals row (ofOtherYears row x.2.financialYear))).store
      (totals row (ofOtherYears row x.2.financialYear ++ [x])), ?_, ?_, ?_, ?_, ?_, rfl⟩
  · simp [step, Step.columns, hback, bind, Except.bind, pure, Except.pure]
  · simp [step, Step.columns, hagain, bind, Except.bind, pure, Except.pure]
  · rw [hread]
    exact hperm
  · rw [← hutilized]
    exact paise_some (hutilized ▸ paise_nonneg _)
  · have hremaining := h.remaining
    have hwithin := h.within
    change paise (some (max 0 (paise row.originalAmountPaise -
      (totals row (ofOtherYears row x.2.financialYear ++ [x])).utilizedAmountPaise))) = _
    rw [hutilized, paise_some (le_max_left _ _), max_eq_right (by omega), hremaining]

/-- An entry that a step leaves was there before, or is of something, or is a revised return's. -/
theorem step_entries {s : Step} (h : s.columns row = .ok columns) :
    ∀ x ∈ columns.utilisations, x ∈ entriesOf row ∨ 0 < x.2.amountPaise ∨
      x.2.returnType = .revised := by
  cases s with
  | filed filingId financialYear usedPaise returnType =>
    simp only [Step.columns, afterFiling] at h
    split at h
    · cases h
    · cases h
      intro x hx
      dsimp only at hx
      split at hx
      · rename_i hkept
        rcases List.mem_append.mp hx with hx | hx
        · exact .inl (List.mem_of_mem_filter (List.mem_of_mem_filter hx))
        · cases List.mem_singleton.mp hx
          exact .inr hkept
      · exact .inl (List.mem_of_mem_filter (List.mem_of_mem_filter hx))
  | byHand financialYear amountPaise =>
    simp only [Step.columns, recordByHand] at h
    split at h
    · cases h
    split at h
    · cases h
    split at h
    · cases h
    cases h
    intro x hx
    simp only [totals] at hx
    split at hx
    · rename_i hkept
      rcases List.mem_append.mp hx with hx | hx
      · exact .inl (List.mem_of_mem_filter hx)
      · cases List.mem_singleton.mp hx
        exact .inr (.inl hkept)
    · exact .inl (List.mem_of_mem_filter hx)
  | takenBack entryId =>
    simp only [Step.columns, takeBack] at h
    split at h
    · cases h
    · cases h
      exact fun x hx => .inl (List.mem_of_mem_filter hx)

theorem run_positive (hsound : Sound yearOf start) (hpositive : Positive start)
    (hpromised : ∀ s ∈ steps, s.Promised yearOf) (hrun : run start steps = .ok row) :
    Positive row := by
  induction steps generalizing start with
  | nil =>
    cases hrun
    exact hpositive
  | cons s steps ih =>
    unfold run at hrun ih
    rw [List.foldlM_cons] at hrun
    cases hstep : step start s with
    | error refusal => simp [hstep, bind, Except.bind] at hrun
    | ok next =>
      obtain ⟨columns, hcolumns, rfl, hwrites⟩ :=
        step_rewrites hsound (hpromised s (by simp)) hstep
      rw [hstep] at hrun
      refine ih (hwrites.stored hsound) (fun x hx hkind => ?_)
        (fun t ht => hpromised t (by simp [ht])) hrun
      rw [entries_of_store start columns hwrites.normal] at hx
      rcases step_entries hcolumns x hx with hold | hsome | hrevised
      · exact hpositive x hold hkind
      · exact hsome
      · exact absurd hrevised hkind

/-- What the steps have written of a loss: an original and a revised return of a year leave one
record whichever is acknowledged first, a return taken back and acknowledged again restores it,
and a year is offered the most that a return of it can store. -/
theorem loss_acknowledgement (yearOf : String → String) (start row : LossRow) (steps : List Step)
    (hfresh : entriesOf start = [])
    (hwithin : paise start.utilizedAmountPaise ≤ paise start.originalAmountPaise)
    (hremaining : paise start.remainingAmountPaise =
      paise start.originalAmountPaise - paise start.utilizedAmountPaise)
    (hpromised : ∀ s ∈ steps, s.Promised yearOf) (hrun : run start steps = .ok row) :
    (∀ financialYear originalId revisedId originalUse revisedUse,
      Belongs yearOf originalId financialYear → Belongs yearOf revisedId financialYear →
      originalId ≠ revisedId →
      acknowledged (acknowledged row originalId financialYear originalUse .original)
          revisedId financialYear revisedUse .revised =
        acknowledged (acknowledged row revisedId financialYear revisedUse .revised)
          originalId financialYear originalUse .original) ∧
    (∀ x ∈ entriesOf row, x.2.returnType ≠ .manual →
      ∃ back again, step row (.takenBack x.1) = .ok back ∧
        step back (.filed x.1 x.2.financialYear (some x.2.amountPaise) x.2.returnType.text) =
          .ok again ∧
        (entriesOf again).Perm (entriesOf row) ∧
        paise again.utilizedAmountPaise = paise row.utilizedAmountPaise ∧
        paise again.remainingAmountPaise = paise row.remainingAmountPaise ∧
        again.originalAmountPaise = row.originalAmountPaise) ∧
    ∀ filingId financialYear, Belongs yearOf filingId financialYear →
      IsGreatest { amount | ∃ usedPaise kind columns, kind ≠ Kind.manual ∧
          afterFiling row filingId financialYear usedPaise (Kind.text kind) = .ok columns ∧
          columns.utilizedAmountPaise ≤ paise row.originalAmountPaise ∧
          storedFor filingId columns = amount }
        (availableForYearPaise row financialYear) := by
  have hstart : Sound yearOf start := .fresh hfresh hwithin hremaining
  have hsound := (run_sound hstart hpromised hrun).1
  have hpositive := run_positive hstart (by simp [Positive, hfresh]) hpromised hrun
  refine ⟨?_, fun x hx hkind => hsound.take_back_filed hpositive hx hkind,
    fun _ _ hfiling => hsound.available_greatest hfiling⟩
  intro financialYear originalId revisedId originalUse revisedUse horiginal hrevised hne
  obtain ⟨hfirst, hsecond⟩ :=
    hsound.acknowledged_comm horiginal hrevised hne originalUse revisedUse
  exact hfirst.trans hsecond.symm

/-- A loss of 100 with more recorded as used than it was; one whose filing is on record under an
earlier year; and one with an original's entry of nothing. None is a record the steps write. -/
def overUsed : LossRow := ⟨some 100, some 150, some 50, none⟩

def underAnotherYear : LossRow :=
  ⟨some 100, some 10, some 90, some [("o", some ⟨some "2023-24", some 10, some "original"⟩)]⟩

def entryOfNothing : LossRow :=
  ⟨some 100, some 0, some 100, some [("o", some ⟨some "2024-25", some 0, some "original"⟩)]⟩

/-- The first offers what no filing can store, on the second the order of acknowledgement shows,
and on the third taking back and filing again loses the entry. -/
theorem unsound_records :
    (availableForYearPaise overUsed "2024-25" = 50 ∧
      (afterFiling overUsed "f" "2024-25" (some 50) "revised").map (storedFor "f") = .ok 0) ∧
    ((acknowledged (acknowledged underAnotherYear "o" "2024-25" (some 5) .original)
        "r" "2024-25" (some 5) .revised).utilizedAmountPaise = some 5 ∧
      (acknowledged (acknowledged underAnotherYear "r" "2024-25" (some 5) .revised)
        "o" "2024-25" (some 5) .original).utilizedAmountPaise = some 15) ∧
    ((run entryOfNothing [.takenBack "o", .filed "o" "2024-25" (some 0) "original"]).map
        entriesOf = .ok [] ∧
      entriesOf entryOfNothing = [("o", ⟨"2024-25", 0, .original⟩)]) := by
  decide +kernel

/-- A revised return's use is taken back and acknowledged again beside an earlier year's. -/
theorem loss_acknowledgement_again :
    let start : LossRow := ⟨some 1000, some 100, some 900, none⟩
    let steps : List Step :=
      [.filed "f1" "2024-25" (some 400) "original", .filed "f2" "2025-26" (some 300) "revised"]
    ∃ row, run start steps = .ok row ∧
      acknowledged (acknowledged row "f3" "2025-26" (some 50) .original)
          "f4" "2025-26" (some 200) .revised =
        acknowledged (acknowledged row "f4" "2025-26" (some 200) .revised)
          "f3" "2025-26" (some 50) .original := by
  intro start steps
  obtain ⟨row, hrow⟩ : ∃ row, run start steps = .ok row := by
    cases h : run start steps with
    | ok row => exact ⟨row, rfl⟩
    | error refusal =>
      have hok : (run start steps).isOk = true := by decide +kernel
      rw [h] at hok
      cases hok
  let yearOf (filingId : String) : String := if filingId = "f1" then "2024-25" else "2025-26"
  have hpromised : ∀ s ∈ steps, s.Promised yearOf := by
    intro s hs
    simp only [steps, List.mem_cons, List.not_mem_nil, or_false] at hs
    rcases hs with rfl | rfl
    all_goals exact ⟨by decide +kernel, by decide +kernel,
      filing_not_by_hand (by decide +kernel), by decide +kernel⟩
  have hbelongs : ∀ filingId ∈ ["f3", "f4"], Belongs yearOf filingId "2025-26" := by
    intro filingId hid
    simp only [List.mem_cons, List.not_mem_nil, or_false] at hid
    rcases hid with rfl | rfl
    all_goals exact ⟨by decide +kernel, by decide +kernel,
      filing_not_by_hand (by decide +kernel)⟩
  exact ⟨row, hrow, (loss_acknowledgement yearOf start row steps rfl (by decide) (by decide)
    hpromised hrow).1 _ _ _ _ _ (hbelongs _ (by simp)) (hbelongs _ (by simp)) (by decide)⟩

end Caflow.IncomeTax.LossUtilisation
