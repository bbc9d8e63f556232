import Caflow.IncomeTax.LossUtilisation
import Caflow.Lib.OnePerGroup

set_option linter.all false

namespace Caflow.IncomeTax.LossUtilisation
open Text OnePerGroup

def yearOfEntry (x : String × Entry) : String := x.2.financialYear

/-- An entry as the record gives it back. -/
structure Normal (entry : Entry) : Prop where
  stripped : strip entry.financialYear = entry.financialYear
  named : entry.financialYear ≠ ""
  nonneg : 0 ≤ entry.amountPaise

@[simp] theorem paise_nonneg (value : Option ℤ) : 0 ≤ paise value := by
  unfold paise
  omega

@[simp] theorem paise_some (h : 0 ≤ n) : paise (some n) = n := max_eq_right h

theorem read_normal {raw : RawEntry} (h : raw.read = some entry) : Normal entry := by
  unfold RawEntry.read at h
  dsimp only at h
  split at h
  · cases h
  · rename_i hfy
    cases h
    exact ⟨strip_strip _, hfy, paise_nonneg _⟩

theorem entries_normal (hx : x ∈ entriesOf row) : Normal x.2 := by
  unfold entriesOf at hx
  obtain ⟨⟨key, stored⟩, -, hread⟩ := List.mem_filterMap.mp hx
  obtain ⟨raw, -, hraw⟩ := Option.bind_eq_some_iff.mp hread
  obtain ⟨entry, hentry, rfl⟩ := Option.map_eq_some_iff.mp hraw
  exact read_normal hentry

theorem kind_read (kind : Kind) : (kindOf (lower (strip kind.text))).getD .original = kind := by
  cases kind <;> decide +kernel

theorem kind_manual (h : (kindOf text).getD .original = .manual) : text = "manual" := by
  cases hkind : kindOf text with
  | none => simp [hkind] at h
  | some kind =>
    have hmanual : kind = .manual := by simpa [hkind] using h
    have htext : kind.text = text := by simpa using List.find?_some hkind
    rw [← htext, hmanual]
    rfl

theorem Normal.read_raw (h : Normal entry) : entry.raw.read = some entry := by
  unfold RawEntry.read Entry.raw
  simp only [Option.getD_some, h.stripped, if_neg h.named, kind_read, paise_some h.nonneg]

/-- What is stored is what is read again. -/
theorem entries_of_store (row : LossRow) (columns : Columns) (h : ∀ x ∈ columns.utilisations, Normal x.2) :
    entriesOf (row.store columns) = columns.utilisations := by
  unfold entriesOf LossRow.store
  dsimp only [Option.getD_some]
  rw [List.filterMap_map]
  calc columns.utilisations.filterMap _
      = columns.utilisations.filterMap some := by
        apply List.filterMap_congr
        intro x hx
        simp [(h x hx).read_raw]
    _ = columns.utilisations := List.filterMap_some

theorem used_append (xs ys : Entries) : used (xs ++ ys) = used xs + used ys := by
  simp [used]

theorem used_nonneg (h : ∀ x ∈ entries, Normal x.2) : 0 ≤ used entries := by
  apply List.sum_nonneg
  intro amount hamount
  obtain ⟨x, hx, rfl⟩ := List.mem_map.mp hamount
  exact (h x hx).nonneg

/-- A hand entry is kept under its year, a return's under a filing of its year. -/
def Keyed (yearOf : String → String) (x : String × Entry) : Prop :=
  if x.2.returnType = .manual then x.1 = manualEntryId x.2.financialYear
  else yearOf x.1 = x.2.financialYear ∧ ∀ y, x.1 ≠ manualEntryId y

/-- What every record keeps that is written by these steps alone. -/
structure Sound (yearOf : String → String) (row : LossRow) : Prop where
  years : ((entriesOf row).map yearOfEntry).Nodup
  keyed : ∀ x ∈ entriesOf row, Keyed yearOf x
  counted : used (entriesOf row) ≤ paise row.utilizedAmountPaise
  within : paise row.utilizedAmountPaise ≤ paise row.originalAmountPaise
  remaining : paise row.remainingAmountPaise =
    paise row.originalAmountPaise - paise row.utilizedAmountPaise

/-- The columns that a step for a year writes: its entry gives way, or goes, and the totals follow. -/
structure Rewrites (yearOf : String → String) (row : LossRow) (year : String)
    (columns : Columns) : Prop where
  entries : ∃ new, columns.utilisations = replaced yearOfEntry year new (entriesOf row) ∧
    ∀ x, new = some x → Keyed yearOf x ∧ Normal x.2 ∧ yearOfEntry x = year
  utilized : columns.utilizedAmountPaise = baselinePaise row + used columns.utilisations
  within : columns.utilizedAmountPaise ≤ paise row.originalAmountPaise
  remaining : columns.remainingAmountPaise =
    max 0 (paise row.originalAmountPaise - columns.utilizedAmountPaise)

theorem Sound.baseline (h : Sound yearOf row) :
    baselinePaise row = paise row.utilizedAmountPaise - used (entriesOf row) := by
  have := h.counted
  unfold baselinePaise
  omega

theorem manual_entry_id_inj (hx : strip a = a) (hy : strip b = b)
    (h : manualEntryId a = manualEntryId b) : a = b := by
  have hstrip := (String.append_right_inj _).mp h
  rwa [hx, hy] at hstrip

/-- Two entries have one key exactly when they have one year. -/
theorem Sound.key_iff_year (h : Sound yearOf row) (hx : x ∈ entriesOf row)
    (hz : z ∈ entriesOf row) : x.1 = z.1 ↔ x.2.financialYear = z.2.financialYear := by
  have hkx := h.keyed x hx
  have hkz := h.keyed z hz
  refine ⟨fun hkey => ?_, fun hyear => ?_⟩
  · unfold Keyed at hkx hkz
    split at hkx <;> split at hkz
    · exact manual_entry_id_inj (entries_normal hx).stripped (entries_normal hz).stripped
        (hkx.symm.trans (hkey.trans hkz))
    · exact absurd (hkey.symm.trans hkx) (hkz.2 _)
    · exact absurd (hkey.trans hkz) (hkx.2 _)
    · rw [← hkx.1, ← hkz.1, hkey]
  · rw [List.inj_on_of_nodup_map h.years hx hz hyear]

theorem Rewrites.normal (hwrites : Rewrites yearOf row year columns) :
    ∀ x ∈ columns.utilisations, Normal x.2 := by
  obtain ⟨new, hentries, hnew⟩ := hwrites.entries
  intro x hx
  rw [hentries] at hx
  rcases mem_replaced.mp hx with ⟨hold, -⟩ | hsome
  · exact entries_normal hold
  · exact (hnew x hsome).2.1

theorem Rewrites.stored_baseline (hwrites : Rewrites yearOf row year columns) :
    baselinePaise (row.store columns) = baselinePaise row := by
  have hread := entries_of_store row columns hwrites.normal
  have hbase : 0 ≤ baselinePaise row := le_max_left _ _
  have hused := used_nonneg hwrites.normal
  have hutilized := hwrites.utilized
  unfold baselinePaise at hbase ⊢
  rw [hread]
  unfold LossRow.store
  dsimp only
  rw [paise_some (by unfold baselinePaise at hutilized; omega), hutilized]
  unfold baselinePaise
  omega

/-- The record stays sound: the year written has the one entry, and no other year is touched. -/
theorem Rewrites.stored (hwrites : Rewrites yearOf row year columns) (hsound : Sound yearOf row) :
    Sound yearOf (row.store columns) := by
  have hread := entries_of_store row columns hwrites.normal
  have hbase : 0 ≤ baselinePaise row := le_max_left _ _
  have hused := used_nonneg hwrites.normal
  have hutilized := hwrites.utilized
  have hwithin := hwrites.within
  have hstored : paise (row.store columns).utilizedAmountPaise = columns.utilizedAmountPaise :=
    paise_some (by omega)
  obtain ⟨new, hentries, hnew⟩ := hwrites.entries
  refine ⟨?_, ?_, ?_, ?_, ?_⟩
  · rw [hread, hentries]
    exact replaced_nodup hsound.years fun x hx => (hnew x hx).2.2
  · intro x hx
    rw [hread, hentries] at hx
    rcases mem_replaced.mp hx with ⟨hold, -⟩ | hsome
    · exact hsound.keyed x hold
    · exact (hnew x hsome).1
  · rw [hread, hstored]
    omega
  · rw [hstored]
    exact hwithin
  · have hremaining := hwrites.remaining
    rw [hstored]
    change paise (some columns.remainingAmountPaise) = paise row.originalAmountPaise - _
    rw [paise_some (by omega)]
    omega

theorem Rewrites.other_years (hwrites : Rewrites yearOf row year columns) (hy : y ≠ year) :
    heldFor yearOfEntry y (entriesOf (row.store columns)) =
      heldFor yearOfEntry y (entriesOf row) := by
  rw [entries_of_store row columns hwrites.normal]
  obtain ⟨new, hentries, hnew⟩ := hwrites.entries
  rw [hentries]
  exact held_for_replaced (fun x hx => (hnew x hx).2.2) hy

theorem used_split (p : String × Entry → Bool) (entries : Entries) :
    used entries = used (entries.filter p) + used (entries.filter fun x => !p x) := by
  induction entries with
  | nil => rfl
  | cons x entries ih =>
    unfold used at ih ⊢
    cases hp : p x <;> simp [hp, ih] <;> ring

/-- A computation is offered what neither the baseline nor the other years have taken. -/
theorem Sound.available (hsound : Sound yearOf row) (financialYear : String) :
    availableForYearPaise row financialYear = paise row.originalAmountPaise - baselinePaise row -
      used ((entriesOf row).filter (fun x => yearOfEntry x ≠ strip financialYear)) := by
  have hbase := hsound.baseline
  have hremaining := hsound.remaining
  have hzero : 0 ≤ baselinePaise row := le_max_left _ _
  have hsplit := used_split (fun x => yearOfEntry x = strip financialYear) (entriesOf row)
  have hother : (entriesOf row).filter (fun x => !decide (yearOfEntry x = strip financialYear)) =
      (entriesOf row).filter (fun x => yearOfEntry x ≠ strip financialYear) := by
    simp only [ne_eq, decide_not]
  have hnonneg : 0 ≤ used ((entriesOf row).filter
      (fun x => yearOfEntry x ≠ strip financialYear)) :=
    used_nonneg fun x hx => entries_normal (List.mem_of_mem_filter hx)
  have hinyear : usedInYearPaise row financialYear =
    used ((entriesOf row).filter (fun x => yearOfEntry x = strip financialYear)) := rfl
  rw [hother] at hsplit
  unfold availableForYearPaise
  omega

/-- A year is offered as much after its own use was written as before. -/
theorem Rewrites.available_again (hwrites : Rewrites yearOf row (strip financialYear) columns)
    (hsound : Sound yearOf row) : availableForYearPaise (row.store columns) financialYear =
      availableForYearPaise row financialYear := by
  obtain ⟨new, hentries, hnew⟩ := hwrites.entries
  have hread := entries_of_store row columns hwrites.normal
  rw [(hwrites.stored hsound).available, hsound.available, hwrites.stored_baseline, hread,
    hentries, filter_replaced fun x hx => (hnew x hx).2.2]
  rfl

/-- A year's entry gives way to one that fits the room the others leave. -/
theorem rewrites_of_room (hsound : Sound yearOf row) (new : Option (String × Entry))
    (hentries : entries = replaced yearOfEntry year new (entriesOf row))
    (hnew : ∀ x, new = some x → Keyed yearOf x ∧ Normal x.2 ∧ yearOfEntry x = year)
    (hroom : ∀ x, new = some x → x.2.amountPaise ≤ max 0 (paise row.originalAmountPaise -
      baselinePaise row - used ((entriesOf row).filter (fun x => yearOfEntry x ≠ year)))) :
    Rewrites yearOf row year (totals row entries) := by
  refine ⟨⟨new, hentries, hnew⟩, rfl, ?_, rfl⟩
  have hbase := hsound.baseline
  have hwithin := hsound.within
  have hothers : used ((entriesOf row).filter (fun x => yearOfEntry x ≠ year)) ≤
      used (entriesOf row) :=
    sum_filter_le _ _ fun x hx => (entries_normal hx).nonneg
  change baselinePaise row + used entries ≤ _
  rw [hentries]
  unfold replaced
  rw [used_append]
  cases new with
  | none =>
    have hnone : used (none : Option (String × Entry)).toList = 0 := rfl
    omega
  | some x =>
    have hfits := hroom x rfl
    have hone : used (some x).toList = x.2.amountPaise := by simp [used]
    omega

/-- A filing's entry is of the filing's own year, so what a filing leaves is of other years. -/
theorem Sound.filing_others (hsound : Sound yearOf row)
    (hbelongs : yearOf filingId = strip financialYear)
    (hfiling : ∀ y, filingId ≠ manualEntryId y) :
    ((entriesOf row).filter fun x =>
        x.2.financialYear ≠ strip financialYear ∨ x.1 = filingId).filter
        (fun x => x.1 ≠ filingId) =
      (entriesOf row).filter (fun x => yearOfEntry x ≠ strip financialYear) := by
  rw [List.filter_filter]
  apply List.filter_congr
  intro x hx
  have hown : x.1 = filingId → x.2.financialYear = strip financialYear := by
    intro hkey
    have hkeyed := hsound.keyed x hx
    unfold Keyed at hkeyed
    split at hkeyed
    · exact absurd (hkey.symm.trans hkeyed) (hfiling _)
    · rw [← hkeyed.1, hkey, hbelongs]
  by_cases hkey : x.1 = filingId
  · simp [hkey, yearOfEntry, hown hkey]
  · by_cases hfy : x.2.financialYear = strip financialYear <;> simp [hkey, yearOfEntry, hfy]

theorem after_filing_rewrites (hsound : Sound yearOf row) (hyear : strip financialYear ≠ "")
    (hbelongs : yearOf filingId = strip financialYear)
    (hfiling : ∀ y, filingId ≠ manualEntryId y) (hkind : returnType ≠ "manual")
    (hok : afterFiling row filingId financialYear usedPaise returnType = .ok columns) :
    Rewrites yearOf row (strip financialYear) columns := by
  unfold afterFiling at hok
  dsimp only at hok
  split at hok
  · cases hok
  cases hok
  set kind := (kindOf returnType).getD .original with hk
  have hothers := hsound.filing_others hbelongs hfiling
  rw [hothers]
  set room := max 0 (paise row.originalAmountPaise - baselinePaise row -
    used ((entriesOf row).filter (fun x => yearOfEntry x ≠ strip financialYear))) with hroom
  set entry : Entry := ⟨strip financialYear, min (paise usedPaise) room, kind⟩ with hentry
  have hnonneg : 0 ≤ min (paise usedPaise) room := le_min (paise_nonneg _) (le_max_left _ _)
  refine rewrites_of_room hsound
    (if min (paise usedPaise) room > 0 ∨ kind = .revised then some (filingId, entry) else none)
    ?_ ?_ ?_
  · unfold replaced
    split <;> simp
  · intro x hx
    split at hx
    · cases hx
      have hreturn : kind ≠ .manual := fun h => hkind (kind_manual h)
      refine ⟨?_, ⟨strip_strip _, hyear, hnonneg⟩, rfl⟩
      unfold Keyed
      rw [if_neg hreturn]
      exact ⟨hbelongs, hfiling⟩
    · cases hx
  · intro x hx
    split at hx
    · cases hx
      exact min_le_right _ _
    · cases hx

theorem year_start_named (h : yearStart (strip financialYear) ≠ none) : strip financialYear ≠ "" := by
  intro hblank
  rw [hblank] at h
  exact h (by decide +kernel)

theorem record_by_hand_rewrites (hsound : Sound yearOf row)
    (hok : recordByHand row financialYear amountPaise = .ok columns) :
    Rewrites yearOf row (strip financialYear) columns := by
  unfold recordByHand at hok
  dsimp only at hok
  split at hok
  · cases hok
  rename_i hyear
  split at hok
  · cases hok
  rename_i hheld
  split at hok
  · cases hok
  rename_i hfits
  cases hok
  -- no return holds the year, so only its hand entry can
  have hothers : (entriesOf row).filter (fun x => x.1 ≠ manualEntryId (strip financialYear)) =
      (entriesOf row).filter (fun x => yearOfEntry x ≠ strip financialYear) := by
    apply List.filter_congr
    intro x hx
    have hkeyed := hsound.keyed x hx
    have hreturn := List.find?_eq_none.mp hheld x hx
    simp only [decide_eq_true_eq, not_and, not_not] at hreturn
    have hiff : x.1 = manualEntryId (strip financialYear) ↔
        x.2.financialYear = strip financialYear := by
      refine ⟨fun h => ?_, fun h => ?_⟩
      · unfold Keyed at hkeyed
        split at hkeyed
        · exact manual_entry_id_inj (entries_normal hx).stripped (strip_strip _)
            (hkeyed.symm.trans h)
        · exact absurd h (hkeyed.2 _)
      · unfold Keyed at hkeyed
        rw [if_pos (hreturn h)] at hkeyed
        rw [hkeyed, h]
    unfold yearOfEntry
    rw [decide_eq_decide]
    exact not_congr hiff
  unfold roomForManualPaise at hfits
  dsimp only at hfits
  rw [hothers] at hfits ⊢
  set entry : Entry := ⟨strip financialYear, paise amountPaise, .manual⟩ with hentry
  refine rewrites_of_room hsound (if paise amountPaise > 0 then
    some (manualEntryId (strip financialYear), entry) else none) ?_ ?_ ?_
  · unfold replaced
    split <;> simp
  · intro x hx
    split at hx
    · cases hx
      refine ⟨?_, ⟨strip_strip _, year_start_named hyear, paise_nonneg _⟩, rfl⟩
      unfold Keyed
      rw [if_pos rfl]
    · cases hx
  · intro x hx
    split at hx
    · cases hx
      exact not_lt.mp hfits
    · cases hx

/-- The year of the entry kept under a key. -/
def yearKept (row : LossRow) (entryId : String) : String :=
  (((entriesOf row).find? fun x => x.1 = entryId).map yearOfEntry).getD ""

theorem take_back_rewrites (hsound : Sound yearOf row) (hok : takeBack row entryId = .ok columns) :
    Rewrites yearOf row (yearKept row entryId) columns := by
  unfold takeBack at hok
  split at hok
  · cases hok
  rename_i hfound
  cases hok
  have hz : ∃ z ∈ entriesOf row, z.1 = entryId := by
    by_contra hnone
    exact hfound fun x hx hkey => hnone ⟨x, hx, hkey⟩
  have hsome : ((entriesOf row).find? fun x => x.1 = entryId).isSome := by
    simpa [List.find?_isSome] using hz
  obtain ⟨z, hfind⟩ := Option.isSome_iff_exists.mp hsome
  have hkey : z.1 = entryId := by simpa using List.find?_some hfind
  have hyear : yearKept row entryId = yearOfEntry z := by
    unfold yearKept
    rw [hfind]
    rfl
  have hothers : (entriesOf row).filter (fun x => x.1 ≠ entryId) =
      (entriesOf row).filter (fun x => yearOfEntry x ≠ yearOfEntry z) := by
    apply List.filter_congr
    intro x hx
    rw [decide_eq_decide, ← hkey]
    exact not_congr (hsound.key_iff_year hx (List.mem_of_find?_eq_some hfind))
  rw [hyear]
  apply rewrites_of_room hsound none
  · simp only [replaced, hothers, Option.toList_none, List.append_nil]
  · intro x hx
    cases hx
  · intro x hx
    cases hx

/-- What the callers keep to: a return names its year, is kept under an id of that year, which is
no hand entry's key, and is no hand entry itself. -/
def Step.Promised (yearOf : String → String) : Step → Prop
  | .filed filingId financialYear _ returnType =>
    strip financialYear ≠ "" ∧ yearOf filingId = strip financialYear ∧
      (∀ y, filingId ≠ manualEntryId y) ∧ returnType ≠ "manual"
  | .byHand _ _ | .takenBack _ => True

/-- The year a step is about. -/
def Step.year (row : LossRow) : Step → String
  | .filed _ financialYear _ _ | .byHand financialYear _ => strip financialYear
  | .takenBack entryId => yearKept row entryId

theorem step_rewrites (hsound : Sound yearOf row) (hpromised : s.Promised yearOf)
    (hstep : step row s = .ok row') :
    ∃ columns, s.columns row = .ok columns ∧ row' = row.store columns ∧
      Rewrites yearOf row (s.year row) columns := by
  unfold step at hstep
  cases hcolumns : s.columns row with
  | error refusal => simp [hcolumns, bind, Except.bind] at hstep
  | ok columns =>
    rw [hcolumns] at hstep
    cases hstep
    refine ⟨columns, rfl, rfl, ?_⟩
    cases s <;> simp only [Step.columns] at hcolumns <;> simp only [Step.year]
    case filed filingId financialYear usedPaise returnType =>
      obtain ⟨hyear, hbelongs, hfiling, hkind⟩ := hpromised
      exact after_filing_rewrites hsound hyear hbelongs hfiling hkind hcolumns
    case byHand financialYear amountPaise => exact record_by_hand_rewrites hsound hcolumns
    case takenBack entryId => exact take_back_rewrites hsound hcolumns

theorem run_sound (hsound : Sound yearOf start) (hpromised : ∀ s ∈ steps, s.Promised yearOf)
    (hrun : run start steps = .ok row) :
    Sound yearOf row ∧ baselinePaise row = baselinePaise start ∧
      row.originalAmountPaise = start.originalAmountPaise := by
  induction steps generalizing start with
  | nil =>
    cases hrun
    exact ⟨hsound, rfl, rfl⟩
  | cons s steps ih =>
    unfold run at hrun ih
    rw [List.foldlM_cons] at hrun
    cases hstep : step start s with
    | error refusal => simp [hstep, bind, Except.bind] at hrun
    | ok next =>
      obtain ⟨columns, -, rfl, hwrites⟩ := step_rewrites hsound (hpromised s (by simp)) hstep
      rw [hstep] at hrun
      obtain ⟨hkept, hbase, horiginal⟩ := ih (hwrites.stored hsound)
        (fun t ht => hpromised t (List.mem_cons_of_mem s ht)) hrun
      exact ⟨hkept, hbase.trans hwrites.stored_baseline, horiginal⟩

/-- A loss no use is recorded of yet. -/
theorem Sound.fresh (hfresh : entriesOf row = [])
    (hwithin : paise row.utilizedAmountPaise ≤ paise row.originalAmountPaise)
    (hremaining : paise row.remainingAmountPaise =
      paise row.originalAmountPaise - paise row.utilizedAmountPaise) : Sound yearOf row where
  years := by simp [hfresh]
  keyed := by simp [hfresh]
  counted := by simp [hfresh, used]
  within := hwithin
  remaining := hremaining

/-- Through any accepted steps the totals follow the baseline, which never changes, and the
entries, one a year; and a step for a year leaves what is held for every other. -/
theorem loss_record_kept (yearOf : String → String) (start row : LossRow) (steps : List Step)
    (hfresh : entriesOf start = [])
    (hwithin : paise start.utilizedAmountPaise ≤ paise start.originalAmountPaise)
    (hremaining : paise start.remainingAmountPaise =
      paise start.originalAmountPaise - paise start.utilizedAmountPaise)
    (hpromised : ∀ s ∈ steps, s.Promised yearOf) (hrun : run start steps = .ok row) :
    row.originalAmountPaise = start.originalAmountPaise ∧
    baselinePaise row = paise start.utilizedAmountPaise ∧
    paise row.utilizedAmountPaise = baselinePaise row + used (entriesOf row) ∧
    paise row.remainingAmountPaise =
      paise row.originalAmountPaise - paise row.utilizedAmountPaise ∧
    paise row.utilizedAmountPaise ≤ paise row.originalAmountPaise ∧
    (∀ year, (heldFor yearOfEntry year (entriesOf row)).length ≤ 1) ∧
    ∀ s row', s.Promised yearOf → step row s = .ok row' → ∀ year, year ≠ s.year row →
      heldFor yearOfEntry year (entriesOf row') = heldFor yearOfEntry year (entriesOf row) := by
  have hstart : Sound yearOf start := .fresh hfresh hwithin hremaining
  obtain ⟨hsound, hbase, horiginal⟩ := run_sound hstart hpromised hrun
  have hopening : baselinePaise start = paise start.utilizedAmountPaise := by
    rw [hstart.baseline, hfresh]
    exact sub_zero _
  refine ⟨horiginal, hbase.trans hopening, ?_, hsound.remaining, hsound.within,
    held_for_length hsound.years, ?_⟩
  · have := hsound.baseline
    omega
  · intro s row' hs hstep year hyear
    obtain ⟨columns, -, rfl, hwrites⟩ := step_rewrites hsound hs hstep
    exact hwrites.other_years hyear

theorem filing_not_by_hand (h : filingId.toList.head? ≠ some 'm') (y : String) :
    filingId ≠ manualEntryId y := by
  intro heq
  apply h
  rw [heq, manualEntryId, String.toList_append]
  rfl

/-- An early year is revised after a later one has used the loss, and that one is taken back. -/
theorem loss_record_revised :
    let start : LossRow := ⟨some 1000, some 100, some 900, none⟩
    let steps : List Step :=
      [.filed "f1" "2024-25" (some 400) "original", .filed "f2" "2025-26" (some 300) "original",
        .filed "f3" "2024-25" (some 700) "revised", .takenBack "f2", .byHand "2025-26 " (some 250)]
    ∃ row, run start steps = .ok row ∧ row.remainingAmountPaise = some 50 ∧
      (entriesOf row).length = 2 ∧
      paise row.utilizedAmountPaise = baselinePaise row + used (entriesOf row) ∧
      (heldFor yearOfEntry "2024-25" (entriesOf row)).length ≤ 1 := by
  intro start steps
  obtain ⟨row, hrow⟩ : ∃ row, run start steps = .ok row := by
    cases h : run start steps with
    | ok row => exact ⟨row, rfl⟩
    | error refusal =>
      have hok : (run start steps).isOk = true := by decide +kernel
      rw [h] at hok
      cases hok
  let yearOf (filingId : String) : String := if filingId = "f2" then "2025-26" else "2024-25"
  have hpromised : ∀ s ∈ steps, s.Promised yearOf := by
    intro s hs
    simp only [steps, List.mem_cons, List.not_mem_nil, or_false] at hs
    rcases hs with rfl | rfl | rfl | rfl | rfl
    any_goals exact trivial
    all_goals exact ⟨by decide +kernel, by decide +kernel,
      filing_not_by_hand (by decide +kernel), by decide +kernel⟩
  obtain ⟨-, -, htotal, -, -, hone, -⟩ := loss_record_kept yearOf start row steps rfl
    (by decide) (by decide) hpromised hrow
  refine ⟨row, hrow, ?_, ?_, htotal, hone _⟩
  · have h : (run start steps).map LossRow.remainingAmountPaise = .ok (some 50) := by
      decide +kernel
    rw [hrow] at h
    exact Except.ok.inj h
  · have h : (run start steps).map (fun row => (entriesOf row).length) = .ok 2 := by
      decide +kernel
    rw [hrow] at h
    exact Except.ok.inj h

end Caflow.IncomeTax.LossUtilisation
