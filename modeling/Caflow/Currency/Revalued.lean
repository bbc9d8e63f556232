import Caflow.Currency.Revaluation

namespace Caflow.Currency.Revaluation
open Accounting Accounting.Kernel Accounting.Kernel.Reversal Calendar IsoDate Text Tally

def IsOverlay (e : Entry) : Prop := "FXREVAL-".toList <+: e.referenceNo.toList

/-- The numbers that revaluations and reversals give. -/
def Reserved (referenceNo : String) : Prop :=
  "FXREVAL-".toList <+: referenceNo.toList ∨ "REV-".toList <+: referenceNo.toList

inductive Event where
  | post (link : Link) (posting : Posting)
  | reverse (link : Link) (entryId reversalDate : String)
  | revalue (request : Request)

def step (ground : Ground) (books : Books) : Event → Books
  | .post link posting =>
    ⟨(createJournal ground link books.entries posting none).2, books.revaluations⟩
  | .reverse link entryId reversalDate =>
    ⟨(reverseEntry ground link books.entries entryId reversalDate).2, books.revaluations⟩
  | .revalue request => (revalue ground request books).2

def run (ground : Ground) (events : List Event) : Books := events.foldl (step ground) ⟨[], []⟩

/-- The ledger takes the day after wherever it takes the closing day. -/
def Reversible (ground : Ground) (request : Request) : Prop :=
  ground.refusal (isoformat request.periodEnd) = none →
    ground.refusal (isoformat request.periodEnd.next) = none

/-- Other postings keep off the reserved numbers. -/
def Event.Proper (ground : Ground) : Event → Prop
  | .post _ posting => ¬ Reserved posting.referenceNo
  | .reverse _ _ _ => True
  | .revalue request => Reversible ground request

/-- What the journals keep, whoever posts. -/
structure Journalled (ground : Ground) (entries : List Entry) : Prop where
  numbered : ∀ i, (h : i < entries.length) → entries[i].id = ground.ids i
  named : ∀ e ∈ entries, ∀ id, e.reversalOf = some id → ∃ o ∈ entries, o.id = id
  once : ∀ e ∈ entries, ∀ e' ∈ entries, ∀ id, e.reversalOf = some id → e'.reversalOf = some id →
    e.id = e'.id
  reversals : ∀ e ∈ entries, "REV-".toList <+: e.referenceNo.toList →
    ∃ id, e.reversalOf = some id ∧ e.referenceNo = reversalReference id

/-- A run stands in the ledger as its entry on the closing day and the reversal on the day after. -/
structure Overlay (entries : List Entry) (r : Run) (e v : Entry) : Prop where
  entry : e ∈ entries
  reversal : v ∈ entries
  entryId : e.id = r.journalEntryId
  reversalId : v.id = r.reversalEntryId
  closing : e.entryDate = isoformat r.periodEnd
  dayAfter : v.entryDate = isoformat r.periodEnd.next
  carries : ∃ fx control, e.lines = revalLines r.key.item fx control r.deltaPaise
  names : v.reversalOf = some e.id
  swapped : v.lines = e.lines.map swap

structure Settled (ground : Ground) (books : Books) : Prop where
  journalled : Journalled ground books.entries
  reversed : ∀ e ∈ books.entries, IsOverlay e → e.isReversed = true
  overlays : ∀ r ∈ books.revaluations, ∃ e v, Overlay books.entries r e v
  distinct : (books.revaluations.map Run.journalEntryId).Nodup

section
variable {ground : Ground} {entries : List Entry} {books : Books} {request : Request}
  {posting : Posting} {r : Option String}

@[simp] theorem stamp_reference (r : Option String) (e : Entry) :
    (stamp r e).referenceNo = e.referenceNo := by
  unfold stamp
  split <;> rfl

@[simp] theorem stamp_date (r : Option String) (e : Entry) :
    (stamp r e).entryDate = e.entryDate := by
  unfold stamp
  split <;> rfl

theorem stamp_reversed {e : Entry} (h : e.isReversed = true) (r : Option String) :
    (stamp r e).isReversed = true := by
  unfold stamp
  split
  · rfl
  · exact h

/-- The entries with one more, stamped. -/
def grown (entries : List Entry) (added : Entry) (r : Option String) : List Entry :=
  (entries ++ [added]).map (stamp r)

theorem mem_grown {added e : Entry} (h : e ∈ grown entries added r) :
    (∃ e' ∈ entries, e = stamp r e') ∨ e = stamp r added := by
  obtain ⟨e', he', rfl⟩ := List.mem_map.mp h
  rcases List.mem_append.mp he' with hold | hlast
  · exact .inl ⟨e', hold, rfl⟩
  · exact .inr (by rw [List.mem_singleton.mp hlast])

theorem grown_old {e : Entry} (added : Entry) (r : Option String) (h : e ∈ entries) :
    stamp r e ∈ grown entries added r :=
  List.mem_map_of_mem (List.mem_append_left _ h)

@[simp] theorem grown_length (entries : List Entry) (added : Entry) (r : Option String) :
    (grown entries added r).length = entries.length + 1 := by
  simp [grown]

theorem grown_get {added : Entry} {id : ℕ → String}
    (h : ∀ i, (hi : i < entries.length) → entries[i].id = id i)
    (hadded : added.id = id entries.length) (i : ℕ) (hi : i < (grown entries added r).length) :
    (grown entries added r)[i].id = id i := by
  have hbound : i < (entries ++ [added]).length := by simpa using hi
  have hget : (grown entries added r)[i] = stamp r (entries ++ [added])[i] :=
    List.getElem_map _
  rw [hget, stamp_id]
  rw [grown_length] at hi
  rcases Nat.lt_succ_iff_lt_or_eq.mp hi with hlt | rfl
  · rw [List.getElem_append_left hlt]
    exact h i hlt
  · rw [List.getElem_concat_length rfl]
    exact hadded

theorem Journalled.drawn (h : Journalled ground entries) {e : Entry} (he : e ∈ entries) :
    ∃ i < entries.length, e.id = ground.ids i := by
  obtain ⟨i, hi, rfl⟩ := List.mem_iff_getElem.mp he
  exact ⟨i, hi, h.numbered i hi⟩

/-- An entry that names what it reverses, and gives no other the number of a reversal, keeps the
journals. -/
theorem Journalled.grow (h : Journalled ground entries) (posting : Posting)
    (hnamed : ∀ id, r = some id → ∃ o ∈ entries, o.id = id)
    (hnew : ∀ id, r = some id → ∀ e ∈ entries, e.reversalOf ≠ some id)
    (hnumber : "REV-".toList <+: posting.referenceNo.toList →
      ∃ id, r = some id ∧ posting.referenceNo = reversalReference id) :
    Journalled ground (grown entries (posting.entry (ground.ids entries.length) r) r) := by
  refine ⟨grown_get h.numbered rfl, fun e he id hid => ?_, fun e he e' he' id hid hid' => ?_,
    fun e he hbegins => ?_⟩
  · have hold : ∃ o ∈ entries, o.id = id := by
      rcases mem_grown he with ⟨a, ha, rfl⟩ | rfl
      · rw [stamp_reversal_of] at hid
        exact h.named a ha id hid
      · rw [stamp_reversal_of] at hid
        exact hnamed id hid
    obtain ⟨o, ho, rfl⟩ := hold
    exact ⟨stamp r o, grown_old _ r ho, stamp_id r o⟩
  · rcases mem_grown he with ⟨a, ha, rfl⟩ | rfl <;> rcases mem_grown he' with ⟨b, hb, rfl⟩ | rfl
    · rw [stamp_reversal_of] at hid hid'
      rw [stamp_id, stamp_id]
      exact h.once a ha b hb id hid hid'
    · rw [stamp_reversal_of] at hid hid'
      exact absurd hid (hnew id hid' a ha)
    · rw [stamp_reversal_of] at hid hid'
      exact absurd hid' (hnew id hid b hb)
    · rfl
  · rcases mem_grown he with ⟨a, ha, rfl⟩ | rfl
    · rw [stamp_reference] at hbegins
      rw [stamp_reversal_of, stamp_reference]
      exact h.reversals a ha hbegins
    · rw [stamp_reference] at hbegins
      rw [stamp_reversal_of, stamp_reference]
      exact hnumber hbegins

theorem Overlay.grow {x : Run} {e v : Entry} (h : Overlay entries x e v) (added : Entry)
    (r : Option String) : Overlay (grown entries added r) x (stamp r e) (stamp r v) where
  entry := grown_old added r h.entry
  reversal := grown_old added r h.reversal
  entryId := (stamp_id r e).trans h.entryId
  reversalId := (stamp_id r v).trans h.reversalId
  closing := (stamp_date r e).trans h.closing
  dayAfter := (stamp_date r v).trans h.dayAfter
  carries := by
    rw [stamp_lines]
    exact h.carries
  names := by
    rw [stamp_reversal_of, stamp_id]
    exact h.names
  swapped := by
    rw [stamp_lines, stamp_lines]
    exact h.swapped

/-- Any entry but a revaluation's own leaves the books settled. -/
theorem Settled.grow (h : Settled ground books)
    (hnamed : ∀ id, r = some id → ∃ o ∈ books.entries, o.id = id)
    (hnew : ∀ id, r = some id → ∀ e ∈ books.entries, e.reversalOf ≠ some id)
    (hnumber : "REV-".toList <+: posting.referenceNo.toList →
      ∃ id, r = some id ∧ posting.referenceNo = reversalReference id)
    (hother : ¬ "FXREVAL-".toList <+: posting.referenceNo.toList) :
    Settled ground
      ⟨grown books.entries (posting.entry (ground.ids books.entries.length) r) r,
        books.revaluations⟩ := by
  refine ⟨h.journalled.grow posting hnamed hnew hnumber, fun e he hoverlay => ?_, fun x hx => ?_,
    h.distinct⟩
  · rcases mem_grown he with ⟨a, ha, rfl⟩ | rfl
    · rw [IsOverlay, stamp_reference] at hoverlay
      exact stamp_reversed (h.reversed a ha hoverlay) r
    · rw [IsOverlay, stamp_reference] at hoverlay
      exact absurd hoverlay hother
  · obtain ⟨e, v, hov⟩ := h.overlays x hx
    exact ⟨_, _, hov.grow _ r⟩

/-- The entry of a revaluation and the reversal behind it. -/
def entered (ground : Ground) (request : Request) (entries : List Entry) (posting : Posting) :
    List Entry :=
  let entry := posting.entry (ground.ids entries.length) none
  let reversal := reversalPosting entry (isoformat request.periodEnd.next)
  grown (grown entries entry none)
    (reversal.entry (ground.ids (entries.length + 1)) (some entry.id)) (some entry.id)

theorem entered_length (ground : Ground) (request : Request) (entries : List Entry)
    (posting : Posting) : (entered ground request entries posting).length = entries.length + 2 := by
  unfold entered
  dsimp only
  rw [grown_length, grown_length]

theorem revalue_cases (ground : Ground) (request : Request) (books : Books) :
    (∃ raised, revalue ground request books = (.error raised, books)) ∨
      request.locked (isoformat request.periodEnd) = none ∧
      request.locked (isoformat request.periodEnd.next) = none ∧
      validate request (exposure request books.entries) = .ok () ∧
      revalue ground request books = postRows ground request books (plan request books) := by
  unfold revalue
  cases hclosing : request.locked (isoformat request.periodEnd) with
  | some refused => exact .inl ⟨refused, rfl⟩
  | none =>
    cases hnext : request.locked (isoformat request.periodEnd.next) with
    | some refused => exact .inl ⟨refused, rfl⟩
    | none =>
      cases hvalid : validate request (exposure request books.entries) with
      | error raised => exact .inl ⟨raised, rfl⟩
      | ok checked => exact .inr ⟨rfl, rfl, rfl, rfl⟩

/-- What a run posts: for which closing day and key, and how much. -/
def Run.amount (x : Run) : Day × Key × ℤ := (x.periodEnd, x.key, x.deltaPaise)

theorem post_row_records {row : PlanRow} {adjustment : Adjustment}
    (h : (postRow ground request books row).1 = .ok adjustment) :
    ∃ runs, (postRow ground request books row).2.revaluations = books.revaluations ++ runs ∧
      runs.map Run.amount =
        ([row].filter PlanRow.posts).map fun row => (request.periodEnd, row.key, row.delta) := by
  unfold postRow at h ⊢
  cases hplanned : row.planned with
  | error gap =>
    rw [hplanned] at h
    cases h
  | ok planned =>
    have hdelta : row.delta = planned.deltaPaise := by rw [PlanRow.delta, hplanned]
    rw [hplanned] at h
    dsimp only at h ⊢
    split_ifs at h ⊢ with hzero
    · refine ⟨[], (List.append_nil _).symm, ?_⟩
      simp [PlanRow.posts, hdelta, hzero]
    · split at h
      · cases h
      · split at h
        · cases h
        · refine ⟨[_], rfl, ?_⟩
          simp [PlanRow.posts, hdelta, hzero, Run.amount]

/-- What is recorded is the plan, row by row. -/
theorem post_rows_records {rows : List PlanRow} {adjustments : List Adjustment}
    (h : (postRows ground request books rows).1 = .ok adjustments) :
    ∃ runs, (postRows ground request books rows).2.revaluations = books.revaluations ++ runs ∧
      runs.map Run.amount =
        (rows.filter PlanRow.posts).map fun row => (request.periodEnd, row.key, row.delta) := by
  induction rows generalizing books adjustments with
  | nil => exact ⟨[], (List.append_nil _).symm, rfl⟩
  | cons row rows ih =>
    rw [postRows] at h ⊢
    dsimp only at h ⊢
    split at h
    · cases h
    · rename_i adjustment hok
      obtain ⟨first, hfirst, hamounts⟩ := post_row_records hok
      cases hrest : (postRows ground request (postRow ground request books row).2 rows).1 with
      | error raised =>
        rw [hrest] at h
        cases h
      | ok others =>
        obtain ⟨rest, hrecords, hothers⟩ := ih hrest
        refine ⟨first ++ rest, ?_, ?_⟩
        · rw [hrecords, hfirst, List.append_assoc]
        · rw [List.map_append, hamounts, hothers, ← List.map_append, ← List.filter_append,
            List.singleton_append]

theorem posted_append (runs more : List Run) (periodEnd : Day) (key : Key) :
    posted (runs ++ more) periodEnd key =
      posted runs periodEnd key + posted more periodEnd key := by
  simp [posted, priorRuns]

/-- Rows with a key each post for a key what its own row comes to. -/
theorem posted_planned {rows : List PlanRow} {runs : List Run} {periodEnd : Day}
    (hkeys : (rows.map PlanRow.key).Nodup)
    (hruns : runs.map Run.amount =
      (rows.filter PlanRow.posts).map fun row => (periodEnd, row.key, row.delta))
    {row : PlanRow} (hrow : row ∈ rows) : posted runs periodEnd row.key = row.delta := by
  have hsplit : posted runs periodEnd row.key =
      ((runs.map Run.amount).map fun a =>
        if a.1 = periodEnd ∧ a.2.1 = row.key then a.2.2 else 0).sum := by
    unfold posted priorRuns
    rw [sum_filter (fun x : Run => x.periodEnd = periodEnd ∧ x.key = row.key) Run.deltaPaise runs,
      List.map_map]
    rfl
  have hzero : ((rows.filter PlanRow.posts).map fun other =>
      if other.key = row.key then other.delta else 0).sum =
      (rows.map fun other => if other.key = row.key then other.delta else 0).sum := by
    have hfilter := sum_filter (fun other : PlanRow => other.posts = true)
      (fun other => if other.key = row.key then other.delta else 0) rows
    simp only [Bool.decide_eq_true] at hfilter
    rw [hfilter]
    refine congrArg List.sum (List.map_congr_left fun other _ => ?_)
    by_cases hposts : other.posts = true
    · rw [if_pos hposts]
    · have hnone : other.delta = 0 := by simpa [PlanRow.posts] using hposts
      rw [if_neg hposts, hnone, ite_self]
  rw [hsplit, hruns, List.map_map]
  simp only [Function.comp_def, true_and]
  rw [hzero, sum_only (List.Nodup.of_map _ hkeys) hrow, if_pos rfl]
  intro other hother hne
  rw [if_neg fun hkey => hne (List.inj_on_of_nodup_map hkeys hother hrow hkey)]

theorem plan_keys (request : Request) (books : Books) :
    ((plan request books).map PlanRow.key).Nodup := by
  have hkeys : (plan request books).map PlanRow.key =
      ((exposure request books.entries).insertionSort fun a b => a.1.order ≤ b.1.order).map
        Prod.fst := by
    rw [plan, List.map_map]
    rfl
  rw [hkeys]
  have hperm := (List.perm_insertionSort
    (fun a b : Key × ℤ × ℤ => a.1.order ≤ b.1.order) (exposure request books.entries)).map Prod.fst
  exact hperm.nodup_iff.mpr (exposure_nodup request books.entries)

theorem mem_plan {x : Key × ℤ × ℤ} (h : x ∈ exposure request books.entries) :
    planRow request books.revaluations x ∈ plan request books :=
  List.mem_map_of_mem ((List.mem_insertionSort _).mpr h)

/-- A plan that has nothing left to post posts nothing. -/
theorem post_rows_nothing (ground : Ground) (books : Books) {rows : List PlanRow}
    (h : ∀ row ∈ rows, ∃ planned, row.planned = .ok planned ∧ planned.deltaPaise = 0) :
    ∃ adjustments, postRows ground request books rows = (.ok adjustments, books) ∧
      ∀ a ∈ adjustments, a.journal = none := by
  induction rows with
  | nil => exact ⟨[], rfl, fun a ha => nomatch ha⟩
  | cons row rows ih =>
    obtain ⟨⟨planned, hplanned, hzero⟩, hrest⟩ := List.forall_mem_cons.mp h
    obtain ⟨adjustments, hrows, hnone⟩ := ih hrest
    have hrow : postRow ground request books row =
        (.ok ⟨row.key, planned.targetPaise, 0, none⟩, books) := by
      unfold postRow
      rw [hplanned]
      dsimp only
      rw [if_pos hzero]
    refine ⟨⟨row.key, planned.targetPaise, 0, none⟩ :: adjustments, ?_, ?_⟩
    · rw [postRows, hrow]
      dsimp only
      rw [hrows]
      rfl
    · exact List.forall_mem_cons.mpr ⟨rfl, hnone⟩

theorem Journalled.same (h : Journalled ground entries) {e e' : Entry} (he : e ∈ entries)
    (he' : e' ∈ entries) (hid : e.id = e'.id) : e = e' := by
  obtain ⟨i, hi, rfl⟩ := List.mem_iff_getElem.mp he
  obtain ⟨j, hj, rfl⟩ := List.mem_iff_getElem.mp he'
  rw [h.numbered i hi, h.numbered j hj] at hid
  have hij := ground.ids.injective hid
  subst hij
  rfl

end

/-- A firm with one invoice in dollars, booked at eighty rupees. -/
def dollars (rate : ℚ) : Request where
  clientId := "client"
  periodEnd := .of 2026 3 31
  closingRates := [("USD", rate)]
  invoices := [⟨"USD", 8000000, 0, 0, 0, 100000, 0, "issued", "2026-01-10"⟩]
  bills := []
  bankAccounts := []
  foreignLines := []
  currencies := [("USD", 2)]
  chart := [⟨"fx", none, "Foreign Exchange", some "fx_unrealized", true⟩,
    ⟨"debtors", none, "Trade Receivables", some "ar", true⟩]
  locked := fun _ => none

/-- A revaluation that is answered has posted what its plan showed, and no more; what all the runs
of its closing day come to is then, key by key, the adjustment the closing rates ask for; and asked
for again, it posts nothing. -/
theorem revalued_to_closing_rates (ground : Ground) (request : Request) (books : Books)
    {adjustments : List Adjustment}
    (h : (revalue ground request books).1 = .ok adjustments) :
    (∃ runs, (revalue ground request books).2.revaluations = books.revaluations ++ runs ∧
      runs.map Run.amount =
        ((plan request books).filter PlanRow.posts).map
          fun row => (request.periodEnd, row.key, row.delta)) ∧
    (∀ x ∈ exposure request books.entries, ∃ rate adjustment,
      target request x.1 x.2 = .ok (rate, adjustment) ∧
      posted (revalue ground request books).2.revaluations request.periodEnd x.1 = adjustment) ∧
    ∃ again, revalue ground request (revalue ground request books).2 =
      (.ok again, (revalue ground request books).2) ∧ ∀ a ∈ again, a.journal = none := by
  rcases revalue_cases ground request books with
    ⟨raised, hraised⟩ | ⟨hclosing, hnext, hvalid, hposts⟩
  · rw [hraised] at h
    cases h
  rw [hposts] at h
  obtain ⟨runs, hrecords, hruns⟩ := post_rows_records h
  have hreached : ∀ x ∈ exposure request books.entries, ∃ rate adjustment,
      target request x.1 x.2 = .ok (rate, adjustment) ∧
      posted (revalue ground request books).2.revaluations request.periodEnd x.1 = adjustment := by
    intro x hx
    obtain ⟨rate, adjustment, htarget⟩ := validated_targets hvalid x hx
    refine ⟨rate, adjustment, htarget, ?_⟩
    have hown := posted_planned (plan_keys request books) hruns (mem_plan hx)
    have hdelta : (planRow request books.revaluations x).delta =
        adjustment - posted books.revaluations request.periodEnd x.1 := by
      unfold PlanRow.delta planRow
      rw [htarget]
      rfl
    rw [hdelta] at hown
    rw [hposts, hrecords, posted_append]
    change _ + posted runs request.periodEnd (planRow request books.revaluations x).key = _
    rw [hown]
    exact add_sub_cancel _ _
  refine ⟨⟨runs, by rw [hposts]; exact hrecords, hruns⟩, hreached, ?_⟩
  set after := (revalue ground request books).2 with hafter
  have hexposed : exposure request after.entries = exposure request books.entries :=
    (exposure_kept request _).trans (exposure_kept request _).symm
  have hsettled : ∀ row ∈ plan request after,
      ∃ planned, row.planned = .ok planned ∧ planned.deltaPaise = 0 := by
    intro row hrow
    obtain ⟨x, hx, rfl⟩ := List.mem_map.mp hrow
    rw [List.mem_insertionSort, hexposed] at hx
    obtain ⟨rate, adjustment, htarget, hposted⟩ := hreached x hx
    refine ⟨⟨rate, adjustment, posted after.revaluations request.periodEnd x.1,
      (priorRuns after.revaluations request.periodEnd x.1).length⟩, ?_, ?_⟩
    · unfold planRow
      rw [htarget]
      rfl
    · rw [Planned.deltaPaise, hposted, sub_self]
  obtain ⟨again, hagain, hnone⟩ := post_rows_nothing ground after hsettled
  refine ⟨again, ?_, hnone⟩
  rw [← hagain]
  unfold revalue
  rw [hclosing, hnext, hexposed, hvalid]

theorem dollars_reach_the_closing_rate : ∃ adjustments,
    (revalue .plain (dollars 83) ⟨[], []⟩).1 = .ok adjustments ∧
    ∀ x ∈ exposure (dollars 83) [], ∃ rate adjustment,
      target (dollars 83) x.1 x.2 = .ok (rate, adjustment) ∧
      posted (revalue .plain (dollars 83) ⟨[], []⟩).2.revaluations (dollars 83).periodEnd x.1 =
        adjustment := by
  cases h : (revalue .plain (dollars 83) ⟨[], []⟩).1 with
  | error raised =>
    have hok : (revalue .plain (dollars 83) ⟨[], []⟩).1.isOk = true := by decide +kernel
    rw [h] at hok
    cases hok
  | ok adjustments =>
    exact ⟨adjustments, rfl, (revalued_to_closing_rates .plain (dollars 83) ⟨[], []⟩ h).2.1⟩

end Caflow.Currency.Revaluation
