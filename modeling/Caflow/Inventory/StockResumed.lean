import Caflow.Inventory.StockResume

set_option linter.all false

namespace Caflow.Inventory.StockResume
open Rounding Accounting Documents Resumed

/-- A row, whichever journal carries it. -/
def unlinked (row : ItemRow) : ItemRow := { row with journalEntryId := none }

def Books.rows (books : Books) : List ItemRow := books.ledger.map unlinked

section
variable {L ω : Type} {task : Task L ω} {rowIds : ℕ → String} {books : Books}

/-- Every quantity of the document is one a column of three decimals can hold. -/
def Task.InThousandths (task : Task L ω) : Prop :=
  ∀ l ∈ task.lines, inThousandths (task.quantity l.line) = task.quantity l.line

/-- The document has moved no stock yet. -/
def Task.Unrecorded (task : Task L ω) (books : Books) : Prop :=
  ∀ row ∈ books.ledger, task.owns row = false

/-- What recording a line promises a retry: rows of the document that move the line's quantity,
and that are worth to the journal what the line is, unless the retry refuses them. -/
structure Task.Promise (task : Task L ω) (rowIds : ℕ → String) : Prop where
  owned : ∀ {rows line m}, task.record rows line = .ok m → m.1.sourceType = task.sourceType ∧
    m.1.sourceId = task.sourceId ∧ m.1.movementType = task.movementType
  quantity : ∀ {rows line m}, task.record rows line = .ok m →
    m.1.quantityDelta = task.quantity line ∨ m.1.quantityDelta = -task.quantity line
  worth : ∀ {ledger item line m}, task.record (ofItem ledger item) line = .ok m →
    inThousandths (task.quantity line) = task.quantity line →
    (task.refuse = .none ∨ wasShortWhenRecorded (store rowIds ledger item m.1) = false) →
    (∀ cost ∈ task.costPaise line, m.1.valueDeltaPaise = cost) ∧
      task.worth (store rowIds ledger item m.1) line = m.2
  charged : task.landedCosts = true → task.refuse ≠ .none ∧
    ∀ l ∈ task.lines, ∃ cost ∈ task.costPaise l.line, cost ≠ 0
  capped : task.lines.length ≤ rowCap

theorem work_recorded {ledger : List ItemRow} {line : ItemLine L}
    {m : ItemRow × ω} (h : (task.work rowIds).record ledger line = .ok m) :
    ∃ row, task.record (ofItem ledger line.item) line.line = .ok (row, m.2) ∧
      m.1 = store rowIds ledger line.item row := by
  obtain ⟨⟨row, worth⟩, hrow, rfl⟩ := map_ok h
  exact ⟨row, hrow, rfl⟩

theorem work_key (task : Task L ω) (rowIds : ℕ → String) (ledger : List ItemRow)
    (line : ItemLine L) (m : ItemRow × ω)
    (h : (task.work rowIds).record ledger line = .ok m) :
    (task.work rowIds).rowKey m.1 = (task.work rowIds).key line := by
  obtain ⟨row, -, hm⟩ := work_recorded h
  rw [hm]
  rfl

theorem work_owns (hpromise : task.Promise rowIds) {ledger : List ItemRow} {line : ItemLine L}
    {m : ItemRow × ω} (h : (task.work rowIds).record ledger line = .ok m) :
    task.owns m.1 = true := by
  obtain ⟨row, hrow, hm⟩ := work_recorded h
  rw [hm]
  exact decide_eq_true (hpromise.owned hrow)

theorem same_quantity_stored {row : StockRow} {q : ℚ} (hq : inThousandths q = q)
    (h : row.quantityDelta = q ∨ row.quantityDelta = -q) (ledger : List ItemRow) (item : String) :
    sameQuantity (store rowIds ledger item row) q = true := by
  apply decide_eq_true
  change |inThousandths row.quantityDelta| = |q|
  rcases h with h | h
  · rw [h, hq]
  · rw [h, in_thousandths_neg, hq, abs_neg]

/-- A row that was not short goes to the line it was written for, at what it was worth. -/
theorem row_taken (hpromise : task.Promise rowIds) {ledger : List ItemRow} {line : ItemLine L}
    {m : ItemRow × ω} (h : (task.work rowIds).record ledger line = .ok m)
    (hq : inThousandths (task.quantity line.line) = task.quantity line.line)
    (hshort : task.refuse = .none ∨ wasShortWhenRecorded m.1 = false) :
    (task.work rowIds).Taken line m := by
  obtain ⟨row, hrow, hm⟩ := work_recorded h
  rw [hm] at hshort
  obtain ⟨hcost, hworth⟩ := hpromise.worth hrow hq hshort
  refine ⟨?_, ?_⟩
  · rw [hm]
    change refusal _ _ _ _ = none
    unfold refusal
    rw [same_quantity_stored hq (hpromise.quantity hrow)]
    rw [if_neg (by decide), if_neg, if_neg]
    · rintro ⟨-, cost, hmem, hne⟩
      exact hne (hcost cost hmem)
    · rintro ⟨hrule, hrow⟩
      rcases hshort with hnone | hnot
      · exact hrule hnone
      · rw [hnot] at hrow
        cases hrow
  · rw [hm]
    exact congrArg some hworth

/-- A row that was short is refused where the rule says so. -/
theorem short_refused {row : ItemRow} {line : ItemLine L} (hrule : task.refuse ≠ .none)
    (hshort : wasShortWhenRecorded row = true) (hunlinked : row.journalEntryId = none) :
    (task.work rowIds).refusal row line ≠ none := by
  change refusal _ _ _ _ ≠ none
  unfold refusal
  split_ifs with h₁ h₂ h₃ h₄
  · simp
  · simp
  · exact absurd (.inr hunlinked) h₃
  · simp
  · exact absurd ⟨hrule, hshort⟩ h₂

/-- The rows a first run writes are recorded one a line. -/
theorem run_rows (task : Task L ω) (rowIds : ℕ → String) (ledger : List ItemRow) :
    ∀ row ∈ ((task.work rowIds).run ledger task.lines).written,
      ∃ before, ∃ line ∈ task.lines, ∃ worth,
        (task.work rowIds).record before line = .ok (row, worth) := by
  intro row hrow
  rw [Work.run_written] at hrow
  obtain ⟨m, hm, rfl⟩ := List.mem_map.mp hrow
  have hlength := Work.run_length (w := task.work rowIds) ledger task.lines
  obtain ⟨i, hi, rfl⟩ := List.mem_iff_getElem.mp hm
  have hzip : (task.lines[i], ((task.work rowIds).run ledger task.lines).owing[i]) ∈
      task.lines.zip ((task.work rowIds).run ledger task.lines).owing := by
    rw [List.mem_iff_getElem]
    exact ⟨i, by rw [List.length_zip]; omega, List.getElem_zip⟩
  obtain ⟨before, h⟩ := Work.run_recorded ledger task.lines _ hzip
  exact ⟨before, _, List.getElem_mem _, _, h⟩

/-- The rows a retry finds are those the stopped run wrote, in the order it wrote them. -/
theorem prior_own (hpromise : task.Promise rowIds) (hfirst : task.Unrecorded books) (k : ℕ) :
    task.prior (task.stoppedAfter rowIds k books) =
      ((task.work rowIds).run books.ledger task.lines).written.take k := by
  have hold : books.ledger.filter task.owns = [] := by
    rw [List.filter_eq_nil_iff]
    intro row hrow
    rw [hfirst row hrow]
    exact Bool.false_ne_true
  have hnew : (((task.work rowIds).run books.ledger task.lines).written.take k).filter task.owns =
      ((task.work rowIds).run books.ledger task.lines).written.take k := by
    rw [List.filter_eq_self]
    intro row hrow
    obtain ⟨before, line, -, worth, h⟩ := run_rows task rowIds books.ledger row
      (List.mem_of_mem_take hrow)
    exact work_owns hpromise h
  unfold Task.prior Task.stoppedAfter
  rw [List.filter_append, hold, hnew, List.nil_append, unpaged_whole]
  have hlength := Work.run_length (w := task.work rowIds) books.ledger task.lines
  rw [List.length_take, Work.run_written, List.length_map]
  exact (min_le_right _ _).trans (hlength.trans hpromise.capped)

/-- A row that no retry of this document completes. -/
def Task.Incompletable (task : Task L ω) (rows : List ItemRow) : Prop :=
  (task.refuse ≠ .none ∧ ∃ row ∈ rows, wasShortWhenRecorded row = true) ∨
    (task.landedCosts = true ∧ rows ≠ [])

theorem own_taken (hpromise : task.Promise rowIds) (hq : task.InThousandths) (k : ℕ)
    (hrows : task.refuse = .none ∨
      ∀ row ∈ ((task.work rowIds).run books.ledger task.lines).written.take k,
        wasShortWhenRecorded row = false) :
    ∀ p ∈ task.lines.zip (((task.work rowIds).run books.ledger task.lines).owing.take k),
      (task.work rowIds).Taken p.1 p.2 := by
  rintro ⟨line, m⟩ hp
  obtain ⟨hline, hm⟩ := List.of_mem_zip hp
  have hwhole : (line, m) ∈ task.lines.zip ((task.work rowIds).run books.ledger task.lines).owing := by
    rw [List.mem_iff_getElem] at hp ⊢
    obtain ⟨i, hi, hpair⟩ := hp
    rw [List.length_zip, List.length_take] at hi
    refine ⟨i, by rw [List.length_zip]; omega, ?_⟩
    rw [List.getElem_zip] at hpair ⊢
    rwa [List.getElem_take] at hpair
  obtain ⟨before, h⟩ := Work.run_recorded books.ledger task.lines _ hwhole
  refine row_taken hpromise h (hq line hline) (hrows.imp_right fun hall => hall m.1 ?_)
  rw [Work.run_written, ← List.map_take]
  exact List.mem_map_of_mem hm

/-- A retry after a stopped run ends where one run of the document ends, but for what it posts. -/
theorem retry_finishes (hpromise : task.Promise rowIds) (hq : task.InThousandths)
    (hfirst : task.Unrecorded books) (k : ℕ)
    (hrows : ¬ task.Incompletable
      (((task.work rowIds).run books.ledger task.lines).written.take k)) :
    task.apply rowIds true (task.stoppedAfter rowIds k books) =
      task.finish true books ((task.work rowIds).run books.ledger task.lines) := by
  unfold Task.Incompletable at hrows
  push Not at hrows
  obtain ⟨hshort, hlanded⟩ := hrows
  have hnot : task.refuse = .none ∨
      ∀ row ∈ ((task.work rowIds).run books.ledger task.lines).written.take k,
        wasShortWhenRecorded row = false := by
    rcases eq_or_ne task.refuse .none with hnone | hrule
    · exact .inl hnone
    · exact .inr fun row hrow => Bool.eq_false_iff.mpr (hshort hrule row hrow)
  obtain ⟨hrehearse, hresume⟩ := Work.resume_own (work_key task rowIds)
    task.lines books.ledger k (own_taken hpromise hq k hnot)
  have hasked : task.refusedFor rowIds
      (((task.work rowIds).run books.ledger task.lines).written.take k) = none := by
    unfold Task.refusedFor
    rw [if_neg, hrehearse]
    rintro ⟨hany, hcosts⟩
    rw [hlanded hcosts] at hany
    cases hany
  unfold Task.apply
  rw [if_pos rfl, prior_own hpromise hfirst, hasked]
  dsimp only
  unfold Task.stoppedAfter
  rw [hresume]
  unfold Task.finish
  dsimp only
  rw [List.append_assoc, List.take_append_drop]

/-- What a walk that refuses nothing hands its lines, none of them refuses. -/
theorem short_never_rehearsed (task : Task L ω) (rowIds : ℕ → String) (k : ℕ) {row : ItemRow}
    (hrow : row ∈ ((task.work rowIds).run books.ledger task.lines).written.take k)
    (hrule : task.refuse ≠ .none) (hshort : wasShortWhenRecorded row = true) :
    (task.work rowIds).rehearse
      (((task.work rowIds).run books.ledger task.lines).written.take k) task.lines ≠ none := by
  intro hnone
  obtain ⟨before, written, -, worth, h⟩ := run_rows task rowIds books.ledger row
    (List.mem_of_mem_take hrow)
  have hunlinked : row.journalEntryId = none := by
    obtain ⟨stock, -, hstored⟩ := work_recorded h
    dsimp only at hstored
    rw [hstored]
    rfl
  obtain ⟨i, hi, hget⟩ := List.mem_iff_getElem.mp hrow
  have hlength := Work.run_length (w := task.work rowIds) books.ledger task.lines
  have hline : i < task.lines.length := by
    rw [List.length_take, Work.run_written, List.length_map] at hi
    omega
  have hhand := Work.hand_own (work_key task rowIds) task.lines
    books.ledger k i
  rw [List.getElem?_eq_getElem hline, List.getElem?_eq_getElem hi, hget] at hhand
  have hmem := List.mem_of_getElem? hhand
  exact short_refused hrule hshort hunlinked (Work.rehearse_none_iff.mp hnone _ hmem row rfl)

theorem incompletable_refused (hpromise : task.Promise rowIds) (hq : task.InThousandths) (k : ℕ)
    (hrows : task.Incompletable
      (((task.work rowIds).run books.ledger task.lines).written.take k)) :
    task.refusedFor rowIds
      (((task.work rowIds).run books.ledger task.lines).written.take k) ≠ none := by
  unfold Task.refusedFor
  split_ifs with hheld
  · simp
  · rcases hrows with ⟨hrule, row, hrow, hshort⟩ | ⟨hcosts, hne⟩
    · exact short_never_rehearsed task rowIds k hrow hrule hshort
    · obtain ⟨hrule, hcharged⟩ := hpromise.charged hcosts
      obtain ⟨row, hrow⟩ := List.exists_mem_of_ne_nil _ hne
      cases hshort : wasShortWhenRecorded row with
      | true => exact short_never_rehearsed task rowIds k hrow hrule hshort
      | false =>
        obtain ⟨before, line, hline, worth, h⟩ := run_rows task rowIds books.ledger row
          (List.mem_of_mem_take hrow)
        obtain ⟨stock, hstock, hstored⟩ := work_recorded h
        dsimp only at hstock hstored
        obtain ⟨cost, hcost, hpositive⟩ := hcharged line hline
        rw [hstored] at hshort
        have hvalue := (hpromise.worth hstock (hq line hline) (.inr hshort)).1 cost hcost
        refine absurd ⟨List.any_eq_true.mpr ⟨row, hrow, decide_eq_true ?_⟩, hcosts⟩ hheld
        rw [hstored]
        exact ⟨rfl, hvalue ▸ hpositive⟩

/-- A retry that cannot be exact says so, and writes nothing. -/
theorem retry_held_back (hpromise : task.Promise rowIds) (hq : task.InThousandths)
    (hfirst : task.Unrecorded books) (k : ℕ)
    (hrows : task.Incompletable
      (((task.work rowIds).run books.ledger task.lines).written.take k)) :
    ∃ sentence, task.apply rowIds true (task.stoppedAfter rowIds k books) =
      (task.stoppedAfter rowIds k books, .heldBack sentence) := by
  obtain ⟨sentence, hsentence⟩ :=
    Option.ne_none_iff_exists'.mp (incompletable_refused hpromise hq k hrows)
  refine ⟨sentence, ?_⟩
  unfold Task.apply
  rw [if_pos rfl, prior_own hpromise hfirst, hsentence]

end

theorem unpaged_length (rows : List α) : (unpaged rows).length ≤ rowCap := by
  unfold unpaged
  exact List.length_take_le _ _

theorem goods_lines_capped (lines : List (ItemLine GoodsLine)) :
    (goodsLines lines).length ≤ rowCap :=
  (List.length_filter_le _ _).trans (unpaged_length lines)

/-- Goods received while the stock was not short go into stock at their whole cost. -/
theorem received_whole (rowIds : ℕ → String) {ledger : List ItemRow} {item : String} {q : ℚ}
    {costPaise : ℤ} {type : MovementType} {source : SourceType} {sourceId : String}
    {m : StockRow × ℤ}
    (h : recordStockIn (ofItem ledger item) type source sourceId q costPaise = .ok m)
    (hq : inThousandths q = q)
    (hshort : wasShortWhenRecorded (store rowIds ledger item m.1) = false) :
    m.1.valueDeltaPaise = costPaise ∧ m.2 = 0 := by
  obtain ⟨r, hr, rfl⟩ := map_ok h
  obtain ⟨hpos, -, hdelta, hrunning, hcases⟩ := stock_in_cases hr
  have hprev : inThousandths (prevQty (tail (ofItem ledger item))) =
      prevQty (tail (ofItem ledger item)) := by
    unfold tail ofItem
    rw [List.getLast?_map]
    cases (ledger.filter fun r => r.item = item).getLast? with
    | none => exact in_thousandths_iff.mpr ⟨0, by simp⟩
    | some row => exact row.stored
  have hbefore : 0 ≤ prevQty (tail (ofItem ledger item)) := by
    have hstored : ¬ (inThousandths r.movement.runningQtyUnits -
        inThousandths r.movement.quantityDelta < 0) := of_decide_eq_false hshort
    rw [hrunning, hdelta, in_thousandths_add hprev hq, hq] at hstored
    linarith
  rcases hcases with ⟨hclosed, -⟩ | ⟨-, htrueup, hvalue, -⟩
  · linarith
  · rw [deficit_cost_of_nonneg hbefore] at htrueup
    exact ⟨by dsimp only; omega, htrueup⟩

theorem record_stock_out_cases {ledger : List StockRow} {method : Method} {layers : List Layer}
    {type : MovementType} {source : SourceType} {sourceId : String} {q : ℚ} {row : StockRow}
    (h : recordStockOut ledger method layers type source sourceId q = .ok row) :
    row.sourceType = source ∧ row.sourceId = sourceId ∧ row.movementType = type ∧
      row.quantityDelta = -q := by
  obtain ⟨m, hm, rfl⟩ := map_ok h
  refine ⟨rfl, rfl, rfl, ?_⟩
  cases method with
  | movingAverage => exact (stock_out_cases hm).1.delta
  | fifo => exact (stock_out_fifo_cases hm).1.delta

namespace Setting
variable (setting : Setting)

theorem issue_promise {type : MovementType} {source : SourceType} {sourceId : String}
    {lines : List (ItemLine GoodsLine)}
    {post : Bool → List (ItemRow × ℤ) → Books → Books × JournalState}
    (hcapped : lines.length ≤ rowCap) :
    (setting.issueTask type source sourceId lines post).Promise setting.rowIds where
  owned := by
    intro rows line m h
    obtain ⟨row, hrow, rfl⟩ := map_ok h
    obtain ⟨hsource, hid, htype, -⟩ := record_stock_out_cases hrow
    exact ⟨hsource, hid, htype⟩
  quantity := by
    intro rows line m h
    obtain ⟨row, hrow, rfl⟩ := map_ok h
    exact .inr (record_stock_out_cases hrow).2.2.2
  worth := by
    intro ledger item line m h _ _
    obtain ⟨row, hrow, rfl⟩ := map_ok h
    refine ⟨fun cost hcost => ?_, rfl⟩
    cases hcost
  charged := by
    intro hcosts
    cases hcosts
  capped := hcapped

theorem credit_note_promise (note : CreditNote) :
    (setting.creditNoteTask note).Promise setting.rowIds where
  owned := by
    intro rows line m h
    obtain ⟨received, hreceived, rfl⟩ := map_ok h
    obtain ⟨r, -, rfl⟩ := map_ok hreceived
    exact ⟨rfl, rfl, rfl⟩
  quantity := by
    intro rows line m h
    obtain ⟨received, hreceived, rfl⟩ := map_ok h
    obtain ⟨r, hr, rfl⟩ := map_ok hreceived
    exact .inl (stock_in_cases hr).2.2.1
  worth := by
    intro ledger item line m h hq hshort
    obtain ⟨received, hreceived, rfl⟩ := map_ok h
    have hnot := hshort.resolve_left (by simp [creditNoteTask])
    refine ⟨fun cost hcost => ?_, (received_whole _ hreceived hq hnot).1⟩
    cases hcost
  charged := by
    intro hcosts
    cases hcosts
  capped := by
    change List.length (if _ then _ else _) ≤ _
    split
    · exact Nat.zero_le _
    · exact goods_lines_capped _

theorem purchase_promise (bill : PurchaseBill) :
    (setting.purchaseTask bill).Promise setting.rowIds where
  owned := by
    intro rows line m h
    obtain ⟨received, hreceived, rfl⟩ := map_ok h
    obtain ⟨r, -, rfl⟩ := map_ok hreceived
    exact ⟨rfl, rfl, rfl⟩
  quantity := by
    intro rows line m h
    obtain ⟨received, hreceived, rfl⟩ := map_ok h
    obtain ⟨r, hr, rfl⟩ := map_ok hreceived
    exact .inl (stock_in_cases hr).2.2.1
  worth := by
    intro ledger item line m h hq hshort
    obtain ⟨received, hreceived, rfl⟩ := map_ok h
    have hnot := hshort.resolve_left (by simp [purchaseTask])
    obtain ⟨hvalue, htrueup⟩ := received_whole _ hreceived hq hnot
    refine ⟨fun cost hcost => ?_, ?_⟩
    · rw [← Option.some.inj hcost]
      exact hvalue
    · dsimp only
      rw [htrueup, if_neg (lt_irrefl 0)]
      rfl
  charged := by
    refine fun _ => ⟨by simp [purchaseTask], fun l hl => ⟨costOf l.line, rfl, ?_⟩⟩
    have hcost := of_decide_eq_true (List.mem_filter.mp hl).2
    exact ne_of_gt hcost.2.2
  capped := (List.length_filter_le _ _).trans (unpaged_length _)

theorem task_promise (document : Document) :
    (setting.task document).Promise setting.rowIds := by
  cases document with
  | purchase bill => exact setting.purchase_promise bill
  | sale invoice => exact setting.issue_promise (goods_lines_capped _)
  | creditNote note => exact setting.credit_note_promise note
  | debitNote note =>
    refine setting.issue_promise ?_
    split
    · exact Nat.zero_le _
    · exact goods_lines_capped _

/-- A stock journal changes nothing of the rows but which journal they name. -/
theorem journalise_rows (posting : Kernel.Posting) (moved : List String) (books : Books) :
    (setting.journalise posting moved books).1.rows = books.rows := by
  unfold journalise stampRows
  split
  · unfold Books.rows
    rw [List.map_map]
    congr 1
    funext row
    dsimp only [Function.comp, stampRow]
    split <;> rfl
  · rfl

theorem post_transfer_rows (posting : List JournalLine → Kernel.Posting) (debit credit : String)
    (owing : List (ItemRow × ℤ)) (books : Books) :
    (setting.postTransfer posting debit credit owing books).1.rows = books.rows := by
  unfold postTransfer
  dsimp only
  split
  · rfl
  · exact setting.journalise_rows _ _ _

theorem post_grouped_rows (posting : List JournalLine → Kernel.Posting) (debit : String)
    (items : List (Option String × ℤ)) (moved : List String) (state : JournalState)
    (books : Books) :
    (setting.postGrouped posting debit items moved state books).1.rows = books.rows := by
  unfold postGrouped
  dsimp only
  split_ifs
  · rfl
  · rfl
  · exact setting.journalise_rows _ _ _

theorem post_rows (document : Document) (resume : Bool)
    (owing : List (ItemRow × document.Worth)) (books : Books) :
    ((setting.task document).post resume owing books).1.rows = books.rows := by
  cases document with
  | purchase bill =>
    exact (setting.post_grouped_rows _ _ _ _ _ _).trans (setting.post_grouped_rows _ _ _ _ _ _)
  | sale invoice => exact setting.post_transfer_rows _ _ _ _ _
  | creditNote note => exact setting.post_transfer_rows _ _ _ _ _
  | debitNote note => exact setting.post_transfer_rows _ _ _ _ _

end Setting

/-- No entry of the type a stock journal has stands for the document yet. -/
def Task.Unposted (task : Task L ω) (books : Books) : Prop :=
  Kernel.liveEntryOfSource books.entries (some (sourceText task.sourceType)) task.sourceId
    "Journal" = none

/-- What a retry posts, beside what a first run posts on the same books. -/
structure Again (first again : Books × β) (free : Prop) : Prop where
  entries : again.1.entries = first.1.entries
  same : free → again = first

namespace Setting
variable (setting : Setting)

theorem stamp_rows_entries (moved : List String) (ledger : List ItemRow)
    (answer : Except Failure String × List Kernel.Entry) :
    (stampRows moved ledger answer).1.entries = answer.2 := by
  unfold stampRows
  split <;> rfl

theorem journalise_again (hsound : setting.link = .sound) {source : SourceType}
    {sourceId : String} {books : Books}
    (hunposted : Kernel.liveEntryOfSource books.entries (some (sourceText source)) sourceId
      "Journal" = none) (date reference document : String) (lines : List JournalLine)
    (moved : List String) :
    Again (setting.journalise (stockPosting source sourceId date reference none lines) moved books)
      (setting.journalise (stockPosting source sourceId date reference (some document) lines) moved
        books) (∀ e ∈ books.entries, ¬ e.LiveAt reference date) := by
  obtain ⟨hentries, hsame⟩ := Kernel.create_journal_again setting.ground books.entries
    (stockPosting source sourceId date reference none lines) none document rfl hunposted
  unfold journalise
  rw [hsound]
  refine ⟨?_, fun hfree => congrArg (stampRows moved books.ledger) (hsame hfree)⟩
  rw [stamp_rows_entries, stamp_rows_entries]
  exact hentries

theorem post_transfer_again (hsound : setting.link = .sound) {source : SourceType}
    {sourceId : String} {books : Books}
    (hunposted : Kernel.liveEntryOfSource books.entries (some (sourceText source)) sourceId
      "Journal" = none) (date reference document debit credit : String)
    (owing : List (ItemRow × ℤ)) :
    Again
      (setting.postTransfer (stockPosting source sourceId date reference none) debit credit owing
        books)
      (setting.postTransfer (stockPosting source sourceId date reference (some document)) debit
        credit owing books)
      (∀ e ∈ books.entries, ¬ e.LiveAt reference date) := by
  unfold postTransfer
  dsimp only
  split
  · exact ⟨rfl, fun _ => rfl⟩
  · have hagain := setting.journalise_again hsound hunposted date reference document
      [⟨debit, (owing.map Prod.snd).sum, 0⟩, ⟨credit, 0, (owing.map Prod.snd).sum⟩]
      (owing.map fun m => m.1.id)
    exact ⟨hagain.entries, fun hfree => by rw [hagain.same hfree]⟩

theorem post_grouped_again (hsound : setting.link = .sound) {source : SourceType}
    {sourceId : String} {books : Books}
    (hunposted : Kernel.liveEntryOfSource books.entries (some (sourceText source)) sourceId
      "Journal" = none) (date reference document debit : String)
    (items : List (Option String × ℤ)) (moved : List String) (state : JournalState) :
    Again
      (setting.postGrouped (stockPosting source sourceId date reference none) debit items moved
        state books)
      (setting.postGrouped (stockPosting source sourceId date reference (some document)) debit
        items moved state books)
      (∀ e ∈ books.entries, ¬ e.LiveAt reference date) := by
  unfold postGrouped
  dsimp only
  split_ifs
  · exact ⟨rfl, fun _ => rfl⟩
  · exact ⟨rfl, fun _ => rfl⟩
  · have hagain := setting.journalise_again hsound hunposted date reference document
      (⟨debit, ((items.map Prod.snd).filter fun v => 0 < v).sum, 0⟩ ::
        (byAccount setting.accounts.purchases items).map fun g => ⟨g.1, 0, g.2⟩) moved
    exact ⟨hagain.entries, fun hfree => by rw [hagain.same hfree]⟩

/-- What is posted depends on the entries there are, not on the rows. -/
theorem post_grouped_entries (posting : List JournalLine → Kernel.Posting) (debit : String)
    (items : List (Option String × ℤ)) (moved : List String) (state state' : JournalState)
    {books books' : Books} (h : books.entries = books'.entries) :
    (setting.postGrouped posting debit items moved state books).1.entries =
      (setting.postGrouped posting debit items moved state' books').1.entries := by
  unfold postGrouped
  dsimp only
  split_ifs
  · exact h
  · exact h
  · unfold journalise
    dsimp only
    rw [stamp_rows_entries, stamp_rows_entries, h]

end Setting

/-- The number and the date a document's stock journal is posted under. -/
def Document.journalKey : Document → String × String
  | .purchase bill => (purchaseBillJournalRef bill.id ++ "-INV", bill.billDate)
  | .sale invoice => (orElse invoice.invoiceNo invoice.id ++ "-COGS", invoice.invoiceDate)
  | .creditNote note => (orElse note.creditNoteNo note.id ++ "-INVRET", note.creditNoteDate)
  | .debitNote note => (orElse note.debitNoteNo note.id ++ "-INVRET", note.debitNoteDate)

def Document.NumberFree (document : Document) (books : Books) : Prop :=
  ∀ e ∈ books.entries, ¬ e.LiveAt document.journalKey.1 document.journalKey.2

theorem Setting.post_again (setting : Setting) (hsound : setting.link = .sound)
    (document : Document) (books : Books) (hunposted : (setting.task document).Unposted books)
    (owing : List (ItemRow × document.Worth)) :
    Again ((setting.task document).post false owing books)
      ((setting.task document).post true owing books) (document.NumberFree books) := by
  cases document with
  | purchase bill =>
    have hreceipt := setting.post_grouped_again hsound hunposted bill.billDate
      (purchaseBillJournalRef bill.id ++ "-INV")
      ("purchase bill " ++ orElse bill.billNo (orElse bill.ourReference bill.id))
      setting.accounts.inventory (owing.flatMap fun m => m.2.receiptItems)
      (owing.map fun m => m.1.id) .notOwed
    refine ⟨setting.post_grouped_entries _ _ _ _ _ _ hreceipt.entries, fun hfree => ?_⟩
    exact congrArg (fun receipt : Books × JournalState =>
      setting.postGrouped (stockPosting .purchaseBill bill.id bill.billDate
        (purchaseBillJournalRef bill.id ++ "-COGSTRUEUP") none) setting.accounts.cogs
        (owing.flatMap fun m => m.2.trueupItems) [] receipt.2 receipt.1) (hreceipt.same hfree)
  | sale invoice => exact setting.post_transfer_again hsound hunposted _ _ _ _ _ _
  | creditNote note => exact setting.post_transfer_again hsound hunposted _ _ _ _ _ _
  | debitNote note => exact setting.post_transfer_again hsound hunposted _ _ _ _ _ _

section
variable {L ω : Type} {task : Task L ω} {rowIds : ℕ → String} {books : Books}

/-- Some row goes to a line whose quantity it did not move, or, still to be journalled, to a line of
another cost. -/
def Task.Mismatched (task : Task L ω) (rowIds : ℕ → String) (books : Books) : Prop :=
  ∃ line row, (line, some row) ∈ (task.work rowIds).hand (task.prior books) task.lines ∧
    (|row.quantityDelta| ≠ |task.quantity line.line| ∨
      row.journalEntryId = none ∧
        ∃ cost ∈ task.costPaise line.line, row.valueDeltaPaise ≠ cost)

theorem mismatch_refused (h : task.Mismatched rowIds books) :
    task.refusedFor rowIds (task.prior books) ≠ none := by
  obtain ⟨line, row, hhand, hunlike⟩ := h
  have hrefusal : (task.work rowIds).refusal row line ≠ none := by
    change refusal _ _ _ _ ≠ none
    unfold refusal
    rcases hunlike with hquantity | ⟨hunlinked, hcost⟩
    · have hne : sameQuantity row (task.quantity line.line) = false := decide_eq_false hquantity
      rw [hne]
      simp
    · split_ifs with h₁ h₂ h₃ h₄
      · simp
      · simp
      · exact absurd (.inr hunlinked) h₃
      · simp
      · exact absurd ⟨hunlinked, hcost⟩ h₄
  unfold Task.refusedFor
  split
  · simp
  · intro hnone
    exact hrefusal (Work.rehearse_none_iff.mp hnone _ hhand row rfl)

/-- A retry refuses before its first write or not at all. -/
theorem retry_cases (task : Task L ω) (rowIds : ℕ → String) (books : Books) :
    (∃ sentence, task.refusedFor rowIds (task.prior books) = some sentence ∧
      task.apply rowIds true books = (books, .heldBack sentence)) ∨
    task.refusedFor rowIds (task.prior books) = none ∧
      (task.apply rowIds true books).2.cannotResume = none := by
  cases hrefused : task.refusedFor rowIds (task.prior books) with
  | some sentence =>
    refine .inl ⟨sentence, rfl, ?_⟩
    unfold Task.apply
    rw [if_pos rfl, hrefused]
  | none =>
    refine .inr ⟨rfl, ?_⟩
    have hrehearse : (task.work rowIds).rehearse (task.prior books) task.lines = none := by
      unfold Task.refusedFor at hrefused
      split at hrefused
      · cases hrefused
      · exact hrefused
    have hnever := Work.rehearsed_never_refused hrehearse books.ledger
    unfold Task.apply Task.finish
    rw [if_pos rfl, hrefused]
    dsimp only
    split
    · rename_i stop hstop
      cases stop with
      | refused sentence => exact absurd hstop (hnever sentence)
      | failed raised => rfl
    · rfl

end

section
variable (setting : Setting) (books : Books) (document : Document) (k : ℕ)

/-- The rows the stopped run wrote. -/
def Setting.ownRows : List ItemRow :=
  (((setting.task document).work setting.rowIds).run books.ledger
    (setting.task document).lines).written.take k

/-- A retry after a stopped run ends as one run of the document does: each row on the line it was
written for, no row missing or written twice, and one journal for all of them. -/
structure Completed : Prop where
  rows : (setting.applyDocument true
      ((setting.task document).stoppedAfter setting.rowIds k books) document).1.rows =
    (setting.applyDocument false books document).1.rows
  lines : ∀ i : ℕ, (((setting.task document).work setting.rowIds).hand
      (setting.ownRows books document k) (setting.task document).lines)[i]? =
    (setting.task document).lines[i]?.map fun line =>
      (line, (setting.ownRows books document k)[i]?)
  entries : (setting.task document).Unposted books →
    (setting.applyDocument true
        ((setting.task document).stoppedAfter setting.rowIds k books) document).1.entries =
      (setting.applyDocument false books document).1.entries
  links : (setting.task document).Unposted books → document.NumberFree books →
    setting.applyDocument true
        ((setting.task document).stoppedAfter setting.rowIds k books) document =
      setting.applyDocument false books document

variable {setting books document k}

theorem completed (hsound : setting.link = .sound)
    (hquantities : (setting.task document).InThousandths)
    (hfirst : (setting.task document).Unrecorded books)
    (hrows : ¬ (setting.task document).Incompletable (setting.ownRows books document k)) :
    Completed setting books document k := by
  have hpromise := setting.task_promise document
  have hretry := retry_finishes hpromise hquantities hfirst k hrows
  have hrun : setting.applyDocument false books document =
      (setting.task document).finish false books
        (((setting.task document).work setting.rowIds).run books.ledger
          (setting.task document).lines) := by
    rw [setting.apply_document]
    exact if_neg Bool.false_ne_true
  have hlines := Work.hand_own (work_key (setting.task document) setting.rowIds) (setting.task document).lines books.ledger k
  rw [← setting.apply_document] at hretry
  unfold Task.finish at hretry hrun
  split at hretry
  · rename_i stop hstop
    rw [hstop] at hrun
    exact ⟨by rw [hretry, hrun], hlines, fun _ => by rw [hretry, hrun],
      fun _ _ => by rw [hretry, hrun]⟩
  · rename_i hstop
    rw [hstop] at hrun
    dsimp only at hretry hrun
    refine ⟨?_, hlines, fun hunposted => ?_, fun hunposted hfree => ?_⟩
    · rw [hretry, hrun]
      exact (setting.post_rows document true _ _).trans (setting.post_rows document false _ _).symm
    all_goals
      have hagain := setting.post_again hsound document
        ⟨books.ledger ++ (((setting.task document).work setting.rowIds).run books.ledger
          (setting.task document).lines).written, books.entries⟩ hunposted
        (((setting.task document).work setting.rowIds).run books.ledger
          (setting.task document).lines).owing
      rw [hretry, hrun]
    · exact hagain.entries
    · rw [hagain.same hfree]

end

/-- A document's stock effect is completed exactly once. A retry after a run that stopped anywhere
before its journal ends as one run does, or, where a row it wrote can no longer be told apart,
leaves everything as it stands; and in any books a retry that refuses has written nothing, and one
whose rows are not its lines' refuses. -/
theorem retry_completes (setting : Setting) (document : Document) (hsound : setting.link = .sound)
    (hquantities : (setting.task document).InThousandths) :
    (∀ books k, (setting.task document).Unrecorded books →
      ((setting.task document).Incompletable (setting.ownRows books document k) →
        ∃ sentence, setting.applyDocument true
            ((setting.task document).stoppedAfter setting.rowIds k books) document =
          ((setting.task document).stoppedAfter setting.rowIds k books, .heldBack sentence)) ∧
      (¬ (setting.task document).Incompletable (setting.ownRows books document k) →
        Completed setting books document k)) ∧
    ∀ books,
      ((setting.applyDocument true books document).2.cannotResume ≠ none →
        (setting.applyDocument true books document).1 = books) ∧
      ((setting.task document).Mismatched setting.rowIds books →
        (setting.applyDocument true books document).2.cannotResume ≠ none) := by
  refine ⟨fun books k hfirst => ⟨fun hrows => ?_, completed hsound hquantities hfirst⟩,
    fun books => ?_⟩
  · rw [setting.apply_document]
    exact retry_held_back (setting.task_promise document) hquantities hfirst k hrows
  · rw [setting.apply_document]
    rcases retry_cases (setting.task document) setting.rowIds books with
      ⟨sentence, -, happly⟩ | ⟨hasked, hnone⟩
    · rw [happly]
      exact ⟨fun _ => rfl, fun _ => Option.some_ne_none sentence⟩
    · exact ⟨fun hrefused => absurd hnone hrefused,
        fun hmismatch => absurd hasked (mismatch_refused hmismatch)⟩

def plain : Setting where
  rowIds n := "row-" ++ toString n
  ground := .plain
  link := .sound
  accounts := .standard
  method := .movingAverage
  layersOf _ := []
  pick := List.head?

/-- Ten units on hand at a hundred paise each. -/
def stocked : Books :=
  ⟨[⟨⟨⟨10, 100, 1000, 10, 100, 1000⟩, .purchase, .purchaseBill, "b0"⟩, "row-0", "rice", some "e0",
    in_thousandths_iff.mpr ⟨10000, by norm_num⟩⟩], []⟩

/-- Two lines of one item, in equal quantities. -/
def twice : Document :=
  .sale ⟨"s1", "INV-1", "2026-04-02", [⟨"rice", true, 3⟩, ⟨"rice", true, 3⟩]⟩

/-- Stopped between its two rows, the sale is completed as if it had not been. -/
theorem sale_completed :
    (plain.applyDocument true ((plain.task twice).stoppedAfter plain.rowIds 1 stocked) twice) =
      plain.applyDocument false stocked twice := by
  have hquantities : (plain.task twice).InThousandths := by
    have hline : inThousandths 3 = 3 := in_thousandths_iff.mpr ⟨3000, by norm_num⟩
    intro l hl
    have hl : l ∈ List.replicate 2 (⟨"rice", true, 3⟩ : ItemLine GoodsLine) :=
      List.mem_of_mem_take (List.mem_of_mem_filter hl)
    rw [List.eq_of_mem_replicate hl]
    exact hline
  have hfirst : (plain.task twice).Unrecorded stocked := by
    intro row hrow
    rw [List.mem_singleton.mp hrow]
    rfl
  refine (((retry_completes plain twice rfl hquantities).1 stocked 1 hfirst).2 ?_).links rfl ?_
  · rintro (⟨hrule, -⟩ | ⟨hcosts, -⟩)
    · exact hrule rfl
    · cases hcosts
  · exact fun e he => absurd he List.not_mem_nil

/-- Five units sold that were not there. -/
def oversold : Books :=
  ⟨[⟨⟨⟨-5, 0, 0, -5, 0, 0⟩, .sale, .salesInvoice, "s0"⟩, "row-0", "rice", none,
    in_thousandths_iff.mpr ⟨-5000, by norm_num⟩⟩], []⟩

/-- Eight units for eight hundred paise. -/
def received : Document :=
  .purchase ⟨"b1", "B-1", "", "2026-04-03", false,
    [⟨"rice", true, 8, 800, none, 0, 0, 0, 0, none, []⟩]⟩

/-- A bill received while the item was oversold, and stopped before its journals, is left so by a
retry: one run posts the receipt and the true-up. -/
theorem short_bill_held_back :
    let stopped := (plain.task received).stoppedAfter plain.rowIds 1 oversold
    (plain.applyDocument true stopped received).1 = stopped ∧
      stopped.entries = [] ∧ (plain.applyDocument false oversold received).1.entries.map
        (fun e => (e.referenceNo, e.lines)) =
        [("PB-B1-INV", [⟨"1400", 300, 0⟩, ⟨"5000", 0, 300⟩]),
          ("PB-B1-COGSTRUEUP", [⟨"5100", 500, 0⟩, ⟨"5000", 0, 500⟩])] := by
  decide +kernel

end Caflow.Inventory.StockResume
