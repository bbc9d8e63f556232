import Caflow.Inventory.Documents
import Caflow.Lib.GrowingLog
import Caflow.Lib.Tally

set_option linter.all false

namespace Caflow.Inventory.TieOut
open Rounding Accounting Documents GrowingLog

/-- Every row was computed from the row before it. -/
def Priced (ledger : List StockRow) (row : StockRow) : Prop :=
  ∃ e, price (tail ledger) e = .ok (some row.toMovement)

def valueDeltas (rows : List StockRow) : ℤ := (rows.map fun r => r.valueDeltaPaise).sum

@[simp] theorem tail_concat (ledger : List StockRow) (row : StockRow) :
    tail (ledger ++ [row]) = some row.toMovement := by simp [tail]

theorem tail_closed (h : Grown Priced ledger) : ForceClosed (tail ledger) := by
  cases h with
  | start => intro _; rfl
  | record _ hs =>
    obtain ⟨e, he⟩ := hs
    rw [tail_concat]
    exact price_force_closed he

theorem tail_value (h : Grown Priced ledger) : prevValue (tail ledger) = valueDeltas ledger := by
  induction h with
  | start => rfl
  | record hg hs ih =>
    obtain ⟨e, he⟩ := hs
    rw [tail_concat, prev_value_some, price_value he (tail_closed hg), ih]
    simp [valueDeltas]

theorem record_stock_in_cases (h : recordStockIn ledger type source sid q c = .ok r) :
    ∃ receipt, computeStockIn (prevQty (tail ledger)) (prevValue (tail ledger)) q c = .ok receipt ∧
      r.1.toMovement = receipt.movement ∧ r.2 = receipt.trueupPaise := by
  obtain ⟨receipt, hr, rfl⟩ := map_ok h
  exact ⟨receipt, hr, rfl, rfl⟩

theorem record_stock_in_priced (h : recordStockIn ledger type source sid q c = .ok (row, t)) :
    Priced ledger row := by
  obtain ⟨receipt, hr, hm, -⟩ := record_stock_in_cases h
  refine ⟨.receive q c, ?_⟩
  dsimp only at hm
  rw [price, hr, hm]
  rfl

theorem record_stock_out_priced (h : recordStockOut ledger method layers type source sid q = .ok r) :
    Priced ledger r := by
  obtain ⟨m, hm, rfl⟩ := map_ok h
  refine ⟨method.issue q layers, ?_⟩
  cases method with
  | movingAverage =>
    dsimp only at hm
    rw [Method.issue, price, hm]
    rfl
  | fifo =>
    dsimp only at hm
    rw [Method.issue, price, hm]
    rfl

/-- A receipt whose deficit costs no more than the receipt itself. -/
def ReceiptTies (prev : Option Movement) (q : ℚ) (c : ℤ) : Prop :=
  prevQty prev < 0 → 0 < prevQty prev + q → halfUp (c / q) * -prevQty prev < (c : ℚ) + 1 / 2

/-- Goods coming back of which nothing, at whole paise, covers units already sold. -/
def ReturnTies (prev : Option Movement) (q : ℚ) (value : ℤ) : Prop :=
  prevQty prev < 0 → if prevQty prev + q ≤ 0 then value = 0
    else halfUp (value / q) * -prevQty prev < (1 : ℚ) / 2

/-- An issue of a part of the stock whose cost is not negative. -/
def PartTies (layers : List Layer) (prev : Option Movement) (q : ℚ) : Method → Prop
  | .movingAverage => -(1 / 2) < q * prevAvg prev
  | .fifo => 0 ≤ prevValue prev ∧ 0 ≤ (takeOldest layers q).valuePaise

/-- An issue that takes a value off the books that is not negative. -/
def IssueTies (method : Method) (layers : List Layer) (prev : Option Movement) (q : ℚ) : Prop :=
  if prevQty prev ≤ q then 0 ≤ prevValue prev else PartTies layers prev q method

theorem receipt_ties_iff
    (h : computeStockIn (prevQty prev) (prevValue prev) q c = .ok r) :
    0 ≤ r.movement.valueDeltaPaise ↔ ReceiptTies prev q c := by
  obtain ⟨hq, hc, -, -, ⟨hn, hd, -⟩ | ⟨hp, ht, hd, -⟩⟩ := stock_in_cases h
  · exact iff_of_true hd.ge fun _ hpos => absurd hn (not_le.mpr hpos)
  rcases le_or_gt 0 (prevQty prev) with hs | hs
  · rw [deficit_cost_of_nonneg hs] at ht
    exact iff_of_true (by omega) fun hneg => absurd hs (not_le.mpr hneg)
  · rw [deficit_cost_of_cleared hs hp] at ht
    have hle : 0 ≤ r.movement.valueDeltaPaise ↔ halfUp (halfUp (c / q) * -prevQty prev) ≤ c := by
      omega
    rw [hle, half_up_le_iff hc]
    exact ⟨fun hlt _ _ => hlt, fun hlt => hlt hs hp⟩

/-- What a return's row is short of its value is its true-up. -/
theorem return_gap (h : computeStockIn (prevQty prev) (prevValue prev) q v = .ok r) :
    v - r.movement.valueDeltaPaise = r.trueupPaise ∧ 0 ≤ r.trueupPaise := by
  obtain ⟨hq, hc, -, -, ⟨-, hd, -, ht⟩ | ⟨-, ht, hd, -⟩⟩ := stock_in_cases h
  · omega
  · have := deficit_cost_nonneg (prevQty prev) hq hc
    omega

theorem return_ties_iff (h : computeStockIn (prevQty prev) (prevValue prev) q v = .ok r) :
    r.trueupPaise = 0 ↔ ReturnTies prev q v := by
  unfold ReturnTies
  obtain ⟨hq, hc, -, -, ⟨hn, -, -, ht⟩ | ⟨hp, ht, -⟩⟩ := stock_in_cases h
  · rw [ht, if_pos hn]
    exact ⟨fun hz _ => hz, fun hz => hz (by linarith)⟩
  · rw [if_neg (not_le.mpr hp)]
    rcases le_or_gt 0 (prevQty prev) with hs | hs
    · rw [ht, deficit_cost_of_nonneg hs]
      exact iff_of_true rfl fun hneg => absurd hs (not_le.mpr hneg)
    · have hnn := deficit_cost_nonneg (prevQty prev) hq hc
      rw [deficit_cost_of_cleared hs hp] at ht hnn
      have hz : r.trueupPaise = 0 ↔ halfUp (halfUp (v / q) * -prevQty prev) ≤ 0 := by omega
      rw [hz, half_up_le_iff le_rfl]
      push_cast
      rw [zero_add]
      exact ⟨fun hlt _ => hlt, fun hlt => hlt hs⟩

theorem issue_ties_iff (h : recordStockOut ledger method layers type source sid q = .ok r) :
    r.valueDeltaPaise ≤ 0 ↔ IssueTies method layers (tail ledger) q := by
  obtain ⟨m, hm, rfl⟩ := map_ok h
  unfold IssueTies
  dsimp only
  have hcase : Issued (prevQty (tail ledger)) (prevValue (tail ledger)) q m ∧
      (q < prevQty (tail ledger) →
        (m.valueDeltaPaise ≤ 0 ↔ PartTies layers (tail ledger) q method)) := by
    cases method with
    | movingAverage =>
      obtain ⟨hi, ho⟩ := stock_out_cases hm
      refine ⟨hi, fun hlt => ?_⟩
      rw [ho (by linarith), PartTies, ← half_up_nonneg_iff]
      omega
    | fifo =>
      obtain ⟨hi, ho⟩ := stock_out_fifo_cases hm
      refine ⟨hi, fun hlt => ?_⟩
      rw [ho (by linarith), PartTies]
      omega
  obtain ⟨hi, ho⟩ := hcase
  split
  · rename_i hle
    rw [hi.closes (by linarith)]
    omega
  · rename_i hgt
    exact ho (not_le.mp hgt)

/-- Something holds of every line of a document that moves stock, at the ledger it finds. -/
def EachLine (move : List StockRow → L → Except Failure (Option (StockRow × β)))
    (good : List StockRow → L → Prop) (ledger : List StockRow) : List L → Prop
  | [] => True
  | line :: lines =>
    match move ledger line with
    | .ok (some m) => good ledger line ∧ EachLine move good (ledger ++ [m.1]) lines
    | _ => EachLine move good ledger lines

section
variable {move : List StockRow → L → Except Failure (Option (StockRow × β))}

theorem move_lines_error (h : move ledger line = .error e) (lines : List L) :
    moveLines move ledger (line :: lines) = ([], some e) := by simp [moveLines, h]

theorem move_lines_skip (h : move ledger line = .ok none) (lines : List L) :
    moveLines move ledger (line :: lines) = moveLines move ledger lines := by simp [moveLines, h]

theorem move_lines_moved (h : move ledger line = .ok (some m)) (lines : List L) :
    moveLines move ledger (line :: lines) =
      (m :: (moveLines move (ledger ++ [m.1]) lines).1,
        (moveLines move (ledger ++ [m.1]) lines).2) := by simp [moveLines, h]

/-- Everything the loop moved came from one of the lines. -/
theorem move_lines_mem (h : m ∈ (moveLines move ledger lines).1) :
    ∃ l, ∃ line ∈ lines, move l line = .ok (some m) := by
  induction lines generalizing ledger with
  | nil => simp [moveLines] at h
  | cons line lines ih =>
    rcases hn : move ledger line with e | _ | n
    · simp [move_lines_error hn] at h
    · rw [move_lines_skip hn] at h
      obtain ⟨l, x, hx, hm⟩ := ih h
      exact ⟨l, x, by simp [hx], hm⟩
    · rw [move_lines_moved hn] at h
      rcases List.mem_cons.mp h with rfl | h
      · exact ⟨ledger, line, by simp, hn⟩
      · obtain ⟨l, x, hx, hm⟩ := ih h
        exact ⟨l, x, by simp [hx], hm⟩

theorem move_lines_grown (hp : ∀ l line m, move l line = .ok (some m) → Priced l m.1)
    (h : Grown Priced ledger) (lines : List L) :
    Grown Priced (ledger ++ (moveLines move ledger lines).1.map Prod.fst) := by
  induction lines generalizing ledger with
  | nil => simpa [moveLines] using h
  | cons line lines ih =>
    rcases hn : move ledger line with e | _ | n
    · simpa [move_lines_error hn] using h
    · rw [move_lines_skip hn]
      exact ih h
    · rw [move_lines_moved hn]
      simpa using ih (.record h (hp _ _ _ hn))

/-- Gaps between the journal and the ledger all point one way, so a document has none exactly
when none of its lines has one. -/
theorem gaps_iff {gap : StockRow × β → ℤ} {good : List StockRow → L → Prop}
    (hgap : ∀ l line m, move l line = .ok (some m) → 0 ≤ gap m ∧ (gap m = 0 ↔ good l line))
    (hd : (moveLines move ledger lines).2 = none) :
    0 ≤ ((moveLines move ledger lines).1.map gap).sum ∧
      (((moveLines move ledger lines).1.map gap).sum = 0 ↔ EachLine move good ledger lines) := by
  induction lines generalizing ledger with
  | nil => exact ⟨le_rfl, iff_of_true rfl trivial⟩
  | cons line lines ih =>
    rcases hn : move ledger line with e | _ | m
    · simp [move_lines_error hn] at hd
    · rw [move_lines_skip hn] at hd ⊢
      simpa only [EachLine, hn] using ih hd
    · rw [move_lines_moved hn] at hd ⊢
      obtain ⟨hm, hiff⟩ := hgap _ _ _ hn
      obtain ⟨hr, hrest⟩ := ih hd
      simp only [EachLine, hn, List.map_cons, List.sum_cons, ← hiff, ← hrest]
      omega

end

/-- A transfer under a new number moves its value from the credited account to the debited. -/
theorem post_transfer_net (hf : Fresh journal date ref) (hv : 0 ≤ v) (hne : debit ≠ credit) :
    netDebit debit (postTransfer journal date ref debit credit v) = netDebit debit journal + v ∧
      netDebit credit (postTransfer journal date ref debit credit v) =
        netDebit credit journal - v := by
  unfold postTransfer
  split
  · omega
  · rename_i hpos
    rw [post_fresh (by simp [totalDebit, totalCredit]) (by simp [totalDebit]; omega) hf]
    simp only [net_debit_concat, net_on_cons, net_on_nil, hne, hne.symm, ↓reduceIte]
    omega

def positiveSum (items : List (Option String × ℤ)) : ℤ :=
  ((items.map Prod.snd).filter fun v => 0 < v).sum

theorem positive_sum_nonneg (items : List (Option String × ℤ)) : 0 ≤ positiveSum items :=
  List.sum_nonneg fun _ hv => (of_decide_eq_true (List.mem_filter.mp hv).2).le

@[simp] theorem positive_sum_append (xs ys : List (Option String × ℤ)) :
    positiveSum (xs ++ ys) = positiveSum xs + positiveSum ys := by
  simp [positiveSum]

theorem positive_sum_flat_map (f : α → List (Option String × ℤ)) (xs : List α) :
    positiveSum (xs.flatMap f) = (xs.map fun x => positiveSum (f x)).sum := by
  induction xs with
  | nil => rfl
  | cons x xs ih => simp [ih]

theorem add_to_sum (account : String) (v : ℤ) (grouped : List (String × ℤ)) :
    ((addTo account v grouped).map Prod.snd).sum = (grouped.map Prod.snd).sum + v := by
  induction grouped with
  | nil => simp [addTo]
  | cons g gs ih =>
    unfold addTo
    split
    · simp only [List.map_cons, List.sum_cons]
      ring
    · simp only [List.map_cons, List.sum_cons, ih]
      ring

theorem add_to_accounts (h : g ∈ addTo account v grouped) :
    g.1 = account ∨ g.1 ∈ grouped.map Prod.fst := by
  induction grouped with
  | nil =>
    cases List.mem_singleton.mp h
    exact .inl rfl
  | cons x xs ih =>
    unfold addTo at h
    split at h
    · rename_i he
      rcases List.mem_cons.mp h with rfl | h
      · exact .inl he
      · exact .inr (by simp [List.mem_map_of_mem h])
    · rcases List.mem_cons.mp h with rfl | h
      · exact .inr (by simp)
      · rcases ih h with he | hm
        · exact .inl he
        · exact .inr (by simp only [List.map_cons, List.mem_cons]; exact .inr hm)

theorem by_account_concat (items : List (Option String × ℤ)) (i : Option String × ℤ) :
    byAccount purchases (items ++ [i]) = if i.2 ≤ 0 then byAccount purchases items
      else addTo (resolve purchases i.1) i.2 (byAccount purchases items) := by
  simp [byAccount]

/-- Grouping loses nothing and invents no account. -/
theorem by_account_sum (purchases : String) (items : List (Option String × ℤ)) :
    ((byAccount purchases items).map Prod.snd).sum = positiveSum items := by
  induction items using List.reverseRecOn with
  | nil => rfl
  | append_singleton items i ih =>
    rw [by_account_concat, positive_sum_append]
    split
    · rename_i h
      simp [ih, positiveSum, not_lt.mpr h]
    · rename_i h
      simp [add_to_sum, ih, positiveSum, not_le.mp h]

theorem by_account_accounts (h : g ∈ byAccount purchases items) :
    ∃ i ∈ items, g.1 = resolve purchases i.1 := by
  induction items using List.reverseRecOn generalizing g with
  | nil => simp [byAccount] at h
  | append_singleton items i ih =>
    rw [by_account_concat] at h
    split at h
    · obtain ⟨x, hx, he⟩ := ih h
      exact ⟨x, by simp [hx], he⟩
    · rcases add_to_accounts h with he | hm
      · exact ⟨i, by simp, he⟩
      · obtain ⟨g', hg, he⟩ := List.mem_map.mp hm
        obtain ⟨x, hx, hr⟩ := ih hg
        exact ⟨x, by simp [hx], he ▸ hr⟩

/-- The receipt journal debits what its items are worth. -/
theorem post_grouped_debit {accounts : Accounts} (hf : Fresh journal date ref)
    (ha : ∀ i ∈ items, resolve accounts.purchases i.1 ≠ debit) :
    netDebit debit (postGrouped accounts journal date ref debit items) =
      netDebit debit journal + positiveSum items := by
  have hsum := by_account_sum accounts.purchases items
  have hnn := positive_sum_nonneg items
  have hother : netOn debit ((byAccount accounts.purchases items).map fun g =>
      (⟨g.1, 0, g.2⟩ : JournalLine)) = 0 := by
    refine net_on_other fun l hl => ?_
    obtain ⟨g, hg, rfl⟩ := List.mem_map.mp hl
    obtain ⟨i, hi, he⟩ := by_account_accounts hg
    exact he ▸ ha i hi
  have hcredit : totalCredit ((byAccount accounts.purchases items).map fun g =>
      (⟨g.1, 0, g.2⟩ : JournalLine)) = positiveSum items := by
    rw [← hsum]
    simp [totalCredit, Function.comp_def]
  have hdebit : totalDebit ((byAccount accounts.purchases items).map fun g =>
      (⟨g.1, 0, g.2⟩ : JournalLine)) = 0 := by
    simp [totalDebit, Function.comp_def]
  unfold postGrouped
  change netDebit debit (if positiveSum items ≤ 0 then _ else _) = _
  split
  · omega
  · rename_i hpos
    rw [post_fresh _ _ hf]
    · simp only [net_debit_concat, net_on_cons, ↓reduceIte, hother]
      change _ + (positiveSum items - 0 + 0) = _
      omega
    · simp only [totalDebit, totalCredit, List.map_cons, List.sum_cons] at hcredit hdebit ⊢
      change positiveSum items + _ = 0 + _
      omega
    · simp only [totalDebit, List.map_cons, List.sum_cons] at hdebit ⊢
      change positiveSum items + _ ≠ 0
      omega

theorem post_grouped_elsewhere {accounts : Accounts} (hd : debit ≠ account)
    (ha : ∀ i ∈ items, resolve accounts.purchases i.1 ≠ account) :
    netDebit account (postGrouped accounts journal date ref debit items) =
      netDebit account journal := by
  unfold postGrouped
  dsimp only
  split
  · rfl
  · refine post_elsewhere fun l hl => ?_
    rcases List.mem_cons.mp hl with rfl | hl
    · exact hd
    · obtain ⟨g, hg, rfl⟩ := List.mem_map.mp hl
      obtain ⟨i, hi, he⟩ := by_account_accounts hg
      exact he ▸ ha i hi

theorem positive_sum_zip (accts : List (Option String)) (parts : List ℤ)
    (hlen : accts.length = parts.length) (hnn : ∀ v ∈ parts, 0 ≤ v) :
    positiveSum ((List.zip accts parts).filter fun i => i.2 ≠ 0) = parts.sum := by
  induction parts generalizing accts with
  | nil => simp [positiveSum]
  | cons v vs ih =>
    cases accts with
    | nil => simp at hlen
    | cons a as =>
      have hrest := ih as (by simpa using hlen) fun x hx => hnn x (by simp [hx])
      rcases eq_or_lt_of_le (hnn v (by simp)) with hz | hp
      · simpa [← hz] using hrest
      · rw [List.zip_cons_cons, List.filter_cons_of_pos (by simpa using hp.ne'), List.sum_cons,
          ← hrest]
        simp [positiveSum, hp]

/-- A line's items are worth the amount they share out. -/
theorem items_for_sum (h : 0 < costOf line) (amount : ℤ) :
    positiveSum (itemsFor line amount) = max 0 amount := by
  rw [itemsFor, positive_sum_zip _ _ (by simp) (split_pro_rata_nonneg _ _)]
  exact split_pro_rata_sum amount h

theorem items_for_accounts (h : i ∈ itemsFor line amount) :
    ∃ c ∈ contributors line, i.1 = c.1 := by
  obtain ⟨hz, -⟩ := List.mem_filter.mp h
  obtain ⟨c, hc, he⟩ := List.mem_map.mp (List.of_mem_zip hz).1
  exact ⟨c, hc, he.symm⟩

section
variable (accounts : Accounts) (method : Method)
variable (layersOf : List StockRow → List Layer) (pick : List StockRow → Option StockRow)

/-- The general ledger carries the item at what the stock ledger's tail does. -/
def Ties (books : Books) : Prop :=
  netDebit accounts.inventory books.journal = prevValue (tail books.ledger)

/-- The number and date of the entry a document moves the Inventory account by. -/
def inventoryEntry : Document → String × String
  | .purchase bill => (bill.billDate, purchaseBillJournalRef bill.id ++ "-INV")
  | .sale invoice => (invoice.invoiceDate, orElse invoice.invoiceNo invoice.id ++ "-COGS")
  | .creditNote note => (note.creditNoteDate, orElse note.creditNoteNo note.id ++ "-INVRET")
  | .debitNote note => (note.debitNoteDate, orElse note.debitNoteNo note.id ++ "-INVRET")

/-- No line of a bill was expensed to the Inventory account itself. -/
def ExpensedElsewhere : Document → Prop
  | .purchase bill => ∀ line ∈ bill.lines, ∀ c ∈ contributors line,
      resolve accounts.purchases c.1 ≠ accounts.inventory
  | _ => True

def emptyBooks : Books := ⟨[], []⟩

def booksAfter (log : List (Document × Books)) : Books :=
  (log.getLast?.map Prod.snd).getD emptyBooks

/-- A document applied to completion after the documents before it. -/
structure Applied (log : List (Document × Books)) (p : Document × Books) : Prop where
  completed : applyDocument accounts method layersOf pick (booksAfter log) p.1 = (p.2, none)
  fresh : Fresh (booksAfter log).journal (inventoryEntry p.1).1 (inventoryEntry p.1).2
  apart : ExpensedElsewhere accounts p.1

/-- Every line of a document moves by the same amount on both ledgers. -/
def LinesTie (ledger : List StockRow) : Document → Prop
  | .purchase bill => EachLine (receiptLine bill)
      (fun l line => ReceiptTies (tail l) line.quantity (costOf line)) ledger bill.lines
  | .sale invoice => EachLine (issueLine method layersOf .sale .salesInvoice invoice.id)
      (fun l line => IssueTies method (layersOf l) (tail l) line.quantity) ledger invoice.lines
  | .creditNote note => note.goodsReturned = some false ∨ EachLine (returnLine pick note)
      (fun l line => ReturnTies (tail l) line.quantity
        (returnValue pick l note.salesInvoiceId line.quantity)) ledger note.lines
  | .debitNote note => note.goodsReturned = some false ∨
      EachLine (issueLine method layersOf .purchaseReturn .debitNote note.id)
        (fun l line => IssueTies method (layersOf l) (tail l) line.quantity) ledger note.lines

theorem issue_line_cases
    (h : issueLine method layersOf type source sid ledger line = .ok (some m)) :
    recordStockOut ledger method (layersOf ledger) type source sid line.quantity = .ok m.1 ∧
      m.2 = |m.1.valueDeltaPaise| := by
  unfold issueLine at h
  split at h
  · cases h
  · obtain ⟨r, hr, hm⟩ := map_ok h
    cases hm
    exact ⟨hr, rfl⟩

theorem return_line_cases (h : returnLine pick note ledger line = .ok (some m)) :
    m.2 = returnValue pick ledger note.salesInvoiceId line.quantity ∧
      ∃ t, recordStockIn ledger .saleReturn .creditNote note.id line.quantity m.2 =
        .ok (m.1, t) := by
  unfold returnLine at h
  split at h
  · cases h
  · obtain ⟨r, hr, hm⟩ := map_ok h
    cases hm
    exact ⟨rfl, r.2, hr⟩

theorem receipt_line_cases (h : receiptLine bill ledger line = .ok (some m)) :
    0 < costOf line ∧ ∃ t,
      recordStockIn ledger .purchase .purchaseBill bill.id line.quantity (costOf line) =
        .ok (m.1, t) ∧
      m.2 = ⟨itemsFor line m.1.valueDeltaPaise, if 0 < t then itemsFor line t else []⟩ := by
  unfold receiptLine at h
  split at h
  · cases h
  · rename_i hskip
    obtain ⟨r, hr, hm⟩ := map_ok h
    cases hm
    exact ⟨by simpa using (not_or.mp (not_or.mp hskip).2).2, r.2, hr, rfl⟩

theorem issue_line_gap
    (h : issueLine method layersOf type source sid ledger line = .ok (some m)) :
    0 ≤ m.1.valueDeltaPaise + m.2 ∧ (m.1.valueDeltaPaise + m.2 = 0 ↔
      IssueTies method (layersOf ledger) (tail ledger) line.quantity) := by
  obtain ⟨hr, hv⟩ := issue_line_cases method layersOf h
  rw [← issue_ties_iff hr, hv]
  rcases le_total 0 m.1.valueDeltaPaise with hpos | hneg
  · rw [abs_of_nonneg hpos]
    omega
  · rw [abs_of_nonpos hneg]
    omega

theorem return_line_gap (h : returnLine pick note ledger line = .ok (some m)) :
    0 ≤ m.2 - m.1.valueDeltaPaise ∧ (m.2 - m.1.valueDeltaPaise = 0 ↔
      ReturnTies (tail ledger) line.quantity
        (returnValue pick ledger note.salesInvoiceId line.quantity)) := by
  obtain ⟨hv, t, hr⟩ := return_line_cases pick h
  obtain ⟨receipt, hc, hm, -⟩ := record_stock_in_cases hr
  obtain ⟨hgap, hnn⟩ := return_gap hc
  dsimp only at hm
  rw [← hv, ← return_ties_iff hc, hm]
  omega

theorem receipt_line_gap (h : receiptLine bill ledger line = .ok (some m)) :
    0 ≤ positiveSum m.2.receiptItems - m.1.valueDeltaPaise ∧
      (positiveSum m.2.receiptItems - m.1.valueDeltaPaise = 0 ↔
        ReceiptTies (tail ledger) line.quantity (costOf line)) := by
  obtain ⟨hcost, t, hr, hv⟩ := receipt_line_cases h
  obtain ⟨receipt, hc, hm, -⟩ := record_stock_in_cases hr
  dsimp only at hm
  rw [hv, items_for_sum hcost, ← receipt_ties_iff hc, hm]
  omega

theorem issue_line_priced
    (h : issueLine method layersOf type source sid ledger line = .ok (some m)) :
    Priced ledger m.1 :=
  record_stock_out_priced (issue_line_cases method layersOf h).1

theorem return_line_priced (h : returnLine pick note ledger line = .ok (some m)) :
    Priced ledger m.1 := by
  obtain ⟨-, t, hr⟩ := return_line_cases pick h
  exact record_stock_in_priced hr

theorem receipt_line_priced (h : receiptLine bill ledger line = .ok (some m)) :
    Priced ledger m.1 := by
  obtain ⟨-, t, hr, -⟩ := receipt_line_cases h
  exact record_stock_in_priced hr

theorem settle_completed {moved : List (StockRow × β) × Option Failure}
    (h : settle books moved post = (after, none)) :
    moved.2 = none ∧ after.ledger = books.ledger ++ moved.1.map Prod.fst ∧
      after.journal = post books.journal (moved.1.map Prod.snd) := by
  unfold settle at h
  dsimp only at h
  split at h
  · cases h
  · rename_i hn
    cases h
    exact ⟨hn, rfl, rfl⟩

theorem value_deltas_append (xs ys : List StockRow) :
    valueDeltas (xs ++ ys) = valueDeltas xs + valueDeltas ys := by simp [valueDeltas]

theorem value_deltas_rows (moved : List (StockRow × β)) :
    valueDeltas (moved.map Prod.fst) = (moved.map fun m => m.1.valueDeltaPaise).sum := by
  simp [valueDeltas, Function.comp_def]

theorem moved_nonneg {moved : List (StockRow × ℤ)} (h : ∀ m ∈ moved, 0 ≤ m.2) :
    0 ≤ (moved.map Prod.snd).sum := by
  refine List.sum_nonneg fun v hv => ?_
  obtain ⟨m, hm, rfl⟩ := List.mem_map.mp hv
  exact h m hm

/-- What a document does to books that tie: they tie again exactly when all its lines do. -/
def SettlesTied (after : Books) (linesTie : Prop) : Prop :=
  Grown Priced after.ledger ∧ (Ties accounts after ↔ linesTie)

/-- The rule for a document: its lines leave gaps that all point one way, and its journal is
level with its rows exactly when the gaps add up to nothing. -/
theorem settles_tied {move : List StockRow → L → Except Failure (Option (StockRow × β))}
    {gap : StockRow × β → ℤ} {good : List StockRow → L → Prop}
    (hp : ∀ l line m, move l line = .ok (some m) → Priced l m.1)
    (hgap : ∀ l line m, move l line = .ok (some m) → 0 ≤ gap m ∧ (gap m = 0 ↔ good l line))
    (hg : Grown Priced books.ledger) (ht : Ties accounts books)
    (h : settle books (moveLines move books.ledger lines) post = (after, none))
    (hnet : ((moveLines move books.ledger lines).1.map gap).sum = 0 ↔
      netDebit accounts.inventory after.journal = netDebit accounts.inventory books.journal +
        ((moveLines move books.ledger lines).1.map fun m => m.1.valueDeltaPaise).sum) :
    SettlesTied accounts after (EachLine move good books.ledger lines) := by
  obtain ⟨hdone, hledger, -⟩ := settle_completed h
  have hgrown := move_lines_grown hp hg lines
  refine ⟨hledger ▸ hgrown, ?_⟩
  rw [← (gaps_iff hgap hdone).2, hnet, Ties, hledger, tail_value hgrown, value_deltas_append,
    value_deltas_rows, ← tail_value hg, ← ht]

/-- An issuing document: the journal credits Inventory with what its lines say. -/
theorem issues_tie {lines : List GoodsLine} (hg : Grown Priced books.ledger)
    (ht : Ties accounts books) (hf : Fresh books.journal date ref) (hd : debit ≠ accounts.inventory)
    (h : settle books (moveLines (issueLine method layersOf type source sid) books.ledger lines)
      (fun journal values => postTransfer journal date ref debit accounts.inventory values.sum) =
        (after, none)) :
    SettlesTied accounts after (EachLine (issueLine method layersOf type source sid)
      (fun l line => IssueTies method (layersOf l) (tail l) line.quantity) books.ledger lines) := by
  refine settles_tied accounts (fun _ _ _ hm => issue_line_priced method layersOf hm)
    (fun _ _ _ hm => issue_line_gap method layersOf hm) hg ht h ?_
  have hvalues : 0 ≤ ((moveLines (issueLine method layersOf type source sid) books.ledger
      lines).1.map Prod.snd).sum := moved_nonneg fun m hm => by
    obtain ⟨l, line, -, hl⟩ := move_lines_mem hm
    rw [(issue_line_cases method layersOf hl).2]
    exact abs_nonneg _
  rw [(settle_completed h).2.2, (post_transfer_net hf hvalues hd).2, List.sum_map_add]
  omega

theorem returns_tie {note : CreditNote} (hg : Grown Priced books.ledger)
    (ht : Ties accounts books) (hf : Fresh books.journal date ref)
    (h : settle books (moveLines (returnLine pick note) books.ledger note.lines)
      (fun journal values => postTransfer journal date ref accounts.inventory accounts.cogs
        values.sum) = (after, none)) :
    SettlesTied accounts after (EachLine (returnLine pick note)
      (fun l line => ReturnTies (tail l) line.quantity
        (returnValue pick l note.salesInvoiceId line.quantity)) books.ledger note.lines) := by
  refine settles_tied accounts (fun _ _ _ hm => return_line_priced pick hm)
    (fun _ _ _ hm => return_line_gap pick hm) hg ht h ?_
  have hvalues : 0 ≤ ((moveLines (returnLine pick note) books.ledger
      note.lines).1.map Prod.snd).sum := moved_nonneg fun m hm => by
    obtain ⟨l, line, -, hl⟩ := move_lines_mem hm
    obtain ⟨-, t, hr⟩ := return_line_cases pick hl
    obtain ⟨receipt, hc, -⟩ := record_stock_in_cases hr
    exact (stock_in_cases hc).2.1
  rw [(settle_completed h).2.2, (post_transfer_net hf hvalues accounts.cogs_apart.symm).1,
    Tally.sum_sub]
  omega

theorem receipts_tie {bill : PurchaseBill} (hg : Grown Priced books.ledger)
    (ht : Ties accounts books)
    (hf : Fresh books.journal bill.billDate (purchaseBillJournalRef bill.id ++ "-INV"))
    (ha : ExpensedElsewhere accounts (.purchase bill))
    (h : settle books (moveLines (receiptLine bill) books.ledger bill.lines)
      (fun journal received => postGrouped accounts
        (postGrouped accounts journal bill.billDate (purchaseBillJournalRef bill.id ++ "-INV")
          accounts.inventory (received.flatMap Received.receiptItems))
        bill.billDate (purchaseBillJournalRef bill.id ++ "-COGSTRUEUP") accounts.cogs
        (received.flatMap Received.trueupItems)) = (after, none)) :
    SettlesTied accounts after (EachLine (receiptLine bill)
      (fun l line => ReceiptTies (tail l) line.quantity (costOf line)) books.ledger bill.lines) := by
  refine settles_tied accounts (fun _ _ _ hm => receipt_line_priced hm)
    (fun _ _ _ hm => receipt_line_gap hm) hg ht h ?_
  have hitems : ∀ m ∈ (moveLines (receiptLine bill) books.ledger bill.lines).1,
      ∀ i ∈ m.2.receiptItems ++ m.2.trueupItems,
        resolve accounts.purchases i.1 ≠ accounts.inventory := by
    intro m hm i hi
    obtain ⟨l, line, hline, hl⟩ := move_lines_mem hm
    obtain ⟨-, t, -, hv⟩ := receipt_line_cases hl
    have hfrom : ∃ amount, i ∈ itemsFor line amount := by
      rw [hv] at hi
      rcases List.mem_append.mp hi with hi | hi
      · exact ⟨_, hi⟩
      · dsimp only at hi
        split at hi
        · exact ⟨_, hi⟩
        · simp at hi
    obtain ⟨amount, hi⟩ := hfrom
    obtain ⟨c, hc, he⟩ := items_for_accounts hi
    exact he ▸ ha line hline c hc
  rw [(settle_completed h).2.2, post_grouped_elsewhere accounts.cogs_apart, post_grouped_debit hf,
    positive_sum_flat_map, List.map_map, Tally.sum_sub]
  · simp only [Function.comp_def]
    omega
  · intro i hi
    obtain ⟨r, hr, hi⟩ := List.mem_flatMap.mp hi
    obtain ⟨m, hm, rfl⟩ := List.mem_map.mp hr
    exact hitems m hm i (List.mem_append_left _ hi)
  · intro i hi
    obtain ⟨r, hr, hi⟩ := List.mem_flatMap.mp hi
    obtain ⟨m, hm, rfl⟩ := List.mem_map.mp hr
    exact hitems m hm i (List.mem_append_right _ hi)

/-- One document applied to books that tie. -/
theorem document_ties (hs : Applied accounts method layersOf pick log p)
    (hg : Grown Priced (booksAfter log).ledger) (ht : Ties accounts (booksAfter log)) :
    SettlesTied accounts p.2 (LinesTie method layersOf pick (booksAfter log).ledger p.1) := by
  obtain ⟨document, after⟩ := p
  obtain ⟨hdone, hfresh, hapart⟩ := hs
  cases document with
  | purchase bill => exact receipts_tie accounts hg ht hfresh hapart hdone
  | sale invoice => exact issues_tie accounts method layersOf hg ht hfresh accounts.cogs_apart hdone
  | creditNote note =>
    simp only [applyDocument, applyCreditNoteToInventory] at hdone
    split at hdone
    · rename_i hno
      cases hdone
      exact ⟨hg, iff_of_true ht (.inl hno)⟩
    · rename_i hyes
      simpa only [LinesTie, hyes, false_or] using returns_tie accounts pick hg ht hfresh hdone
  | debitNote note =>
    simp only [applyDocument, applyDebitNoteToInventory] at hdone
    split at hdone
    · rename_i hno
      cases hdone
      exact ⟨hg, iff_of_true ht (.inl hno)⟩
    · rename_i hyes
      simpa only [LinesTie, hyes, false_or] using
        issues_tie accounts method layersOf hg ht hfresh accounts.purchases_apart hdone

@[simp] theorem books_after_concat (log : List (Document × Books)) (p : Document × Books) :
    booksAfter (log ++ [p]) = p.2 := by simp [booksAfter]

theorem empty_books_tie : Ties accounts emptyBooks := rfl

theorem books_tie (h : Everywhere (fun _ p => Ties accounts p.2) log) :
    Ties accounts (booksAfter log) := by
  rcases List.eq_nil_or_concat log with rfl | ⟨init, last, rfl⟩
  · exact empty_books_tie accounts
  · rw [List.concat_eq_append] at h ⊢
    rw [books_after_concat]
    exact (everywhere_concat.mp h).2

/-- While the books tie, every row of the item was computed from the one before it. -/
theorem ledger_priced (h : Grown (Applied accounts method layersOf pick) log)
    (ht : Everywhere (fun _ p => Ties accounts p.2) log) :
    Grown Priced (booksAfter log).ledger := by
  induction h with
  | start => exact .start
  | record _ hs ih =>
    obtain ⟨hlog, -⟩ := everywhere_concat.mp ht
    rw [books_after_concat]
    exact (document_ties accounts method layersOf pick hs (ih hlog) (books_tie accounts hlog)).1

/-- Over every sequence of documents, the general ledger carries the item at its running value
after each of them exactly when every line of every one of them ties. -/
theorem stock_ties_out_iff (h : Grown (Applied accounts method layersOf pick) log) :
    Everywhere (fun _ p => Ties accounts p.2) log ↔
      Everywhere (fun before p =>
        LinesTie method layersOf pick (booksAfter before).ledger p.1) log :=
  h.everywhere_iff fun _ _ hg hp hs =>
    (document_ties accounts method layersOf pick hs (ledger_priced accounts method layersOf pick hg hp)
      (books_tie accounts hp)).2

/-- The books after each of some documents. -/
def applyAll (documents : List Document) : List (Document × Books) :=
  documents.foldl (fun log d =>
    log ++ [(d, (applyDocument accounts method layersOf pick (booksAfter log) d).1)]) []

end

instance (accounts : Accounts) : DecidablePred (ExpensedElsewhere accounts)
  | .purchase bill => inferInstanceAs (Decidable (∀ line ∈ bill.lines, ∀ c ∈ contributors line,
      resolve accounts.purchases c.1 ≠ accounts.inventory))
  | .sale _ | .creditNote _ | .debitNote _ => isTrue trivial

def chart : Accounts := .standard

/-- Ten units bought for a thousand paise, and fifteen of them sold. -/
def oversold : List Document :=
  [.purchase ⟨"b1", "2026-04-01", [⟨true, 10, 1000, none, 0, 0, 0, 0, none, []⟩]⟩,
    .sale ⟨"s1", "INV-1", "2026-04-02", [⟨true, 15⟩]⟩]

/-- The five units that were oversold come back at the unit cost of the sale: the journal
restores five hundred paise to Inventory and the stock ledger nothing. -/
theorem stock_fails_to_tie_out :
    let log := applyAll chart .movingAverage (fun _ => []) List.head?
      (oversold ++ [.creditNote ⟨"c1", "CN-1", "2026-04-03", "s1", some true, [⟨true, 5⟩]⟩])
    Grown (Applied chart .movingAverage (fun _ => []) List.head?) log ∧
      ¬ Everywhere (fun _ p => Ties chart p.2) log ∧
      netDebit chart.inventory (booksAfter log).journal = 500 ∧
      prevValue (tail (booksAfter log).ledger) = 0 := by
  refine ⟨.record (.record (.record .start ?_) ?_) ?_, fun h => ?_, by decide +kernel,
    by decide +kernel⟩
  · exact ⟨by decide +kernel, by decide +kernel, by decide +kernel⟩
  · exact ⟨by decide +kernel, by decide +kernel, by decide +kernel⟩
  · exact ⟨by decide +kernel, by decide +kernel, by decide +kernel⟩
  · have hlast := books_tie chart h
    revert hlast
    unfold Ties
    decide +kernel

theorem stock_ties_out_oversold :
    let log := applyAll chart .movingAverage (fun _ => []) List.head? oversold
    Everywhere (fun _ p => Ties chart p.2) log ↔
      Everywhere (fun before p =>
        LinesTie .movingAverage (fun _ => []) List.head? (booksAfter before).ledger p.1) log :=
  stock_ties_out_iff chart .movingAverage (fun _ => []) List.head?
    (.record (.record .start ⟨by decide +kernel, by decide +kernel, by decide +kernel⟩)
      ⟨by decide +kernel, by decide +kernel, by decide +kernel⟩)

end Caflow.Inventory.TieOut
