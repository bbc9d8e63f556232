import Caflow.Reporting.BalanceCache

set_option linter.all false

namespace Caflow.Reporting
open Accounting (JournalLine netOn net_on_cons totalDebit totalCredit)
open IsoDate Tally

/-- The net debit that lines post to the accounts of a kind. -/
def netWhere (kind : String → Prop) [DecidablePred kind] (lines : List ProjectedLine) : ℤ :=
  ((lines.filter fun l => kind l.account).map net).sum

section
variable (kind : String → Prop) [DecidablePred kind]

theorem net_where_append (lines lines' : List ProjectedLine) :
    netWhere kind (lines ++ lines') = netWhere kind lines + netWhere kind lines' := by
  simp [netWhere]

theorem net_where_perm (h : lines.Perm lines') : netWhere kind lines = netWhere kind lines' :=
  ((h.filter _).map _).sum_eq

/-- Account by account. -/
theorem net_where_accounts (lines : List ProjectedLine) :
    netWhere kind lines =
      ((accountsOf lines).map fun a => if kind a then netOn a lines else 0).sum := by
  have hgrouped := sum_grouped_filter (p := fun a => decide (kind a))
    (lines.map fun l => (l.account, net l))
  rw [balances_eq, List.filter_map, List.map_map, List.filter_map, List.map_map] at hgrouped
  rw [netWhere]
  refine Eq.trans hgrouped.symm ?_
  induction accountsOf lines with
  | nil => rfl
  | cons a accounts ih =>
    rw [List.map_cons, List.sum_cons, ← ih]
    by_cases ha : kind a
    · rw [List.filter_cons_of_pos (by simpa using ha), if_pos ha]
      rfl
    · rw [List.filter_cons_of_neg (by simpa using ha), if_neg ha, zero_add]

/-- Accounts that no line is on make no difference. -/
theorem net_where_over {keys : List String} (hkeys : keys.Nodup)
    (hall : ∀ a ∈ accountsOf lines, a ∈ keys) :
    (keys.map fun a => if kind a then netOn a lines else 0).sum = netWhere kind lines := by
  rw [net_where_accounts]
  refine amounts_sum _ hkeys (accounts_nodup _) (fun a ha => hall a ?_) fun a ha => ?_ <;>
    exact net_on_an_account fun hzero => ha (by simp [hzero])

theorem net_where_cons (l : ProjectedLine) (lines : List ProjectedLine) :
    netWhere kind (l :: lines) = (if kind l.account then net l else 0) + netWhere kind lines := by
  unfold netWhere
  by_cases hl : kind l.account <;> simp [hl]

end

theorem net_where_split (kind other whole : String → Prop) [DecidablePred kind]
    [DecidablePred other] [DecidablePred whole] (hor : ∀ a, whole a ↔ kind a ∨ other a)
    (hnot : ∀ a, kind a → ¬ other a) (lines : List ProjectedLine) :
    netWhere whole lines = netWhere kind lines + netWhere other lines := by
  induction lines with
  | nil => rfl
  | cons l lines ih =>
    rw [net_where_cons, net_where_cons, net_where_cons, ih]
    by_cases hk : kind l.account
    · rw [if_pos ((hor _).mpr (.inl hk)), if_pos hk, if_neg (hnot _ hk)]
      omega
    · by_cases ho : other l.account
      · rw [if_pos ((hor _).mpr (.inr ho)), if_neg hk, if_pos ho]
        omega
      · rw [if_neg ((hor _).not.mpr (not_or.mpr ⟨hk, ho⟩)), if_neg hk, if_neg ho]
        omega

theorem net_on_append (a : String) (lines lines' : List ProjectedLine) :
    netOn a (lines ++ lines') = netOn a lines + netOn a lines' := by
  simp [netOn]

theorem net_on_perm (a : String) (h : lines.Perm lines') : netOn a lines = netOn a lines' :=
  ((h.filter _).map _).sum_eq

/-- A chart with balanced entries. The ids of the two rows that a report makes up are no account's. -/
structure Books where
  chart : Chart
  entries : List JournalEntry
  balanced : ∀ e ∈ entries, totalDebit e.lines = totalCredit e.lines
  accounts : ∀ e ∈ entries, ∀ l ∈ e.lines, l.account ≠ "__surplus_bf__" ∧ l.account ≠ "__retained__"

/-- Lines of balanced entries come to nothing altogether. -/
theorem lines_balance (b : Books) (start finish : Option Date) :
    netWhere (fun _ => True) (linesIn b.entries start finish) = 0 := by
  have hall : ∀ entries : List JournalEntry, (∀ e ∈ entries, e ∈ b.entries) →
      netWhere (fun _ => True) (entries.flatMap JournalEntry.lines) = 0 := by
    intro entries hmem
    induction entries with
    | nil => rfl
    | cons e entries ih =>
      obtain ⟨he, hrest⟩ := List.forall_mem_cons.mp hmem
      have hone : netWhere (fun _ => True) e.lines = totalDebit e.lines - totalCredit e.lines := by
        unfold totalDebit totalCredit
        induction e.lines with
        | nil => rfl
        | cons l lines ihl =>
          rw [net_where_cons, ihl, if_pos trivial, net, List.map_cons, List.sum_cons,
            List.map_cons, List.sum_cons]
          omega
      rw [List.flatMap_cons, net_where_append, hone, ih hrest, b.balanced e he, sub_self, add_zero]
  exact hall _ fun e he => (List.mem_filter.mp he).1

theorem lines_accounts (b : Books) (start finish : Option Date) :
    ∀ a ∈ accountsOf (linesIn b.entries start finish), a ≠ "__surplus_bf__" ∧ a ≠ "__retained__" := by
  intro a ha
  obtain ⟨l, hl, rfl⟩ := mem_accounts.mp ha
  obtain ⟨e, he, hle⟩ := List.mem_flatMap.mp hl
  exact b.accounts e (List.mem_filter.mp he).1 l hle

/-- What was posted up to a day was posted before a period or in it. -/
theorem window_split (entries : List JournalEntry) {start finish before : Date}
    (hbefore : start.dayBefore? = some before) (hle : start ≤ finish) :
    (linesIn entries none (some finish)).Perm
      (linesIn entries none (some before) ++ linesIn entries (some start) (some finish)) := by
  have hearly : ∀ d, dateInWindow none (some before) d ↔ d < start := fun d => by
    rw [lt_iff_le_day_before hbefore]
    simp [dateInWindow]
  have hfilter : (entries.filter fun e => dateInWindow none (some before) e.entryDate) =
      (entries.filter fun e => dateInWindow none (some finish) e.entryDate).filter
        fun e => e.entryDate < start := by
    rw [List.filter_filter]
    refine List.filter_congr fun e _ => ?_
    rw [← Bool.decide_and, decide_eq_decide, hearly]
    refine ⟨fun h => ⟨h, ?_⟩, fun h => h.1⟩
    simpa [dateInWindow] using (h.trans_le hle).le
  have hlate : (entries.filter fun e => dateInWindow (some start) (some finish) e.entryDate) =
      (entries.filter fun e => dateInWindow none (some finish) e.entryDate).filter
        fun e => !decide (e.entryDate < start) := by
    rw [List.filter_filter]
    refine List.filter_congr fun e _ => ?_
    rw [← decide_not, ← Bool.decide_and, decide_eq_decide]
    simp [dateInWindow]
  unfold linesIn
  rw [hfilter, hlate, ← List.flatMap_append]
  exact (List.filter_append_perm _ _).symm.flatMap_right _

/-! ### The trial balance -/

variable {chart : Chart} {r : TrialBalanceRow}

/-- Where an account closes in a trial balance; at nothing where it has no row. -/
def TrialBalance.closingOf (t : TrialBalance) (account : String) : ℤ :=
  ((t.lines.filter fun r => r.accountId = account).map TrialBalanceRow.netPaise).sum

def TrialBalanceRow.opening (r : TrialBalanceRow) : ℤ :=
  r.period.elim 0 fun c => c.openingDebitPaise - c.openingCreditPaise

/-- Where an account opens in the trial balance of a period. -/
def TrialBalance.openingOf (t : TrialBalance) (account : String) : ℤ :=
  ((t.lines.filter fun r => r.accountId = account).map TrialBalanceRow.opening).sum

theorem sides_of_rows {rows : List TrialBalanceRow}
    (h : ∀ r ∈ rows, r.totalDebitPaise - r.totalCreditPaise = r.netPaise) :
    (rows.map TrialBalanceRow.totalDebitPaise).sum - (rows.map TrialBalanceRow.totalCreditPaise).sum =
      (rows.map TrialBalanceRow.netPaise).sum := by
  induction rows with
  | nil => rfl
  | cons r rows ih =>
    obtain ⟨hr, hrest⟩ := List.forall_mem_cons.mp h
    have := ih hrest
    simp only [List.map_cons, List.sum_cons]
    omega

/-- What the row of an account closes at since inception. -/
theorem cumulative_net (chart : Chart) (lines : List ProjectedLine) (a : String) :
    (chart.cumulativeRow (a, totalsOn lines a)).elim 0 TrialBalanceRow.netPaise = netOn a lines := by
  rw [← totals_net]
  unfold Chart.cumulativeRow
  dsimp only
  split
  · rename_i h
    rw [h]
    rfl
  · rfl

theorem cumulative_sides (chart : Chart) (lines : List ProjectedLine) :
    ∀ r ∈ chart.cumulativeRows lines, r.totalDebitPaise - r.totalCreditPaise = r.netPaise := by
  intro r hr
  rw [cumulative_rows_eq] at hr
  obtain ⟨a, -, ha⟩ := List.mem_filterMap.mp hr
  unfold Chart.cumulativeRow at ha
  dsimp only at ha
  split at ha
  · cases ha
  · obtain rfl := Option.some.inj ha
    exact sides _

theorem cumulative_name (h : chart.cumulativeRow (a, totals) = some r) : r.accountId = a := by
  unfold Chart.cumulativeRow at h
  dsimp only at h
  split at h
  · cases h
  · obtain rfl := Option.some.inj h
    rfl

theorem cumulative_balanced (b : Books) (finish : Date) (cash : Bool) :
    (trialBalance b.chart (linesIn b.entries none (some finish)) finish cash none).isBalanced = true := by
  have hzero : ((b.chart.cumulativeRows (linesIn b.entries none (some finish))).map
      TrialBalanceRow.netPaise).sum = 0 := by
    rw [cumulative_rows_eq, sum_filter_map]
    simp only [cumulative_net]
    rw [← lines_balance b none (some finish), net_where_accounts]
    simp
  simp only [trialBalance, decide_eq_true_eq]
  rw [sides_of_rows (cumulative_sides _ _), hzero]

theorem cumulative_closing (chart : Chart) (lines : List ProjectedLine) (asOfDate : Date) (cash : Bool)
    (a : String) : (trialBalance chart lines asOfDate cash none).closingOf a = netOn a lines := by
  have hperm := List.perm_insertionSort (fun r r' : TrialBalanceRow => r.accountCode ≤ r'.accountCode)
    (chart.cumulativeRows lines)
  unfold TrialBalance.closingOf trialBalance
  dsimp only
  rw [((hperm.filter _).map _).sum_eq, cumulative_rows_eq,
    sum_of_answer (fun a r h => cumulative_name h) (accounts_nodup lines), cumulative_net]
  split
  · rfl
  · rename_i hnone
    exact (not_not.mp (mt net_on_an_account hnone)).symm

/-- Where the row of an account opens and closes over a period. -/
theorem period_answer_net (chart : Chart) (lines openingLines : List ProjectedLine) (a : String) :
    (chart.periodAnswer lines openingLines a).elim 0 TrialBalanceRow.netPaise =
        chart.openingOf openingLines a + netOn a lines ∧
      (chart.periodAnswer lines openingLines a).elim 0 TrialBalanceRow.opening =
        chart.openingOf openingLines a := by
  rw [← totals_net]
  unfold Chart.periodAnswer
  dsimp only
  split
  · rename_i h
    obtain ⟨hnet, hdr, hcr⟩ := h
    rw [hdr, hcr] at hnet ⊢
    exact ⟨hnet.symm, by simpa using hnet.symm⟩
  · exact ⟨rfl, sides _⟩

theorem period_answer_row (h : chart.periodAnswer lines openingLines a = some r) :
    r.accountId = a ∧ r.totalDebitPaise - r.totalCreditPaise = r.netPaise := by
  unfold Chart.periodAnswer at h
  dsimp only at h
  split at h
  · cases h
  · obtain rfl := Option.some.inj h
    exact ⟨rfl, sides _⟩

theorem period_sides (chart : Chart) (lines openingLines : List ProjectedLine) :
    ∀ r ∈ chart.periodRows lines openingLines, r.totalDebitPaise - r.totalCreditPaise = r.netPaise := by
  intro r hr
  rw [period_rows_eq] at hr
  rcases List.mem_append.mp hr with hr | hr
  · obtain ⟨a, -, ha⟩ := List.mem_filterMap.mp hr
    exact (period_answer_row ha).2
  · split at hr
    · obtain rfl := List.mem_singleton.mp hr
      exact sides _
    · cases hr

theorem period_accounts_cover (lines openingLines : List ProjectedLine) :
    (∀ a ∈ accountsOf lines, a ∈ periodAccounts lines openingLines) ∧
      ∀ a ∈ accountsOf openingLines, a ∈ periodAccounts lines openingLines := by
  refine ⟨fun a ha => ?_, fun a ha => ?_⟩ <;> obtain ⟨l, hl, rfl⟩ := mem_accounts.mp ha <;>
    refine mem_first_keys.mpr ?_
  · exact ⟨(l.account, l.debitPaise, l.creditPaise),
      List.mem_append_left _ (List.mem_map.mpr ⟨l, hl, rfl⟩), rfl⟩
  · exact ⟨(l.account, 0, 0), List.mem_append_right _ (List.mem_map.mpr ⟨l, hl, rfl⟩), rfl⟩

/-- The net of a period's rows is all that was posted, before it and in it. -/
theorem period_total (chart : Chart) (lines openingLines : List ProjectedLine) :
    ((chart.periodRows lines openingLines).map TrialBalanceRow.netPaise).sum =
      netWhere (fun _ => True) openingLines + netWhere (fun _ => True) lines := by
  obtain ⟨hcover, hcover'⟩ := period_accounts_cover lines openingLines
  have hnodup : (periodAccounts lines openingLines).Nodup := first_keys_nodup _
  have hbf : ((if chart.broughtForward openingLines ≠ 0 then
      [surplusRow (chart.broughtForward openingLines)] else []).map TrialBalanceRow.netPaise).sum =
      netWhere (fun a => (chart.acc a).isPl) openingLines := by
    rw [net_where_accounts, ← brought_forward_eq]
    split
    · simp [surplusRow]
    · rename_i h
      simp only [ne_eq, not_not] at h
      simp [h]
  have hopening : ((periodAccounts lines openingLines).map (chart.openingOf openingLines)).sum =
      netWhere (fun a => ¬ (chart.acc a).isPl) openingLines := by
    rw [← net_where_over _ hnodup hcover']
    refine congrArg List.sum (List.map_congr_left fun a _ => ?_)
    unfold Chart.openingOf
    by_cases ha : (chart.acc a).isPl <;> simp [ha]
  have hlines : ((periodAccounts lines openingLines).map fun a => netOn a lines).sum =
      netWhere (fun _ => True) lines := by
    rw [← net_where_over _ hnodup hcover]
    simp
  have hsplit := net_where_split (fun a => (chart.acc a).isPl) (fun a => ¬ (chart.acc a).isPl)
    (fun _ => True) (fun a => by simp [em]) (fun a ha hn => hn ha) openingLines
  rw [period_rows_eq, List.map_append, List.sum_append, hbf, sum_filter_map]
  simp only [(period_answer_net chart lines openingLines _).1]
  rw [List.sum_map_add, hopening, hlines, hsplit]
  omega

theorem period_balanced (b : Books) (start before finish : Date) (cash : Bool) :
    (trialBalance b.chart (linesIn b.entries (some start) (some finish)) finish cash
      (some (start, linesIn b.entries none (some before)))).isBalanced = true := by
  simp only [trialBalance, decide_eq_true_eq]
  rw [sides_of_rows (period_sides _ _ _), period_total, lines_balance, lines_balance, add_zero]

/-- Where an account opens and closes in the trial balance of a period. -/
theorem period_account (chart : Chart) (lines openingLines : List ProjectedLine)
    (asOfDate start : Date) (cash : Bool) (hid : a ≠ "__surplus_bf__") :
    let t := trialBalance chart lines asOfDate cash (some (start, openingLines))
    t.closingOf a = chart.openingOf openingLines a + netOn a lines ∧
      t.openingOf a = chart.openingOf openingLines a := by
  have hperm := List.perm_insertionSort (fun r r' : TrialBalanceRow => r.accountCode ≤ r'.accountCode)
    (chart.periodRows lines openingLines)
  have hown : (chart.periodRows lines openingLines).filter (fun r => r.accountId = a) =
      ((periodAccounts lines openingLines).filterMap (chart.periodAnswer lines openingLines)).filter
        fun r => r.accountId = a := by
    rw [period_rows_eq, List.filter_append]
    split
    · simp [surplusRow, Ne.symm hid]
    · simp
  have habsent : a ∉ periodAccounts lines openingLines →
      chart.openingOf openingLines a = 0 ∧ netOn a lines = 0 := fun hnone => by
    obtain ⟨hcover, hcover'⟩ := period_accounts_cover lines openingLines
    have hlines := not_not.mp (mt net_on_an_account fun h => hnone (hcover a h))
    have hopening := not_not.mp (mt net_on_an_account fun h => hnone (hcover' a h))
    exact ⟨by simp [Chart.openingOf, hopening], hlines⟩
  have hnodup : (periodAccounts lines openingLines).Nodup := first_keys_nodup _
  obtain ⟨hclosing, hopening⟩ := period_answer_net chart lines openingLines a
  unfold TrialBalance.closingOf TrialBalance.openingOf trialBalance
  dsimp only
  rw [((hperm.filter _).map _).sum_eq, ((hperm.filter _).map _).sum_eq, hown,
    sum_of_answer (fun a r h => (period_answer_row h).1) hnodup,
    sum_of_answer (fun a r h => (period_answer_row h).1) hnodup, hclosing, hopening]
  split
  · exact ⟨rfl, rfl⟩
  · rename_i hnone
    obtain ⟨hzero, hzero'⟩ := habsent hnone
    exact ⟨by rw [hzero, hzero', add_zero], hzero.symm⟩

/-! ### The Balance Sheet and the Profit & Loss account -/

theorem sheet_total (chart : Chart) (lines : List ProjectedLine) (type : String) :
    ((chart.linesFor (grouped (lines.map fun l => (l.account, net l))) type).map
      StatementLine.paise).sum =
      if type = "Asset" then netWhere (fun a => (chart.acc a).type = type) lines
      else -netWhere (fun a => (chart.acc a).type = type) lines := by
  have hperm := List.perm_insertionSort
    (fun l l' : StatementLine => l.accountName ≤ l'.accountName)
    ((accountsOf lines).filterMap fun a => if chart.sheetAmount type lines a = 0 then none
      else some (chart.statementLine a (chart.sheetAmount type lines a)))
  have hamount : ∀ a, (if chart.sheetAmount type lines a = 0 then none
      else some (chart.statementLine a (chart.sheetAmount type lines a))).elim 0
        StatementLine.paise = chart.sheetAmount type lines a := fun a => by
    split
    · rename_i h
      exact h.symm
    · rfl
  rw [lines_for_eq, byName, (hperm.map _).sum_eq, sum_filter_map]
  simp only [hamount, net_where_accounts]
  unfold Chart.sheetAmount
  split
  · rfl
  · rw [List.sum_neg, List.map_map]
    refine congrArg List.sum (List.map_congr_left fun a _ => ?_)
    simp only [Function.comp_apply]
    split <;> simp

/-- The account has a type that no section of the Balance Sheet and no profit takes up. -/
def Chart.unplaced (chart : Chart) (a : String) : Prop :=
  (chart.acc a).type ∉ ["Asset", "Liability", "Equity"] ∧ ¬ (chart.acc a).isPl

/-- The account is charged in the Profit & Loss account as cost of sales, and is none of income or
expense. -/
def Chart.oddCogs (chart : Chart) (a : String) : Prop := chart.isCogs a ∧ ¬ (chart.acc a).isPl

instance (chart : Chart) : DecidablePred chart.unplaced := fun a => by
  unfold Chart.unplaced
  infer_instance

instance (chart : Chart) : DecidablePred chart.oddCogs := fun a => by
  unfold Chart.oddCogs
  infer_instance

/-- Every account is in one section, in the profit, or in nothing. -/
theorem sections_total (chart : Chart) (lines : List ProjectedLine) :
    netWhere (fun _ => True) lines =
      netWhere (fun a => (chart.acc a).type = "Asset") lines +
        (netWhere (fun a => (chart.acc a).type = "Liability") lines +
          (netWhere (fun a => (chart.acc a).type = "Equity") lines +
            (netWhere (fun a => (chart.acc a).isPl) lines + netWhere chart.unplaced lines))) := by
  induction lines with
  | nil => rfl
  | cons l lines ih =>
    simp only [net_where_cons, ih]
    have hone : (if True then net l else 0) =
        (if (chart.acc l.account).type = "Asset" then net l else 0) +
          ((if (chart.acc l.account).type = "Liability" then net l else 0) +
            ((if (chart.acc l.account).type = "Equity" then net l else 0) +
              ((if (chart.acc l.account).isPl then net l else 0) +
                if chart.unplaced l.account then net l else 0))) := by
      unfold Chart.unplaced Account.isPl Account.isIncome Account.isExpense
      by_cases ha : (chart.acc l.account).type = "Asset"
      · simp [ha]
      by_cases hb : (chart.acc l.account).type = "Liability"
      · simp [hb]
      by_cases hc : (chart.acc l.account).type = "Equity"
      · simp [hc]
      by_cases hd : (chart.acc l.account).isPl
      · simp only [Account.isPl, Account.isIncome, Account.isExpense] at hd
        simp [ha, hb, hc, hd]
      · simp only [Account.isPl, Account.isIncome, Account.isExpense] at hd
        simp [ha, hb, hc, hd]
    rw [hone]
    omega

theorem retained_where (chart : Chart) (lines : List ProjectedLine) :
    chart.retained lines = -netWhere (fun a => (chart.acc a).isPl) lines := by
  rw [Chart.retained, net_where_accounts]

/-- A balance sheet of lines that come to nothing is out by what they post to unplaced accounts. -/
theorem sheet_balanced_iff (chart : Chart) (asOfDate : Date) (cash : Bool)
    (hzero : netWhere (fun _ => True) lines = 0) :
    (balanceSheet chart lines asOfDate cash).isBalanced = true ↔ netWhere chart.unplaced lines = 0 := by
  have hsplit := sections_total chart lines
  have hretained : ((if chart.retained lines ≠ 0 then [retainedLine (chart.retained lines)] else
      []).map StatementLine.paise).sum = chart.retained lines := by
    split
    · simp [retainedLine]
    · rename_i h
      simp only [ne_eq, not_not] at h
      simp [h]
  rw [balance_sheet_eq]
  simp only [sect, decide_eq_true_eq, List.map_append, List.sum_append, sheet_total, hretained]
  rw [retained_where]
  simp only [if_true, show ("Liability" = "Asset") = False by simp,
    show ("Equity" = "Asset") = False by simp, if_false]
  omega

/-- The retained profit that a balance sheet shows; nothing where it has no row for it. -/
def BalanceSheet.retained (b : BalanceSheet) : ℤ :=
  ((b.equity.lines.filter fun l => l.accountId = "__retained__").map StatementLine.paise).sum

theorem sheet_retained (hids : ∀ a ∈ accountsOf lines, a ≠ "__retained__") :
    (balanceSheet chart lines asOfDate cash).retained = chart.retained lines := by
  have hperm := List.perm_insertionSort
    (fun l l' : StatementLine => l.accountName ≤ l'.accountName)
    ((accountsOf lines).filterMap fun a => if chart.sheetAmount "Equity" lines a = 0 then none
      else some (chart.statementLine a (chart.sheetAmount "Equity" lines a)))
  have hothers : (chart.linesFor (grouped (lines.map fun l => (l.account, net l))) "Equity").filter
      (fun l => l.accountId = "__retained__") = [] := by
    rw [lines_for_eq, byName, List.filter_eq_nil_iff]
    intro l hl
    obtain ⟨a, ha, hline⟩ := List.mem_filterMap.mp (hperm.mem_iff.mp hl)
    split at hline
    · cases hline
    · obtain rfl := Option.some.inj hline
      exact fun h => hids a ha (of_decide_eq_true h)
  unfold BalanceSheet.retained
  rw [balance_sheet_eq]
  simp only [sect, List.filter_append, hothers, List.nil_append]
  split
  · simp [retainedLine]
  · rename_i h
    simp only [ne_eq, not_not] at h
    simp [h]

theorem pl_group_total (chart : Chart) (group : Chart.PlGroup) (lines : List ProjectedLine) :
    (chart.plSection label (chart.plTotals group lines)).totalPaise =
      if group = .revenue then -netWhere (fun a => chart.plGroup a = some group) lines
      else netWhere (fun a => chart.plGroup a = some group) lines := by
  rw [pl_section_eq]
  dsimp only
  have hsum := amounts_sum (chart.plAmount group lines) (first_keys_nodup _)
    (accounts_nodup lines) (fun a ha => pl_account ha) fun a ha => net_on_an_account fun hzero =>
      ha (by simp [Chart.plAmount, hzero])
  rw [← Chart.plAccounts] at hsum
  rw [hsum]
  simp only [net_where_accounts]
  unfold Chart.plAmount
  split
  · rw [List.sum_neg, List.map_map]
    refine congrArg List.sum (List.map_congr_left fun a _ => ?_)
    simp only [Function.comp_apply]
    split <;> simp
  · rfl

/-- The net profit counts the accounts of income and of expense, and those charged as cost of sales. -/
theorem net_profit_eq (chart : Chart) (lines : List ProjectedLine) (startDate endDate : Date)
    (cash : Bool) :
    (profitLoss chart lines startDate endDate cash).netProfitPaise =
      -netWhere (fun a => (chart.acc a).isPl) lines - netWhere chart.oddCogs lines := by
  simp only [profitLoss, pl_group_total, if_true, reduceCtorEq, if_false]
  have hsplit : netWhere (fun a => chart.plGroup a = some .revenue) lines +
      (netWhere (fun a => chart.plGroup a = some .costOfSales) lines +
        netWhere (fun a => chart.plGroup a = some .operatingExpenses) lines) =
      netWhere (fun a => (chart.acc a).isPl) lines + netWhere chart.oddCogs lines := by
    induction lines with
    | nil => rfl
    | cons l lines ih =>
      simp only [net_where_cons]
      have hone : (if chart.plGroup l.account = some .revenue then net l else 0) +
          ((if chart.plGroup l.account = some .costOfSales then net l else 0) +
            if chart.plGroup l.account = some .operatingExpenses then net l else 0) =
          (if (chart.acc l.account).isPl then net l else 0) +
            if chart.oddCogs l.account then net l else 0 := by
        unfold Chart.plGroup Chart.oddCogs Account.isPl
        by_cases hi : (chart.acc l.account).isIncome
        · simp [hi]
        by_cases hc : chart.isCogs l.account <;>
          by_cases he : (chart.acc l.account).isExpense <;> simp [hi, hc, he]
      omega
  omega

/-! ### The general ledger -/

/-- An account's ledger closes at everything posted to it up to the last day. -/
theorem ledger_closing (entries : List JournalEntry) (chart : Chart) (a : String) (finish : Date)
    {from_ : Option Date} (hfrom : ∀ d ∈ from_, d ≤ finish) :
    (ledger entries chart a from_ (some finish)).closingBalancePaise =
      netOn a (linesIn entries none (some finish)) := by
  set hits := (entries.flatMap fun e =>
    (e.lines.filter (·.account = a)).map fun ln => (e, ln)) with hhits
  have hperm := List.perm_insertionSort
    (fun h h' : JournalEntry × JournalLine => recordedBefore h.1 h'.1) hits
  have hfold : ∀ (l : List (JournalEntry × JournalLine)) (x : ℤ),
      l.foldl (fun running h => running + net h.2) x = x + (l.map fun h => net h.2).sum := by
    intro l
    induction l with
    | nil => simp
    | cons h l ih =>
      intro x
      rw [List.foldl_cons, ih, List.map_cons, List.sum_cons, add_assoc]
  have hparts : ∀ l : List (JournalEntry × JournalLine),
      ((l.filter fun h => from_.any (h.1.entryDate < ·)).map fun h => net h.2).sum +
        ((l.filter fun h => !from_.any (h.1.entryDate < ·) && !(some finish).any
          (· < h.1.entryDate)).map fun h => net h.2).sum =
        ((l.filter fun h => dateInWindow none (some finish) h.1.entryDate).map fun h => net h.2).sum := by
    intro l
    induction l with
    | nil => rfl
    | cons h l ih =>
      have hwindow : dateInWindow none (some finish) h.1.entryDate ↔ ¬ finish < h.1.entryDate := by
        simp [dateInWindow]
      simp only [List.filter_cons]
      by_cases hearly : from_.any (h.1.entryDate < ·) = true
      · -- before the first day is before the last
        have hin : ¬ finish < h.1.entryDate := by
          obtain ⟨d, hd, hlt⟩ := (Option.any_eq_true _ _).mp hearly
          exact not_lt.mpr ((of_decide_eq_true hlt).le.trans (hfrom d hd))
        simp only [hearly, if_true, Bool.not_true, Bool.false_and, Bool.false_eq_true, if_false,
          hwindow.mpr hin, decide_true, List.map_cons, List.sum_cons, ← ih]
        omega
      · by_cases hlate : finish < h.1.entryDate
        · simp only [hearly, if_false, Option.any_some, hlate, decide_true, Bool.not_true,
            Bool.and_false, Bool.false_eq_true, hwindow, not_true_eq_false, decide_false, ← ih]
        · simp only [Bool.not_eq_true] at hearly
          simp only [hearly, Option.any_some, hlate, decide_false, Bool.not_false, Bool.and_self,
            if_true, Bool.false_eq_true, if_false, hwindow, not_false_eq_true, decide_true,
            List.map_cons, List.sum_cons, ← ih]
          omega
  have hall : ((hits.filter fun h => dateInWindow none (some finish) h.1.entryDate).map
      fun h => net h.2).sum = netOn a (linesIn entries none (some finish)) := by
    rw [hhits]
    clear hhits hperm
    induction entries with
    | nil => rfl
    | cons e entries ih =>
      unfold linesIn at ih ⊢
      rw [List.flatMap_cons, List.filter_append, List.map_append, List.sum_append, ih,
        List.filter_cons]
      have hown : ∀ h ∈ (e.lines.filter (·.account = a)).map fun ln => (e, ln), h.1 = e := by
        intro h hh
        obtain ⟨ln, -, rfl⟩ := List.mem_map.mp hh
        rfl
      by_cases he : dateInWindow none (some finish) e.entryDate
      · rw [List.filter_eq_self.mpr fun h hh => decide_eq_true (hown h hh ▸ he),
          if_pos (decide_eq_true he), List.flatMap_cons, net_on_append, List.map_map]
        rfl
      · rw [List.filter_eq_nil_iff.mpr fun h hh hd => he (hown h hh ▸ of_decide_eq_true hd),
          if_neg (fun hd => he (of_decide_eq_true hd))]
        simp
  unfold ledger
  dsimp only
  rw [hfold, ((hperm.filter _).map _).sum_eq, ((hperm.filter _).map _).sum_eq, hparts, hall]

/-! ### The statements together -/

namespace Books

variable (b : Books)

def trialBalanceAt (finish : Date) (cash : Bool) : TrialBalance :=
  trialBalance b.chart (linesIn b.entries none (some finish)) finish cash none

/-- The trial balance of a period, what was posted up to the day before it brought in. -/
def trialBalanceOf (start before finish : Date) (cash : Bool) : TrialBalance :=
  trialBalance b.chart (linesIn b.entries (some start) (some finish)) finish cash
    (some (start, linesIn b.entries none (some before)))

def balanceSheetAt (finish : Date) (cash : Bool) : BalanceSheet :=
  balanceSheet b.chart (linesIn b.entries none (some finish)) finish cash

def profitLossOf (start finish : Date) (cash : Bool) : ProfitLoss :=
  profitLoss b.chart (linesIn b.entries (some start) (some finish)) start finish cash

/-- The statements of a period agree with each other. -/
structure Articulates (start before finish : Date) (cash : Bool) : Prop where
  trialBalances : (b.trialBalanceAt finish cash).isBalanced = true ∧
    (b.trialBalanceOf start before finish cash).isBalanced = true
  carriedForward : ∀ a, a ≠ "__surplus_bf__" → ¬ (b.chart.acc a).isPl →
    ∀ next, next.dayBefore? = some finish → ∀ nextFinish, next ≤ nextFinish →
      (b.trialBalanceOf start before finish cash).closingOf a =
        (b.trialBalanceOf next finish nextFinish cash).openingOf a
  balanceSheets : (b.balanceSheetAt finish cash).isBalanced = true ∧
    (b.balanceSheetAt before cash).isBalanced = true
  retained : (b.balanceSheetAt finish cash).retained - (b.balanceSheetAt before cash).retained =
    (b.profitLossOf start finish cash).netProfitPaise
  ledgers : ∀ a, ∀ from_ : Option Date, (∀ d ∈ from_, d ≤ finish) →
    (ledger b.entries b.chart a from_ (some finish)).closingBalancePaise =
      (b.trialBalanceAt finish cash).closingOf a

/-- The statements of a period articulate exactly where accounts of no section come to nothing at
both of its ends, and in between those counted as cost of sales without being of income or expense. -/
theorem articulates_iff {start before finish : Date} (hbefore : start.dayBefore? = some before)
    (hle : start ≤ finish) (cash : Bool) :
    b.Articulates start before finish cash ↔
      netWhere b.chart.unplaced (linesIn b.entries none (some finish)) = 0 ∧
        netWhere b.chart.unplaced (linesIn b.entries none (some before)) = 0 ∧
        netWhere b.chart.oddCogs (linesIn b.entries (some start) (some finish)) = 0 := by
  have hsplit := window_split b.entries hbefore hle
  have hsheet := sheet_balanced_iff b.chart finish cash
    (lines_balance b none (some finish))
  have hsheet' := sheet_balanced_iff b.chart before cash
    (lines_balance b none (some before))
  have hretained : (b.balanceSheetAt finish cash).retained - (b.balanceSheetAt before cash).retained =
      (b.profitLossOf start finish cash).netProfitPaise ↔
        netWhere b.chart.oddCogs (linesIn b.entries (some start) (some finish)) = 0 := by
    have hids := fun finish a ha => (lines_accounts b none (some finish) a ha).2
    unfold balanceSheetAt profitLossOf
    rw [sheet_retained (hids finish), sheet_retained (hids before), retained_where, retained_where,
      net_profit_eq, net_where_perm _ hsplit, net_where_append]
    omega
  constructor
  · intro h
    exact ⟨hsheet.mp h.balanceSheets.1, hsheet'.mp h.balanceSheets.2, hretained.mp h.retained⟩
  · rintro ⟨hfinish, hstart, hodd⟩
    refine ⟨⟨cumulative_balanced b finish cash, period_balanced b start before finish cash⟩, ?_,
      ⟨hsheet.mpr hfinish, hsheet'.mpr hstart⟩, hretained.mpr hodd, ?_⟩
    · intro a hid hpl next hnext nextFinish hnextLe
      have hthis := (period_account b.chart (linesIn b.entries (some start) (some finish))
        (linesIn b.entries none (some before)) finish start cash hid).1
      have hthen := (period_account b.chart (linesIn b.entries (some next) (some nextFinish))
        (linesIn b.entries none (some finish)) nextFinish next cash hid).2
      refine hthis.trans (Eq.trans ?_ hthen.symm)
      unfold Chart.openingOf
      rw [if_neg hpl, if_neg hpl, net_on_perm a hsplit, net_on_append]
    · intro a from_ hfrom
      rw [ledger_closing b.entries b.chart a finish hfrom]
      exact (cumulative_closing b.chart _ finish cash a).symm

end Books

def january31 : Date := .of 2026 1 31

def february1 : Date := .of 2026 2 1

/-- An office that paid its rent in January and a journey in February. -/
def office : Books where
  chart := officeChart
  entries := [rentEntry, travelEntry]
  balanced := by decide
  accounts := by decide

theorem office_articulates : february1.dayBefore? = some january31 ∧ february1 ≤ february28 ∧
    office.Articulates february1 january31 february28 false :=
  ⟨by decide, by decide +kernel,
    (office.articulates_iff (by decide) (by decide +kernel) false).mpr (by decide +kernel)⟩

/-- A shop whose goods on the way are an asset with the words of the cost of sales in its name. -/
def shop : Books where
  chart :=
    { values := [⟨"bank", "1001", "HDFC Bank", "Asset", none, some "bank", none⟩,
        ⟨"transit", "1300", "Cost of Goods Sold in Transit", "Asset", none, none, none⟩]
      keyed := by decide }
  entries := [⟨"e1", february10, "Journal", [⟨"transit", 500, 0⟩, ⟨"bank", 0, 500⟩], none, none, none,
    none, none, none⟩]
  balanced := by decide
  accounts := by decide

/-- The goods on the way are charged against the profit of February, and no profit is missing from
what the balance sheets retain. -/
theorem goods_in_transit_charged :
    february1.dayBefore? = some january31 ∧ february1 ≤ february28 ∧
      (shop.profitLossOf february1 february28 false).netProfitPaise = -500 ∧
      (shop.balanceSheetAt february28 false).retained = 0 ∧
      (shop.balanceSheetAt january31 false).retained = 0 ∧
      ¬ shop.Articulates february1 january31 february28 false := by
  have hprofit : (shop.profitLossOf february1 february28 false).netProfitPaise = -500 := by
    decide +kernel
  have hlate : (shop.balanceSheetAt february28 false).retained = 0 := by decide +kernel
  have hearly : (shop.balanceSheetAt january31 false).retained = 0 := by decide +kernel
  refine ⟨by decide, by decide +kernel, hprofit, hlate, hearly, fun h => ?_⟩
  have hretained := h.retained
  rw [hprofit, hlate, hearly] at hretained
  omega

end Caflow.Reporting
