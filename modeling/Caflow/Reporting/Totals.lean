import Caflow.Lib.SortByKey
import Caflow.Reporting.Builders

set_option linter.all false

namespace Caflow.Reporting
open Accounting (JournalLine netOn net_on_cons)
open IsoDate SortByKey Tally

/-- The accounts that lines are on, each once. -/
def accountsOf (lines : List ProjectedLine) : List String := firstKeys (postedSides lines)

theorem accounts_nodup (lines : List ProjectedLine) : (accountsOf lines).Nodup :=
  first_keys_nodup _

theorem mem_accounts : a ∈ accountsOf lines ↔ ∃ l ∈ lines, l.account = a := by
  simp [accountsOf, postedSides]

/-- What lines post to an account, its debits and its credits. -/
def totalsOn (lines : List ProjectedLine) (account : String) : ℤ × ℤ :=
  tally (postedSides lines) account

theorem totals_on_cons (l : ProjectedLine) (lines : List ProjectedLine) (a : String) :
    totalsOn (l :: lines) a =
      (if l.account = a then (l.debitPaise, l.creditPaise) else 0) + totalsOn lines a := by
  simp only [totalsOn, postedSides, List.map_cons, tally_cons]

theorem totals_net (lines : List ProjectedLine) (a : String) :
    (totalsOn lines a).1 - (totalsOn lines a).2 = netOn a lines := by
  induction lines with
  | nil => rfl
  | cons l lines ih =>
    rw [totals_on_cons, net_on_cons, ← ih]
    split <;> simp
    omega

theorem tally_net (lines : List ProjectedLine) (a : String) :
    tally (lines.map fun l => (l.account, net l)) a = netOn a lines := by
  induction lines with
  | nil => rfl
  | cons l lines ih => rw [List.map_cons, tally_cons, net_on_cons, ih, net]

theorem first_keys_map {f : ProjectedLine → ℤ} (lines : List ProjectedLine) :
    firstKeys (lines.map fun l => (l.account, f l)) = accountsOf lines := by
  unfold accountsOf postedSides
  induction lines with
  | nil => rfl
  | cons l lines ih => simp only [List.map_cons, firstKeys, ih]

/-- An account that no line is on has nothing posted to it. -/
theorem on_an_account (h : totalsOn lines a ≠ 0) : a ∈ accountsOf lines := mem_of_tally h

theorem net_on_an_account (h : netOn a lines ≠ 0) : a ∈ accountsOf lines := by
  refine on_an_account fun hzero => h ?_
  rw [← totals_net, hzero]
  rfl

/-- Both streams post the same to every account. -/
def SameTotals (lines lines' : List ProjectedLine) : Prop := ∀ a, totalsOn lines a = totalsOn lines' a

theorem SameTotals.net_on (h : SameTotals lines lines') (a : String) :
    netOn a lines = netOn a lines' := by
  rw [← totals_net, ← totals_net, h a]

/-- The same rows, those that tie on the key they are sorted by perhaps in another order. -/
structure SameRows {α : Type} (key : α → String) (rows rows' : List α) : Prop where
  perm : rows.Perm rows'
  keys : rows.map key = rows'.map key

theorem SameRows.eq {key : α → String} (h : SameRows key rows rows') (hkeys : (rows.map key).Nodup) :
    rows = rows' := eq_of_keys h.perm h.keys hkeys

theorem same_rows {key : α → String} {rows rows' : List α} (h : rows.Perm rows') :
    SameRows key (rows.insertionSort fun r r' => key r ≤ key r')
      (rows'.insertionSort fun r r' => key r ≤ key r') :=
  ⟨(List.perm_insertionSort _ rows).trans (h.trans (List.perm_insertionSort _ rows').symm),
    sorted_keys h⟩

structure TrialBalance.Same (t t' : TrialBalance) : Prop where
  rest : { t with lines := [] } = { t' with lines := [] }
  lines : SameRows TrialBalanceRow.accountCode t.lines t'.lines

structure Section.Same (s s' : Section) : Prop where
  rest : { s with lines := [] } = { s' with lines := [] }
  lines : SameRows StatementLine.accountName s.lines s'.lines

structure ProfitLoss.Same (p p' : ProfitLoss) : Prop where
  rest : (p.startDate, p.endDate, p.grossProfitPaise, p.netProfitPaise, p.cash) =
    (p'.startDate, p'.endDate, p'.grossProfitPaise, p'.netProfitPaise, p'.cash)
  revenue : p.revenue.Same p'.revenue
  costOfSales : p.costOfSales.Same p'.costOfSales
  operatingExpenses : p.operatingExpenses.Same p'.operatingExpenses

structure BalanceSheet.Same (b b' : BalanceSheet) : Prop where
  rest : (b.asOfDate, b.totalAssetsPaise, b.totalLiabilitiesEquityPaise, b.isBalanced, b.cash) =
    (b'.asOfDate, b'.totalAssetsPaise, b'.totalLiabilitiesEquityPaise, b'.isBalanced, b'.cash)
  assets : b.assets.Same b'.assets
  liabilities : b.liabilities.Same b'.liabilities
  equity : b.equity.Same b'.equity

theorem Section.Same.eq {s s' : Section} (h : s.Same s')
    (hkeys : (s.lines.map StatementLine.accountName).Nodup) : s = s' := by
  obtain ⟨label, lines, total⟩ := s
  obtain ⟨label', lines', total'⟩ := s'
  obtain ⟨rfl, -, rfl⟩ := Section.mk.inj h.rest
  obtain rfl := h.lines.eq hkeys
  rfl

theorem TrialBalance.Same.eq {t t' : TrialBalance} (h : t.Same t')
    (hkeys : (t.lines.map TrialBalanceRow.accountCode).Nodup) : t = t' := by
  have hlines := h.lines.eq hkeys
  have hrest := h.rest
  cases t
  cases t'
  simp only [TrialBalance.mk.injEq] at hrest hlines ⊢
  tauto

theorem ProfitLoss.Same.eq {p p' : ProfitLoss} (h : p.Same p')
    (hrevenue : (p.revenue.lines.map StatementLine.accountName).Nodup)
    (hcost : (p.costOfSales.lines.map StatementLine.accountName).Nodup)
    (hopex : (p.operatingExpenses.lines.map StatementLine.accountName).Nodup) : p = p' := by
  have hrest := h.rest
  have := h.revenue.eq hrevenue
  have := h.costOfSales.eq hcost
  have := h.operatingExpenses.eq hopex
  cases p
  cases p'
  simp only [ProfitLoss.mk.injEq, Prod.mk.injEq] at *
  tauto

theorem BalanceSheet.Same.eq {b b' : BalanceSheet} (h : b.Same b')
    (hassets : (b.assets.lines.map StatementLine.accountName).Nodup)
    (hliabilities : (b.liabilities.lines.map StatementLine.accountName).Nodup)
    (hequity : (b.equity.lines.map StatementLine.accountName).Nodup) : b = b' := by
  have hrest := h.rest
  have := h.assets.eq hassets
  have := h.liabilities.eq hliabilities
  have := h.equity.eq hequity
  cases b
  cases b'
  simp only [BalanceSheet.mk.injEq, Prod.mk.injEq] at *
  tauto

variable {chart : Chart}

/-! ### The trial balance -/

theorem cumulative_rows_eq (chart : Chart) (lines : List ProjectedLine) :
    chart.cumulativeRows lines =
      (accountsOf lines).filterMap fun a => chart.cumulativeRow (a, totalsOn lines a) := by
  rw [Chart.cumulativeRows, grouped_eq, List.filterMap_map]
  rfl

theorem cumulative_row_none (h : totalsOn lines a = 0) :
    chart.cumulativeRow (a, totalsOn lines a) = none := by
  rw [h]
  rfl

theorem cumulative_rows_perm (chart : Chart) (h : SameTotals lines lines') :
    (chart.cumulativeRows lines).Perm (chart.cumulativeRows lines') := by
  rw [cumulative_rows_eq, cumulative_rows_eq, ← funext h]
  refine answers_perm (accounts_nodup _) (accounts_nodup _) (fun a ha => ?_) fun a ha => ?_ <;>
    refine on_an_account fun hzero => ha ?_
  · exact cumulative_row_none hzero
  · exact cumulative_row_none ((h a).trans hzero)

theorem opening_net_lookup (openingLines : List ProjectedLine) (a : String) :
    ((Chart.openingNet openingLines).lookup a).getD 0 = netOn a openingLines := by
  rw [Chart.openingNet, lookup_grouped, tally_net]

/-- What an account brings into a period: nothing where it is one of income or expense. -/
def Chart.openingOf (chart : Chart) (openingLines : List ProjectedLine) (a : String) : ℤ :=
  if (chart.acc a).isPl then 0 else netOn a openingLines

/-- The row of an account over a period, from what was posted to it before and in it. -/
def Chart.periodAnswer (chart : Chart) (lines openingLines : List ProjectedLine) (a : String) :
    Option TrialBalanceRow :=
  let opening := chart.openingOf openingLines a
  let moved := totalsOn lines a
  let net := opening + (moved.1 - moved.2)
  if net = 0 ∧ moved.1 = 0 ∧ moved.2 = 0 then none
  else some (chart.trialRow a (some ⟨debitSide opening, creditSide opening, moved.1, moved.2⟩) net)

def periodAccounts (lines openingLines : List ProjectedLine) : List String :=
  firstKeys (postedSides lines ++ openingLines.map fun l => (l.account, ((0, 0) : ℤ × ℤ)))

theorem tally_with_opening (lines openingLines : List ProjectedLine) (a : String) :
    tally (postedSides lines ++ openingLines.map fun l => (l.account, ((0, 0) : ℤ × ℤ))) a =
      totalsOn lines a := by
  have hzero : tally (openingLines.map fun l => (l.account, ((0, 0) : ℤ × ℤ))) a = 0 := by
    induction openingLines with
    | nil => rfl
    | cons l openingLines ih =>
      rw [List.map_cons, tally_cons, ih]
      split <;> rfl
  rw [tally_append, hzero, add_zero, totalsOn]

theorem period_rows_eq (chart : Chart) (lines openingLines : List ProjectedLine) :
    chart.periodRows lines openingLines =
      (periodAccounts lines openingLines).filterMap (chart.periodAnswer lines openingLines) ++
        if chart.broughtForward openingLines ≠ 0 then
          [surplusRow (chart.broughtForward openingLines)] else [] := by
  unfold Chart.periodRows
  dsimp only
  rw [grouped_eq, List.filterMap_map]
  refine congrArg (· ++ _) (List.filterMap_congr fun a _ => ?_)
  simp only [Function.comp_apply, Chart.periodRow, tally_with_opening, opening_net_lookup]
  rfl

theorem brought_forward_eq (chart : Chart) (openingLines : List ProjectedLine) :
    chart.broughtForward openingLines = ((accountsOf openingLines).map fun a =>
      if (chart.acc a).isPl then netOn a openingLines else 0).sum := by
  unfold Chart.broughtForward Chart.openingNet
  rw [grouped_eq, first_keys_map, List.filter_map, List.map_map]
  induction accountsOf openingLines with
  | nil => rfl
  | cons a accounts ih =>
    by_cases ha : (chart.acc a).isPl
    · rw [List.filter_cons_of_pos (by simpa using ha)]
      simp only [List.map_cons, List.sum_cons, ih, if_pos ha]
      simp [tally_net]
    · rw [List.filter_cons_of_neg (by simpa using ha)]
      simp only [List.map_cons, List.sum_cons, ih, if_neg ha, zero_add]

theorem brought_forward_same (h : SameTotals openingLines openingLines') :
    chart.broughtForward openingLines = chart.broughtForward openingLines' := by
  rw [brought_forward_eq, brought_forward_eq]
  simp only [← h.net_on]
  refine amounts_sum _ (accounts_nodup _) (accounts_nodup _) (fun a ha => ?_) fun a ha => ?_ <;>
    refine net_on_an_account fun hzero => ha ?_
  · simp [hzero]
  · simp [h.net_on, hzero]

theorem period_answer_account (h : chart.periodAnswer lines openingLines a ≠ none) :
    a ∈ periodAccounts lines openingLines := by
  by_contra hnone
  have hmoved : totalsOn lines a = 0 := by
    rw [← tally_with_opening lines openingLines]
    exact not_not.mp (mt mem_of_tally hnone)
  have hopening : netOn a openingLines = 0 := by
    by_contra hne
    obtain ⟨l, hl, hla⟩ := mem_accounts.mp (net_on_an_account hne)
    exact hnone (mem_first_keys.mpr ⟨(l.account, (0, 0)),
      List.mem_append_right _ (List.mem_map.mpr ⟨l, hl, rfl⟩), hla⟩)
  refine h ?_
  simp [Chart.periodAnswer, Chart.openingOf, hmoved, hopening]

theorem period_rows_perm (chart : Chart) (h : SameTotals lines lines')
    (ho : SameTotals openingLines openingLines') :
    (chart.periodRows lines openingLines).Perm (chart.periodRows lines' openingLines') := by
  have hanswer : chart.periodAnswer lines' openingLines' = chart.periodAnswer lines openingLines := by
    funext a
    unfold Chart.periodAnswer Chart.openingOf
    rw [h a, ho.net_on a]
  rw [period_rows_eq, period_rows_eq, brought_forward_same ho, hanswer]
  refine List.Perm.append_right _ (answers_perm (first_keys_nodup _) (first_keys_nodup _) ?_ ?_)
  · exact fun a ha => period_answer_account ha
  · exact fun a ha => period_answer_account (hanswer ▸ ha)

/-- A trial balance knows its lines only by what they come to on each account. -/
theorem trial_balance_same (chart : Chart) (h : SameTotals lines lines') (asOfDate : Date)
    (period period' : Option (Date × List ProjectedLine)) (cash : Bool)
    (hopening : ∀ p ∈ period, ∃ p' ∈ period', p'.1 = p.1 ∧ SameTotals p.2 p'.2)
    (hnone : period = none → period' = none) :
    (trialBalance chart lines asOfDate cash period).Same
      (trialBalance chart lines' asOfDate cash period') := by
  cases period with
  | none =>
    obtain rfl := hnone rfl
    have hperm := cumulative_rows_perm chart h
    refine ⟨?_, same_rows hperm⟩
    simp only [trialBalance, Option.map_none, (hperm.map _).sum_eq]
  | some p =>
    obtain ⟨p', hp', hstart, ho⟩ := hopening p rfl
    obtain rfl := Option.mem_def.mp hp'
    obtain ⟨start, openingLines⟩ := p
    obtain ⟨start', openingLines'⟩ := p'
    obtain rfl : start' = start := hstart
    have hperm := period_rows_perm chart h ho
    refine ⟨?_, same_rows hperm⟩
    simp only [trialBalance, Option.map_some, (hperm.map _).sum_eq]

/-! ### The Profit & Loss account -/

/-- What an account adds to a group of the Profit & Loss account. -/
def Chart.plAmount (chart : Chart) (group : PlGroup) (lines : List ProjectedLine) (a : String) : ℤ :=
  if chart.plGroup a = some group then
    (if group = .revenue then -netOn a lines else netOn a lines)
  else 0

theorem pl_totals_tally (chart : Chart) (group : Chart.PlGroup) (lines : List ProjectedLine)
    (a : String) :
    tally ((lines.filter fun l => chart.plGroup l.account = some group).map fun l =>
      (l.account, if group = .revenue then l.creditPaise - l.debitPaise else net l)) a =
      chart.plAmount group lines a := by
  induction lines with
  | nil => simp [Chart.plAmount]
  | cons l lines ih =>
    unfold Chart.plAmount at ih ⊢
    by_cases hl : chart.plGroup l.account = some group
    · rw [List.filter_cons_of_pos (by simpa using hl), List.map_cons, tally_cons, ih, net_on_cons]
      by_cases ha : l.account = a
      · subst ha
        simp only [if_true, hl, net]
        split <;> omega
      · simp only [ha, if_false, zero_add]
    · rw [List.filter_cons_of_neg (by simpa using hl), ih, net_on_cons]
      by_cases ha : l.account = a
      · subst ha
        simp only [hl, if_false]
      · simp only [ha, if_false, zero_add]

/-- The accounts of a group that lines are on. -/
def Chart.plAccounts (chart : Chart) (group : PlGroup) (lines : List ProjectedLine) : List String :=
  firstKeys ((lines.filter fun l => chart.plGroup l.account = some group).map fun l =>
    (l.account, if group = .revenue then l.creditPaise - l.debitPaise else net l))

theorem pl_section_eq (chart : Chart) (label : String) (group : Chart.PlGroup)
    (lines : List ProjectedLine) :
    chart.plSection label (chart.plTotals group lines) =
      ⟨label, byName ((chart.plAccounts group lines).filterMap fun a =>
        if chart.plAmount group lines a = 0 then none
        else some (chart.statementLine a (chart.plAmount group lines a))),
        ((chart.plAccounts group lines).map (chart.plAmount group lines)).sum⟩ := by
  unfold Chart.plSection Chart.plTotals
  rw [grouped_eq]
  simp only [pl_totals_tally, List.map_map, List.filter_map]
  congr 2
  rw [← Chart.plAccounts]
  induction chart.plAccounts group lines with
  | nil => rfl
  | cons a accounts ih =>
    rw [List.filterMap_cons, List.filter_cons, ← ih]
    by_cases ha : chart.plAmount group lines a = 0 <;> simp [ha]

theorem pl_account (h : chart.plAmount group lines a ≠ 0) : a ∈ chart.plAccounts group lines := by
  rw [← pl_totals_tally] at h
  exact mem_of_tally h

theorem pl_section_same (h : SameTotals lines lines') :
    (chart.plSection label (chart.plTotals group lines)).Same
      (chart.plSection label (chart.plTotals group lines')) := by
  have hamount : chart.plAmount group lines' = chart.plAmount group lines := by
    funext a
    simp only [Chart.plAmount, h.net_on a]
  have hkeys : ∀ lines, (chart.plAccounts group lines).Nodup := fun _ => first_keys_nodup _
  have hsum := amounts_sum (chart.plAmount group lines) (hkeys lines) (hkeys lines')
    (fun a ha => pl_account ha) fun a ha => pl_account (hamount ▸ ha)
  rw [pl_section_eq, pl_section_eq, hamount]
  refine ⟨?_, same_rows (answers_perm (first_keys_nodup _) (first_keys_nodup _) ?_ ?_)⟩
  · simp only [Section.mk.injEq, true_and]
    exact hsum
  · exact fun a ha => pl_account fun hzero => ha (if_pos hzero)
  · exact fun a ha => pl_account (hamount ▸ fun hzero => ha (if_pos hzero))

theorem profit_loss_same (chart : Chart) (h : SameTotals lines lines') (startDate endDate : Date)
    (cash : Bool) :
    (profitLoss chart lines startDate endDate cash).Same
      (profitLoss chart lines' startDate endDate cash) := by
  have hsection : ∀ label group, (chart.plSection label (chart.plTotals group lines)).Same
      (chart.plSection label (chart.plTotals group lines')) := fun _ _ => pl_section_same h
  have htotal : ∀ label group, (chart.plSection label (chart.plTotals group lines)).totalPaise =
      (chart.plSection label (chart.plTotals group lines')).totalPaise := fun label group =>
    (Section.mk.inj (hsection label group).rest).2.2
  refine ⟨?_, hsection _ _, hsection _ _, hsection _ _⟩
  simp only [profitLoss, htotal]

/-! ### The Balance Sheet -/

theorem balances_eq (lines : List ProjectedLine) :
    grouped (lines.map fun l => (l.account, net l)) =
      (accountsOf lines).map fun a => (a, netOn a lines) := by
  rw [grouped_eq, first_keys_map]
  simp only [tally_net]

/-- An account's balance in the section of a type. -/
def Chart.sheetAmount (chart : Chart) (type : String) (lines : List ProjectedLine) (a : String) : ℤ :=
  if (chart.acc a).type = type then
    (if type = "Asset" then netOn a lines else -netOn a lines)
  else 0

theorem lines_for_eq (chart : Chart) (lines : List ProjectedLine) (type : String) :
    chart.linesFor (grouped (lines.map fun l => (l.account, net l))) type =
      byName ((accountsOf lines).filterMap fun a =>
        if chart.sheetAmount type lines a = 0 then none
        else some (chart.statementLine a (chart.sheetAmount type lines a))) := by
  unfold Chart.linesFor
  rw [balances_eq, List.filterMap_map]
  refine congrArg byName (List.filterMap_congr fun a _ => ?_)
  simp only [Function.comp_apply, Chart.sheetAmount]
  by_cases htype : (chart.acc a).type = type
  · subst htype
    by_cases hasset : (chart.acc a).type = "Asset" <;> simp [hasset]
  · simp [htype]

theorem sheet_account (h : chart.sheetAmount type lines a ≠ 0) : a ∈ accountsOf lines := by
  refine net_on_an_account fun hzero => h ?_
  simp [Chart.sheetAmount, hzero]

theorem sheet_amount_same (chart : Chart) (type : String) (h : SameTotals lines lines') :
    chart.sheetAmount type lines' = chart.sheetAmount type lines := by
  funext a
  simp only [Chart.sheetAmount, h.net_on a]

theorem sheet_rows_perm (h : SameTotals lines lines') :
    ((accountsOf lines).filterMap fun a => if chart.sheetAmount type lines a = 0 then none
        else some (chart.statementLine a (chart.sheetAmount type lines a))).Perm
      ((accountsOf lines').filterMap fun a => if chart.sheetAmount type lines' a = 0 then none
        else some (chart.statementLine a (chart.sheetAmount type lines' a))) := by
  have hamount := sheet_amount_same chart type h
  rw [hamount]
  refine answers_perm (accounts_nodup _) (accounts_nodup _) ?_ ?_
  · exact fun a ha => sheet_account fun hzero => ha (if_pos hzero)
  · exact fun a ha => sheet_account (hamount ▸ fun hzero => ha (if_pos hzero))

theorem lines_for_same (h : SameTotals lines lines') :
    SameRows StatementLine.accountName
      (chart.linesFor (grouped (lines.map fun l => (l.account, net l))) type)
      (chart.linesFor (grouped (lines'.map fun l => (l.account, net l))) type) := by
  rw [lines_for_eq, lines_for_eq]
  exact same_rows (sheet_rows_perm h)

theorem sect_same (label : String) (h : SameRows StatementLine.accountName rows rows') :
    (sect label rows).Same (sect label rows') := by
  refine ⟨?_, h⟩
  simp only [sect, (h.perm.map _).sum_eq]

/-- The profit that no entry has closed. -/
def Chart.retained (chart : Chart) (lines : List ProjectedLine) : ℤ :=
  -((accountsOf lines).map fun a => if (chart.acc a).isPl then netOn a lines else 0).sum

theorem retained_same (h : SameTotals lines lines') : chart.retained lines = chart.retained lines' := by
  unfold Chart.retained
  rw [← brought_forward_eq, ← brought_forward_eq, brought_forward_same h]

/-- Income net of expense, over the balances there are. -/
theorem retained_eq (chart : Chart) (lines : List ProjectedLine) :
    let balances := grouped (lines.map fun l => (l.account, net l))
    ((balances.filter fun t => (chart.acc t.1).isIncome).map fun t => -t.2).sum -
      ((balances.filter fun t => (chart.acc t.1).isExpense).map Prod.snd).sum =
        chart.retained lines := by
  unfold Chart.retained
  dsimp only
  rw [balances_eq]
  induction accountsOf lines with
  | nil => rfl
  | cons a accounts ih =>
    have hone : (chart.acc a).isIncome → ¬ (chart.acc a).isExpense := by
      rintro (hi | hi) he <;> exact absurd (hi.symm.trans he) (by decide)
    by_cases hi : (chart.acc a).isIncome
    · rw [List.map_cons, List.filter_cons_of_pos (by simpa using hi),
        List.filter_cons_of_neg (by simpa using hone hi), List.map_cons, List.sum_cons,
        List.map_cons, List.sum_cons, if_pos (show (chart.acc a).isPl from .inl hi)]
      omega
    · by_cases he : (chart.acc a).isExpense
      · rw [List.map_cons, List.filter_cons_of_neg (by simpa using hi),
          List.filter_cons_of_pos (by simpa using he), List.map_cons, List.sum_cons,
          List.map_cons, List.sum_cons, if_pos (show (chart.acc a).isPl from .inr he)]
        omega
      · rw [List.map_cons, List.filter_cons_of_neg (by simpa using hi),
          List.filter_cons_of_neg (by simpa using he), List.map_cons, List.sum_cons,
          if_neg (show ¬ (chart.acc a).isPl from not_or.mpr ⟨hi, he⟩)]
        omega

theorem balance_sheet_eq (chart : Chart) (lines : List ProjectedLine) (asOfDate : Date) (cash : Bool) :
    balanceSheet chart lines asOfDate cash =
      let balances := grouped (lines.map fun l => (l.account, net l))
      let assets := sect "Assets" (chart.linesFor balances "Asset")
      let liabilities := sect "Liabilities" (chart.linesFor balances "Liability")
      let equity := sect "Equity" (chart.linesFor balances "Equity" ++
        if chart.retained lines ≠ 0 then [retainedLine (chart.retained lines)] else [])
      ⟨asOfDate, assets, liabilities, equity, assets.totalPaise,
        liabilities.totalPaise + equity.totalPaise,
        assets.totalPaise - (liabilities.totalPaise + equity.totalPaise) = 0, cash⟩ := by
  unfold balanceSheet
  simp only [retained_eq]

theorem balance_sheet_same (chart : Chart) (h : SameTotals lines lines') (asOfDate : Date)
    (cash : Bool) :
    (balanceSheet chart lines asOfDate cash).Same (balanceSheet chart lines' asOfDate cash) := by
  have hrows : ∀ type, SameRows StatementLine.accountName
      (chart.linesFor (grouped (lines.map fun l => (l.account, net l))) type)
      (chart.linesFor (grouped (lines'.map fun l => (l.account, net l))) type) :=
    fun _ => lines_for_same h
  have hequity := hrows "Equity"
  rw [balance_sheet_eq, balance_sheet_eq, ← retained_same h]
  have hassets := sect_same "Assets" (hrows "Asset")
  have hliabilities := sect_same "Liabilities" (hrows "Liability")
  have hequity := sect_same "Equity" (⟨hequity.perm.append_right _, by
    rw [List.map_append, List.map_append, hequity.keys]⟩ : SameRows StatementLine.accountName
      (_ ++ if chart.retained lines ≠ 0 then [retainedLine (chart.retained lines)] else []) _)
  refine ⟨?_, hassets, hliabilities, hequity⟩
  have := (Section.mk.inj hassets.rest).2.2
  have := (Section.mk.inj hliabilities.rest).2.2
  have := (Section.mk.inj hequity.rest).2.2
  simp only [*]

end Caflow.Reporting
