import Caflow.Reporting.Articulation

set_option linter.all false

namespace Caflow.Reporting
open Accounting (netOn)
open IsoDate Tally Text

/-- The caption a line was given, or the one its type and subtype give it. -/
def captionOfLine (bucket : String → Option String → Option String → Option Caption)
    (l : StatementLine) : Option Caption :=
  l.scheduleIIICaption.or (bucket l.accountType l.accountSubtype none)

/-- Lines summed under their captions. -/
def bucketed (bucket : String → Option String → Option String → Option Caption)
    (lines : List StatementLine) : List (Caption × ℤ) :=
  grouped (lines.filterMap fun l => (captionOfLine bucket l).map fun c => (c, l.paise))

/-- The amounts of the Balance Sheet and of the Profit & Loss account under their captions. -/
def bucketAmounts (pl : ProfitLoss) (bs : BalanceSheet) : List (Caption × ℤ) × List (Caption × ℤ) :=
  (bucketed bsBucket (bs.assets.lines ++ bs.liabilities.lines ++ bs.equity.lines),
    bucketed plBucket
      (pl.revenue.lines ++ pl.operatingExpenses.lines ++ pl.costOfSales.lines))

structure ScheduleSection where
  heading : String
  lines : List (String × ℤ)
  totalPaise : ℤ
  totalLabel : String

structure ScheduleIII where
  fyStart : Date
  fyEnd : Date
  equityAndLiabilities : List ScheduleSection
  assets : List ScheduleSection
  totalEquityLiabilitiesPaise : ℤ
  totalAssetsPaise : ℤ
  isBalanced : Bool
  revenue : List ScheduleSection
  expenses : List ScheduleSection
  totalRevenuePaise : ℤ
  totalExpensesPaise : ℤ
  profitBeforeTaxPaise : ℤ
  taxExpensePaise : ℤ
  profitAfterTaxPaise : ℤ

/-- One year's statements in the form of the schedule. -/
def buildOneYear (pl : ProfitLoss) (bs : BalanceSheet) (fyStart fyEnd : Date) : ScheduleIII :=
  let buckets := bucketAmounts pl bs
  let gb (c : Caption) : ℤ := (buckets.1.lookup c).getD 0
  let gp (c : Caption) : ℤ := (buckets.2.lookup c).getD 0
  let shareCap := gb .shareCapital
  let reserves := gb .reservesSurplus
  let shareholdersFunds := shareCap + reserves
  let ltb := gb .longTermBorrowings
  let dtl := gb .deferredTaxLiability
  let nonCurrentLiab := ltb + dtl
  let stb := gb .shortTermBorrowings
  let tp := gb .tradePayables
  let ocl := gb .otherCurrentLiabilities
  let currentLiab := stb + tp + ocl
  let totalEquityLiab := shareholdersFunds + nonCurrentLiab + currentLiab
  let tangible := gb .tangibleFixedAssets
  let intangible := gb .intangibleFixedAssets
  let ltInv := gb .longTermInvestments
  let cwip := gb .capitalWorkInProgress
  let nonCurrentAssets := tangible + intangible + cwip + ltInv
  let inv := gb .inventories
  let tr := gb .tradeReceivables
  let cash := gb .cashEquivalents
  let stla := gb .shortTermLoansAdvances
  let oca := gb .otherCurrentAssets
  let currentAssets := inv + tr + cash + stla + oca
  let totalAssets := nonCurrentAssets + currentAssets
  let revOps := gp .revenueFromOperations
  let otherIncome := gp .otherIncome
  let totalRevenue := revOps + otherIncome
  let materials := gp .costOfMaterialsConsumed
  let emp := gp .employeeBenefitsExpense
  let finance := gp .financeCosts
  let depr := gp .depreciationAmortisation
  let otherExp := gp .otherExpenses
  -- shown below the line, not in the total expenses
  let taxExp := gp .taxExpense
  let operatingExpenses := materials + emp + finance + depr + otherExp
  let profitBeforeTax := totalRevenue - operatingExpenses
  { fyStart, fyEnd
    equityAndLiabilities :=
      [⟨"I. Shareholders' Funds", [("Share Capital", shareCap), ("Reserves & Surplus", reserves)],
          shareholdersFunds, "Total Shareholders' Funds"⟩,
        ⟨"II. Non-Current Liabilities",
          [("Long-term Borrowings", ltb), ("Deferred Tax Liability", dtl)], nonCurrentLiab,
          "Total Non-Current Liabilities"⟩,
        ⟨"III. Current Liabilities", [("Short-term Borrowings", stb), ("Trade Payables", tp),
            ("Other Current Liabilities", ocl)], currentLiab, "Total Current Liabilities"⟩]
    assets :=
      [⟨"I. Non-Current Assets", [("Fixed Assets — Tangible", tangible),
            ("Fixed Assets — Intangible", intangible), ("Capital Work-in-Progress", cwip),
            ("Long-term Investments", ltInv)], nonCurrentAssets, "Total Non-Current Assets"⟩,
        ⟨"II. Current Assets", [("Inventories", inv), ("Trade Receivables", tr),
            ("Cash & Cash Equivalents", cash), ("Short-term Loans & Advances", stla),
            ("Other Current Assets", oca)], currentAssets, "Total Current Assets"⟩]
    totalEquityLiabilitiesPaise := totalEquityLiab
    totalAssetsPaise := totalAssets
    isBalanced := totalAssets = totalEquityLiab
    revenue := [⟨"I. Revenue", [("Revenue from Operations", revOps), ("Other Income", otherIncome)],
      totalRevenue, "Total Revenue (I)"⟩]
    expenses := [⟨"II. Expenses", [("Cost of Materials Consumed", materials),
        ("Employee Benefits Expense", emp), ("Finance Costs", finance),
        ("Depreciation & Amortisation Expense", depr), ("Other Expenses", otherExp)],
      operatingExpenses, "Total Expenses (II)"⟩]
    totalRevenuePaise := totalRevenue
    totalExpensesPaise := operatingExpenses
    profitBeforeTaxPaise := profitBeforeTax
    taxExpensePaise := taxExp
    profitAfterTaxPaise := profitBeforeTax - taxExp }

/-- The amounts of some lines whose caption is on a side. -/
def onSide (bucket : String → Option String → Option String → Option Caption) (side : Side)
    (lines : List StatementLine) : ℤ :=
  (lines.map fun l => if (captionOfLine bucket l).map Caption.side = some side then l.paise else 0).sum

theorem on_side_append (bucket : String → Option String → Option String → Option Caption)
    (side : Side) (lines lines' : List StatementLine) :
    onSide bucket side (lines ++ lines') = onSide bucket side lines + onSide bucket side lines' := by
  simp [onSide]

/-- The captions of a side, each read once, take up every line of that side. -/
theorem side_captions {captions : List Caption} (hnodup : captions.Nodup)
    (hall : ∀ c, c ∈ captions ↔ c.side = side)
    (bucket : String → Option String → Option String → Option Caption) (lines : List StatementLine) :
    (captions.map fun c => ((bucketed bucket lines).lookup c).getD 0).sum = onSide bucket side lines := by
  unfold bucketed
  simp only [lookup_grouped]
  induction lines with
  | nil => simp [onSide, List.sum_eq_zero]
  | cons l lines ih =>
    rw [← List.singleton_append, on_side_append, ← ih, List.filterMap_append]
    simp only [tally_append]
    rw [List.sum_map_add]
    refine congrArg (· + _) ?_
    cases hc : captionOfLine bucket l with
    | none => simp [onSide, hc, List.sum_eq_zero]
    | some c =>
      have hone : ∀ c', tally (([l] : List StatementLine).filterMap fun l =>
          (captionOfLine bucket l).map fun c => (c, l.paise)) c' = if c = c' then l.paise else 0 := by
        intro c'
        simp [hc, tally_cons]
      refine (congrArg List.sum (List.map_congr_left fun c' _ => hone c')).trans ?_
      rw [sum_single hnodup]
      by_cases hside : c.side = side <;> simp [onSide, hc, hside, hall]

/-- The part of the statements that an account's caption is read into. -/
def Chart.captionSide (chart : Chart) (a : String) : Option Side :=
  (captionOf (chart.acc a)).1.map Caption.side

/-- A caption that no bucket gives is not given by the other words of the account either. -/
theorem caption_fallback (h : (classify type subtype mapping).1 = none) :
    bsBucket type subtype none = none ∧ plBucket type subtype none = none := by
  have hpair : (bsBucket type subtype none).or (plBucket type subtype none) = none := by
    unfold classify at h
    dsimp only at h
    split at h
    · rename_i hchosen
      exact absurd (hchosen.2.symm.trans h) hchosen.1
    · split at h
      · rename_i hnone
        exact hnone
      · simp at h
  exact Option.or_eq_none_iff.mp hpair

/-- A line of an account is read where the account's caption is. -/
theorem line_side (chart : Chart) (a : String) (paise : ℤ) :
    (captionOfLine bsBucket (chart.statementLine a paise)).map Caption.side = chart.captionSide a ∧
      (captionOfLine plBucket (chart.statementLine a paise)).map Caption.side = chart.captionSide a := by
  have hline : (chart.statementLine a paise).scheduleIIICaption = (captionOf (chart.acc a)).1 := rfl
  unfold captionOfLine Chart.captionSide
  rw [hline]
  cases hc : (captionOf (chart.acc a)).1 with
  | some c => exact ⟨rfl, rfl⟩
  | none =>
    obtain ⟨hbs, hpl⟩ := caption_fallback hc
    simp [Chart.statementLine, hbs, hpl]

/-- Rows with an amount, account by account, read into a side. -/
theorem on_side_rows (chart : Chart) (hside : ∀ a paise, (captionOfLine bucket (chart.statementLine a paise)).map
      Caption.side = chart.captionSide a) (amount : String → ℤ) (keys : List String) :
    onSide bucket side (byName (keys.filterMap fun a =>
      if amount a = 0 then none else some (chart.statementLine a (amount a)))) =
      (keys.map fun a => if chart.captionSide a = some side then amount a else 0).sum := by
  have hperm := List.perm_insertionSort
    (fun l l' : StatementLine => l.accountName ≤ l'.accountName)
    (keys.filterMap fun a =>
      if amount a = 0 then none else some (chart.statementLine a (amount a)))
  unfold onSide byName
  rw [(hperm.map _).sum_eq, sum_filter_map]
  refine congrArg List.sum (List.map_congr_left fun a _ => ?_)
  by_cases ha : amount a = 0
  · simp [ha]
  · rw [if_neg ha]
    simp only [Option.elim_some, hside]
    rfl

instance (chart : Chart) (type : String) (side : Side) :
    DecidablePred fun a => (chart.acc a).type = type ∧ chart.captionSide a = some side :=
  fun _ => inferInstanceAs (Decidable (_ ∧ _))

/-- What a section of the Balance Sheet gives a side. -/
theorem sheet_on_side (chart : Chart) (lines : List ProjectedLine) (type : String) (side : Side) :
    onSide bsBucket side (chart.linesFor (grouped (lines.map fun l => (l.account, net l))) type) =
      if type = "Asset" then
        netWhere (fun a => (chart.acc a).type = type ∧ chart.captionSide a = some side) lines
      else
        -netWhere (fun a => (chart.acc a).type = type ∧ chart.captionSide a = some side) lines := by
  rw [lines_for_eq, on_side_rows chart fun a paise => (line_side chart a paise).1]
  simp only [net_where_accounts]
  unfold Chart.sheetAmount
  split
  · refine congrArg List.sum (List.map_congr_left fun a _ => ?_)
    by_cases htype : (chart.acc a).type = type <;> simp [htype]
  · rw [List.sum_neg, List.map_map]
    refine congrArg List.sum (List.map_congr_left fun a _ => ?_)
    by_cases htype : (chart.acc a).type = type <;>
      by_cases hside : chart.captionSide a = some side <;> simp [htype, hside]

/-- What a group of the Profit & Loss account gives a side. -/
theorem pl_on_side (chart : Chart) (lines : List ProjectedLine) (group : Chart.PlGroup) (side : Side) :
    onSide plBucket side (chart.plSection label (chart.plTotals group lines)).lines =
      if group = .revenue then
        -netWhere (fun a => chart.plGroup a = some group ∧ chart.captionSide a = some side) lines
      else
        netWhere (fun a => chart.plGroup a = some group ∧ chart.captionSide a = some side) lines := by
  rw [pl_section_eq]
  dsimp only
  rw [on_side_rows chart fun a paise => (line_side chart a paise).2]
  have hkeys : (chart.plAccounts group lines).Nodup := first_keys_nodup _
  have hsum := amounts_sum
    (fun a => if chart.captionSide a = some side then chart.plAmount group lines a else 0)
    hkeys (accounts_nodup lines)
    (fun a ha => pl_account fun hzero => ha (by simp [hzero]))
    fun a ha => net_on_an_account fun hzero => ha (by simp [Chart.plAmount, hzero])
  rw [hsum]
  simp only [net_where_accounts]
  unfold Chart.plAmount
  split
  · rw [List.sum_neg, List.map_map]
    refine congrArg List.sum (List.map_congr_left fun a _ => ?_)
    by_cases hgroup : chart.plGroup a = some group <;>
      by_cases hside : chart.captionSide a = some side <;> simp [hgroup, hside]
  · refine congrArg List.sum (List.map_congr_left fun a _ => ?_)
    by_cases hgroup : chart.plGroup a = some group <;> simp [hgroup]

/-- The totals of a year's statements are the totals of each side of their lines. -/
theorem year_totals (pl : ProfitLoss) (bs : BalanceSheet) (fyStart fyEnd : Date) :
    let doc := buildOneYear pl bs fyStart fyEnd
    let sheet := bs.assets.lines ++ bs.liabilities.lines ++ bs.equity.lines
    let account := pl.revenue.lines ++ pl.operatingExpenses.lines ++ pl.costOfSales.lines
    doc.totalAssetsPaise = onSide bsBucket .assets sheet ∧
      doc.totalEquityLiabilitiesPaise = onSide bsBucket .equityLiabilities sheet ∧
      doc.profitAfterTaxPaise = onSide plBucket .revenue account - onSide plBucket .expenses account := by
  intro doc sheet account
  have hassets : ∀ c, c ∈ [Caption.tangibleFixedAssets, .intangibleFixedAssets,
      .capitalWorkInProgress, .longTermInvestments, .inventories, .tradeReceivables,
      .cashEquivalents, .shortTermLoansAdvances, .otherCurrentAssets] ↔ c.side = .assets := by
    intro c
    cases c <;> decide
  have hliabilities : ∀ c, c ∈ [Caption.shareCapital, .reservesSurplus, .longTermBorrowings,
      .deferredTaxLiability, .shortTermBorrowings, .tradePayables, .otherCurrentLiabilities] ↔
      c.side = .equityLiabilities := by
    intro c
    cases c <;> decide
  have hrevenue : ∀ c, c ∈ [Caption.revenueFromOperations, .otherIncome] ↔ c.side = .revenue := by
    intro c
    cases c <;> decide
  have hexpenses : ∀ c, c ∈ [Caption.costOfMaterialsConsumed, .employeeBenefitsExpense, .financeCosts,
      .depreciationAmortisation, .otherExpenses, .taxExpense] ↔ c.side = .expenses := by
    intro c
    cases c <;> decide
  rw [← side_captions (by decide) hassets, ← side_captions (by decide) hliabilities,
    ← side_captions (by decide) hrevenue, ← side_captions (by decide) hexpenses]
  simp only [List.map_cons, List.map_nil, List.sum_cons, List.sum_nil]
  simp only [doc, buildOneYear, bucketAmounts, sheet, account]
  omega

/-- Every section of a year's statements adds up. -/
theorem year_sections (pl : ProfitLoss) (bs : BalanceSheet) (fyStart fyEnd : Date) :
    let doc := buildOneYear pl bs fyStart fyEnd
    ∀ s ∈ doc.equityAndLiabilities ++ doc.assets ++ doc.revenue ++ doc.expenses,
      s.totalPaise = (s.lines.map Prod.snd).sum := by
  intro doc s hs
  simp only [doc, buildOneYear, List.cons_append, List.nil_append, List.mem_cons, List.not_mem_nil,
    or_false] at hs
  rcases hs with rfl | rfl | rfl | rfl | rfl | rfl | rfl <;>
    simp only [List.map_cons, List.map_nil, List.sum_cons, List.sum_nil] <;> omega

theorem bs_keyword_side (typ sub : String) :
    (bsKeyword typ sub).map Caption.side =
      if typ = "equity" ∨ typ = "liability" then some .equityLiabilities
      else if typ = "asset" then some .assets else none := by
  by_cases hle : typ = "equity" ∨ typ = "liability"
  · rw [if_pos hle]
    unfold bsKeyword
    rcases hle with rfl | rfl
    · rw [if_pos rfl, Option.map_some]
      split <;> rfl
    · rw [if_neg (by decide), if_pos rfl]
      split_ifs <;> rfl
  · obtain ⟨he, hl⟩ := not_or.mp hle
    rw [if_neg hle]
    unfold bsKeyword
    rw [if_neg he, if_neg hl]
    by_cases ha : typ = "asset"
    · rw [if_pos ha, if_pos ha, Option.map_some]
      split_ifs <;> rfl
    · rw [if_neg ha, if_neg ha, Option.map_none]

/-- An account of the Balance Sheet is captioned on one of its two sides. -/
theorem sheet_caption_side (chart : Chart) (a : String)
    (htype : (chart.acc a).type ∈ ["Asset", "Liability", "Equity"]) :
    chart.captionSide a = some .equityLiabilities ∨ chart.captionSide a = some .assets := by
  have hlower : lower (chart.acc a).type = "equity" ∨ lower (chart.acc a).type = "liability" ∨
      lower (chart.acc a).type = "asset" := by
    simp only [List.mem_cons, List.not_mem_nil, or_false] at htype
    rcases htype with h | h | h <;> rw [h] <;> decide
  have hbucket : ∀ mapping, ∃ c, bsBucket (chart.acc a).type (chart.acc a).subtype mapping = some c ∧
      c.onBalanceSheet := by
    intro mapping
    unfold bsBucket
    dsimp only
    rw [if_pos hlower]
    cases hc : (canonicalCaption mapping (chart.acc a).subtype).filter (·.onBalanceSheet) with
    | some c => exact ⟨c, rfl, by simpa using (Option.filter_eq_some_iff.mp hc).2⟩
    | none =>
      have hside := bs_keyword_side (lower (chart.acc a).type) (foldSubtype (chart.acc a).subtype)
      cases hk : bsKeyword (lower (chart.acc a).type) (foldSubtype (chart.acc a).subtype) with
      | none =>
        rw [hk] at hside
        rcases hlower with h | h | h <;> simp [h] at hside
      | some c =>
        rw [hk] at hside
        refine ⟨c, rfl, ?_⟩
        rcases hlower with h | h | h <;> simp [h] at hside
        · exact .inl hside
        · exact .inl hside
        · exact .inr hside
  have hcaption : ∃ c, (captionOf (chart.acc a)).1 = some c ∧ c.onBalanceSheet := by
    unfold captionOf classify
    dsimp only
    split
    · obtain ⟨c, hc, hside⟩ := hbucket (chart.acc a).scheduleIIIMapping
      exact ⟨c, by rw [hc, Option.some_or], hside⟩
    · obtain ⟨c, hc, hside⟩ := hbucket none
      rw [hc, Option.some_or]
      exact ⟨c, rfl, hside⟩
  obtain ⟨c, hc, hside | hside⟩ := hcaption
  · exact .inl (by rw [Chart.captionSide, hc, Option.map_some, hside])
  · exact .inr (by rw [Chart.captionSide, hc, Option.map_some, hside])

namespace Chart

variable (chart : Chart)

/-- An account of one side of the Balance Sheet with a caption of the other. -/
def crossed (a : String) : Prop :=
  ((chart.acc a).type = "Asset" ∧ chart.captionSide a = some .equityLiabilities) ∨
    (((chart.acc a).type = "Liability" ∨ (chart.acc a).type = "Equity") ∧
      chart.captionSide a = some .assets)

/-- An account of income with a caption of the expenses, or one of cost with a caption of revenue. -/
def turned (a : String) : Prop :=
  (chart.plGroup a = some .revenue ∧ chart.captionSide a = some .expenses) ∨
    ((chart.plGroup a = some .costOfSales ∨ chart.plGroup a = some .operatingExpenses) ∧
      chart.captionSide a = some .revenue)

/-- An account of the Profit & Loss account that has no caption there. -/
def unpresented (a : String) : Prop :=
  chart.plGroup a ≠ none ∧ chart.captionSide a ≠ some .revenue ∧ chart.captionSide a ≠ some .expenses

instance : DecidablePred chart.crossed := fun _ => inferInstanceAs (Decidable (_ ∨ _))

instance : DecidablePred chart.turned := fun _ => inferInstanceAs (Decidable (_ ∨ _))

instance : DecidablePred chart.unpresented := fun _ => inferInstanceAs (Decidable (_ ∧ _))

end Chart

/-- The statements keep the totals of the reports they are drawn from, and every section adds up. -/
structure KeepsTotals (pl : ProfitLoss) (bs : BalanceSheet) (doc : ScheduleIII) : Prop where
  assets : doc.totalAssetsPaise = bs.totalAssetsPaise
  equityLiabilities : doc.totalEquityLiabilitiesPaise = bs.totalLiabilitiesEquityPaise
  profit : doc.profitAfterTaxPaise = pl.netProfitPaise
  sections : ∀ s ∈ doc.equityAndLiabilities ++ doc.assets ++ doc.revenue ++ doc.expenses,
    s.totalPaise = (s.lines.map Prod.snd).sum

/-- A section of the Balance Sheet is shared between the two sides. -/
theorem type_shared (chart : Chart) (lines : List ProjectedLine) (type : String)
    (htype : type ∈ ["Asset", "Liability", "Equity"]) :
    netWhere (fun a => (chart.acc a).type = type) lines =
      netWhere (fun a => (chart.acc a).type = type ∧
          chart.captionSide a = some .equityLiabilities) lines +
        netWhere (fun a => (chart.acc a).type = type ∧ chart.captionSide a = some .assets) lines := by
  refine net_where_split _ _ _ (fun a => ⟨fun h => ?_, ?_⟩) (fun a h h' => ?_) lines
  · exact (sheet_caption_side chart a (h ▸ htype)).imp (⟨h, ·⟩) (⟨h, ·⟩)
  · rintro (h | h) <;> exact h.1
  · exact absurd (h.2.symm.trans h'.2) (by decide)

theorem crossed_total (chart : Chart) (lines : List ProjectedLine) :
    netWhere chart.crossed lines =
      netWhere (fun a => (chart.acc a).type = "Asset" ∧
          chart.captionSide a = some .equityLiabilities) lines +
        (netWhere (fun a => (chart.acc a).type = "Liability" ∧
            chart.captionSide a = some .assets) lines +
          netWhere (fun a => (chart.acc a).type = "Equity" ∧
            chart.captionSide a = some .assets) lines) := by
  induction lines with
  | nil => rfl
  | cons l lines ih =>
    simp only [net_where_cons, ih]
    have hone : (if chart.crossed l.account then net l else 0) =
        (if (chart.acc l.account).type = "Asset" ∧
            chart.captionSide l.account = some .equityLiabilities then net l else 0) +
          ((if (chart.acc l.account).type = "Liability" ∧
              chart.captionSide l.account = some .assets then net l else 0) +
            if (chart.acc l.account).type = "Equity" ∧
              chart.captionSide l.account = some .assets then net l else 0) := by
      unfold Chart.crossed
      by_cases ha : (chart.acc l.account).type = "Asset"
      · simp [ha]
      by_cases hb : (chart.acc l.account).type = "Liability"
      · simp [hb]
      · simp [ha, hb]
    rw [hone]
    omega

/-- The profit after tax is out by the turned accounts twice and by the unpresented ones once. -/
theorem profit_out_by (chart : Chart) (lines : List ProjectedLine) :
    -netWhere (fun a => chart.plGroup a = some .revenue ∧ chart.captionSide a = some .revenue) lines +
          netWhere (fun a => chart.plGroup a = some .operatingExpenses ∧
            chart.captionSide a = some .revenue) lines +
        netWhere (fun a => chart.plGroup a = some .costOfSales ∧
          chart.captionSide a = some .revenue) lines -
      (-netWhere (fun a => chart.plGroup a = some .revenue ∧
            chart.captionSide a = some .expenses) lines +
          netWhere (fun a => chart.plGroup a = some .operatingExpenses ∧
            chart.captionSide a = some .expenses) lines +
        netWhere (fun a => chart.plGroup a = some .costOfSales ∧
          chart.captionSide a = some .expenses) lines) =
      -netWhere (fun a => (chart.acc a).isPl) lines - netWhere chart.oddCogs lines +
        (2 * netWhere chart.turned lines + netWhere chart.unpresented lines) := by
  induction lines with
  | nil => rfl
  | cons l lines ih =>
    simp only [net_where_cons]
    have hcount : (if (chart.acc l.account).isPl then net l else 0) +
        (if chart.oddCogs l.account then net l else 0) =
          if chart.plGroup l.account ≠ none then net l else 0 := by
      unfold Chart.oddCogs Chart.plGroup Account.isPl
      by_cases hi : (chart.acc l.account).isIncome
      · simp [hi]
      by_cases hc : chart.isCogs l.account <;>
        by_cases he : (chart.acc l.account).isExpense <;> simp [hi, hc, he]
    have hone :
        -(if chart.plGroup l.account = some .revenue ∧ chart.captionSide l.account = some .revenue
            then net l else 0) +
            (if chart.plGroup l.account = some .operatingExpenses ∧
              chart.captionSide l.account = some .revenue then net l else 0) +
          (if chart.plGroup l.account = some .costOfSales ∧
            chart.captionSide l.account = some .revenue then net l else 0) -
        (-(if chart.plGroup l.account = some .revenue ∧
            chart.captionSide l.account = some .expenses then net l else 0) +
            (if chart.plGroup l.account = some .operatingExpenses ∧
              chart.captionSide l.account = some .expenses then net l else 0) +
          (if chart.plGroup l.account = some .costOfSales ∧
            chart.captionSide l.account = some .expenses then net l else 0)) =
        -(if chart.plGroup l.account ≠ none then net l else 0) +
          (2 * (if chart.turned l.account then net l else 0) +
            if chart.unpresented l.account then net l else 0) := by
      unfold Chart.turned Chart.unpresented
      obtain hg | ⟨group, hg⟩ := Option.eq_none_or_eq_some (chart.plGroup l.account)
      · simp [hg]
      · obtain hs | ⟨side, hs⟩ := Option.eq_none_or_eq_some (chart.captionSide l.account)
        · cases group <;> simp [hg, hs]
        · cases group <;> cases side <;> simp [hg, hs] <;> ring
    omega

/-- The statements keep the totals exactly where what is posted to accounts captioned on the other
side of the sheet comes to nothing, and so does what the profit is out by. -/
theorem keeps_totals_iff (chart : Chart) (plLines bsLines : List ProjectedLine)
    (startDate endDate fyStart fyEnd : Date) (cash : Bool) :
    let pl := profitLoss chart plLines startDate endDate cash
    let bs := balanceSheet chart bsLines endDate cash
    KeepsTotals pl bs (buildOneYear pl bs fyStart fyEnd) ↔
      netWhere chart.crossed bsLines = 0 ∧
        2 * netWhere chart.turned plLines + netWhere chart.unpresented plLines = 0 := by
  intro pl bs
  obtain ⟨hassets, hliabilities, hprofit⟩ := year_totals pl bs fyStart fyEnd
  have hcrossed := crossed_total chart bsLines
  have hasset := type_shared chart bsLines "Asset" (by simp)
  have hliability := type_shared chart bsLines "Liability" (by simp)
  have hequity := type_shared chart bsLines "Equity" (by simp)
  have hnet : pl.netProfitPaise = _ := net_profit_eq chart plLines startDate endDate cash
  have hout := profit_out_by chart plLines
  have hsheet : bs = _ := balance_sheet_eq chart bsLines endDate cash
  have hretained : ∀ side, onSide bsBucket side (if chart.retained bsLines ≠ 0 then
      [retainedLine (chart.retained bsLines)] else []) =
        if side = .equityLiabilities then chart.retained bsLines else 0 := by
    intro side
    split
    · cases side <;> simp [onSide, captionOfLine, retainedLine, Caption.side]
    · rename_i h
      simp only [ne_eq, not_not] at h
      simp [onSide, h]
  have hretainedSum : ((if chart.retained bsLines ≠ 0 then [retainedLine (chart.retained bsLines)]
      else []).map StatementLine.paise).sum = chart.retained bsLines := by
    split
    · simp [retainedLine]
    · rename_i h
      simp only [ne_eq, not_not] at h
      simp [h]
  have hprofitLines : ∀ side, onSide plBucket side
      (pl.revenue.lines ++ pl.operatingExpenses.lines ++ pl.costOfSales.lines) =
        -netWhere (fun a => chart.plGroup a = some .revenue ∧ chart.captionSide a = some side) plLines +
            netWhere (fun a => chart.plGroup a = some .operatingExpenses ∧
              chart.captionSide a = some side) plLines +
          netWhere (fun a => chart.plGroup a = some .costOfSales ∧
            chart.captionSide a = some side) plLines := by
    intro side
    simp only [pl, profitLoss, on_side_append, pl_on_side, if_true, reduceCtorEq, if_false]
  have hsheetLines : ∀ side, onSide bsBucket side
      (bs.assets.lines ++ bs.liabilities.lines ++ bs.equity.lines) =
        netWhere (fun a => (chart.acc a).type = "Asset" ∧ chart.captionSide a = some side) bsLines -
            netWhere (fun a => (chart.acc a).type = "Liability" ∧
              chart.captionSide a = some side) bsLines -
          netWhere (fun a => (chart.acc a).type = "Equity" ∧ chart.captionSide a = some side) bsLines +
        if side = .equityLiabilities then chart.retained bsLines else 0 := by
    intro side
    rw [hsheet]
    simp only [sect, on_side_append, sheet_on_side, hretained, if_true,
      show ("Liability" = "Asset") = False by simp, show ("Equity" = "Asset") = False by simp, if_false]
    ring
  have htotals : bs.totalAssetsPaise = netWhere (fun a => (chart.acc a).type = "Asset") bsLines ∧
      bs.totalLiabilitiesEquityPaise = -netWhere (fun a => (chart.acc a).type = "Liability") bsLines -
        netWhere (fun a => (chart.acc a).type = "Equity") bsLines + chart.retained bsLines := by
    rw [hsheet]
    simp only [sect, List.map_append, List.sum_append, sheet_total, hretainedSum, if_true,
      show ("Liability" = "Asset") = False by simp, show ("Equity" = "Asset") = False by simp, if_false]
    exact ⟨trivial, by ring⟩
  rw [hsheetLines] at hassets hliabilities
  rw [hprofitLines, hprofitLines] at hprofit
  simp only [reduceCtorEq, if_false, if_true] at hassets hliabilities
  constructor
  · intro h
    have h₁ := h.assets
    have h₂ := h.profit
    rw [hassets, htotals.1] at h₁
    rw [hprofit, hnet] at h₂
    constructor <;> omega
  · rintro ⟨h₁, h₂⟩
    refine ⟨?_, ?_, ?_, year_sections pl bs fyStart fyEnd⟩
    · rw [hassets, htotals.1]
      omega
    · rw [hliabilities, htotals.2]
      omega
    · rw [hprofit, hnet]
      omega

/-- A firm that lent its capital out as a deposit, the deposit mapped to a caption of the liabilities. -/
def lender : Chart where
  values := [⟨"deposit", "1400", "Deposit with Vendor", "Asset", some "Deposits", none,
      some "Trade Payables"⟩,
    ⟨"capital", "3001", "Capital", "Equity", some "Share Capital", none, none⟩]
  keyed := by decide

def lenderSheet : BalanceSheet :=
  balanceSheet lender [⟨"deposit", 500, 0⟩, ⟨"capital", 0, 500⟩] february28 false

def lenderProfit : ProfitLoss := profitLoss lender [] february1 february28 false

/-- The balance sheet balances at 500; its statement has no assets and 1,000 of liabilities. -/
theorem deposit_among_payables :
    lenderSheet.isBalanced = true ∧ lenderSheet.totalAssetsPaise = 500 ∧
      (buildOneYear lenderProfit lenderSheet february1 february28).totalAssetsPaise = 0 ∧
      (buildOneYear lenderProfit lenderSheet february1 february28).totalEquityLiabilitiesPaise = 1000 ∧
      ¬ KeepsTotals lenderProfit lenderSheet
        (buildOneYear lenderProfit lenderSheet february1 february28) := by
  have htotal : lenderSheet.totalAssetsPaise = 500 := by decide +kernel
  have hstated : (buildOneYear lenderProfit lenderSheet february1 february28).totalAssetsPaise = 0 := by
    decide +kernel
  refine ⟨by decide +kernel, htotal, hstated, by decide +kernel, fun h => ?_⟩
  have := h.assets
  omega

end Caflow.Reporting
