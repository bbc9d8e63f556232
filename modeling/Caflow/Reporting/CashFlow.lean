import Caflow.Reporting.Articulation

set_option linter.all false

namespace Caflow.Reporting
open Accounting (JournalLine totalDebit totalCredit)
open IsoDate Tally Text

inductive Activity where
  | operating | investing | financing
  deriving DecidableEq

/-- Control accounts that are working capital whatever their type. -/
def operatingKeys : List String :=
  ["ar", "ap", "gst_input", "gst_output", "gst_cgst", "gst_sgst", "gst_igst", "tds_payable",
    "tds_receivable", "advance_customer", "advance_vendor"]

/-- The activity of an account that is not cash. -/
def classifyActivity (a : Account) : Activity :=
  let sub := lower (strip (a.subtype.getD ""))
  if a.systemKey.any (· ∈ operatingKeys) then .operating
  else if a.type = "Asset" then
    (if ["fixed", "investment", "non-current", "non current"].any (within · sub) then .investing
      else .operating)
  else if a.type = "Equity" then .financing
  else if a.type = "Liability" then
    (if ["loan", "borrow", "long-term", "long term", "non-current", "non current"].any (within · sub)
      then .financing else .operating)
  else .operating

structure CashFlowLine where
  accountId : String
  accountCode : String
  accountName : String
  accountType : String
  accountSubtype : Option String
  amountPaise : ℤ

structure CashFlowSection where
  label : String
  lines : List CashFlowLine
  totalPaise : ℤ

/-- What the pass over the entries has come to. -/
structure CashTotals where
  invAcc : List (String × ℤ)
  finAcc : List (String × ℤ)
  operatingCash : ℤ
  investingCash : ℤ
  financingCash : ℤ
  nonOperatingPl : ℤ
  netProfit : ℤ
  depreciation : ℤ
  workingCapital : ℤ
  nonCashExcluded : ℕ
  totalCash : ℤ
  openingFold : ℤ

def CashTotals.zero : CashTotals := ⟨[], [], 0, 0, 0, 0, 0, 0, 0, 0, 0, 0⟩

/-- Of two legs the one that is larger, or of the same size has the later account. -/
def moreMaterial (l l' : JournalLine) : Prop :=
  l.debitPaise + l.creditPaise < l'.debitPaise + l'.creditPaise ∨
    (l.debitPaise + l.creditPaise = l'.debitPaise + l'.creditPaise ∧ l.account < l'.account)

instance (l l' : JournalLine) : Decidable (moreMaterial l l') := inferInstanceAs (Decidable (_ ∨ _))

/-- The account of the most material leg. -/
def mostMaterial : List JournalLine → Option String
  | [] => none
  | l :: legs => some (legs.foldl (fun best l => if moreMaterial best l then l else best) l).account

namespace Chart

variable (chart : Chart)

def activityOf (l : JournalLine) : Activity := classifyActivity (chart.acc l.account)

/-- Of the legs that are not cash, an investing one decides before a financing one. -/
def activityOfEntry (nonbank : List JournalLine) : Activity :=
  if nonbank.any (chart.activityOf · = .investing) then .investing
  else if nonbank.any (chart.activityOf · = .financing) then .financing
  else .operating

/-- An entry's cash goes to the most material leg of its activity. -/
def attributeCash (accTotals : List (String × ℤ)) (nonbank : List JournalLine) (activity : Activity)
    (cash : ℤ) : List (String × ℤ) :=
  let own := nonbank.filter (chart.activityOf · = activity)
  match mostMaterial (if own = [] then nonbank else own) with
  | none => accTotals
  | some key => addTo key cash accTotals

/-- The profit or loss that the legs of an entry recognise. -/
def plOf (nonbank : List JournalLine) : ℤ :=
  ((nonbank.filter fun l => (chart.acc l.account).isPl).map fun l =>
    l.creditPaise - l.debitPaise).sum

/-- A leg's part in the indirect reconciliation. -/
def addLeg (s : CashTotals) (l : JournalLine) : CashTotals :=
  let a := chart.acc l.account
  if a.isPl then
    { s with
      netProfit := s.netProfit + (l.creditPaise - l.debitPaise)
      depreciation :=
        if a.isExpense ∧ lower (strip (a.subtype.getD "")) = "depreciation" then
          s.depreciation + (l.debitPaise - l.creditPaise) else s.depreciation }
  else if classifyActivity a = .operating then
    { s with workingCapital := s.workingCapital + (l.creditPaise - l.debitPaise) }
  else s

end Chart

section
variable (chart : Chart) (bankIds : List String)

def cashOf (e : JournalEntry) : ℤ := ((e.lines.filter fun l => l.account ∈ bankIds).map net).sum

def nonbankOf (e : JournalEntry) : List JournalLine := e.lines.filter fun l => l.account ∉ bankIds

/-- A balance brought forward is a position and no flow of the period. -/
def isOpening (e : JournalEntry) : Prop := e.entryType = "Opening" ∨ e.sourceType = some "Opening"

instance (e : JournalEntry) : Decidable (isOpening e) := inferInstanceAs (Decidable (_ ∨ _))

/-- The cash an entry moves, put with its activity. -/
def addCash (s : CashTotals) (e : JournalEntry) : CashTotals :=
  let cash := cashOf bankIds e
  let nonbank := nonbankOf bankIds e
  let s := { s with totalCash := s.totalCash + cash }
  if cash ≠ 0 then
    match chart.activityOfEntry nonbank with
    | .investing =>
      { s with
        investingCash := s.investingCash + cash
        invAcc := chart.attributeCash s.invAcc nonbank .investing cash
        nonOperatingPl := s.nonOperatingPl + chart.plOf nonbank }
    | .financing =>
      { s with
        financingCash := s.financingCash + cash
        finAcc := chart.attributeCash s.finAcc nonbank .financing cash
        nonOperatingPl := s.nonOperatingPl + chart.plOf nonbank }
    | .operating => { s with operatingCash := s.operatingCash + cash }
  else { s with nonCashExcluded := s.nonCashExcluded + 1 }

def hasEquity (nonbank : List JournalLine) : Prop :=
  ∃ l ∈ nonbank, (chart.acc l.account).type = "Equity"

instance (nonbank : List JournalLine) : Decidable (hasEquity chart nonbank) :=
  inferInstanceAs (Decidable (∃ l ∈ nonbank, _))

/-- One entry of the window. -/
def absorb (s : CashTotals) (e : JournalEntry) : CashTotals :=
  if isOpening e then { s with openingFold := s.openingFold + cashOf bankIds e }
  else
    let s := addCash chart bankIds s e
    -- an entry without cash that touches equity is a position too
    if cashOf bankIds e = 0 ∧ hasEquity chart (nonbankOf bankIds e) then s
    else (nonbankOf bankIds e).foldl chart.addLeg s

end

structure CashFlow where
  startDate : Date
  endDate : Date
  operating : CashFlowSection
  investing : CashFlowSection
  financing : CashFlowSection
  netChangePaise : ℤ
  openingCashPaise : ℤ
  closingCashPaise : ℤ
  reconciles : Bool
  nonCashExcludedCount : ℕ
  netProfitPaise : ℤ
  nonOperatingAdjustPaise : ℤ
  depreciationAddbackPaise : ℤ
  workingCapitalChangePaise : ℤ
  netCashOperatingPaise : ℤ
  tiesOut : Bool
  cash : Bool

def Chart.acctSection (chart : Chart) (label : String) (totals : List (String × ℤ)) :
    CashFlowSection :=
  let row (t : String × ℤ) : CashFlowLine :=
    let a := chart.acc t.1
    ⟨t.1, a.code, a.name, a.type, a.subtype, t.2⟩
  ⟨label, ((totals.filter (·.2 ≠ 0)).map row).insertionSort fun l l' => l.accountCode ≤ l'.accountCode,
    (totals.map Prod.snd).sum⟩

/-- The operating section: the profit and what leads from it to the cash. -/
def operatingLines (s : CashTotals) : List CashFlowLine :=
  let adjust := s.depreciation - s.nonOperatingPl
  [⟨"__net_profit__", "", "Net profit for the period", "", none, s.netProfit⟩] ++
    (if adjust ≠ 0 then
      [⟨"__noncash__", "", "Add back: depreciation & non-operating items", "", none, adjust⟩]
    else []) ++
    if s.workingCapital ≠ 0 then [⟨"__wc__", "", "Changes in working capital", "", none,
      s.workingCapital⟩] else []

/-- The cash flow statement of a window's entries. -/
def cashFlow (chart : Chart) (bankIds : List String) (entries : List JournalEntry)
    (startDate endDate : Date) (openingCash closingCash : ℤ) (cash : Bool) : CashFlow :=
  let s := entries.foldl (absorb chart bankIds) .zero
  let opening := openingCash + s.openingFold
  let operatingProfit := s.netProfit - s.nonOperatingPl
  let ties : Bool := operatingProfit + s.depreciation + s.workingCapital = s.operatingCash
  let netChange := s.operatingCash + s.investingCash + s.financingCash
  { startDate, endDate
    operating := ⟨"Cash from Operating Activities", operatingLines s, s.operatingCash⟩
    investing := chart.acctSection "Cash from Investing Activities" s.invAcc
    financing := chart.acctSection "Cash from Financing Activities" s.finAcc
    netChangePaise := netChange
    openingCashPaise := opening
    closingCashPaise := closingCash
    reconciles := netChange = s.totalCash ∧ closingCash - opening = netChange ∧ ties
    nonCashExcludedCount := s.nonCashExcluded
    netProfitPaise := s.netProfit
    nonOperatingAdjustPaise := -s.nonOperatingPl
    depreciationAddbackPaise := s.depreciation
    workingCapitalChangePaise := s.workingCapital
    netCashOperatingPaise := s.operatingCash
    tiesOut := ties
    cash }

namespace Chart

variable (chart : Chart)

/-- The depreciation among some legs. -/
def depreciationOf (nonbank : List JournalLine) : ℤ :=
  ((nonbank.filter fun l => (chart.acc l.account).isExpense ∧
    lower (strip ((chart.acc l.account).subtype.getD "")) = "depreciation").map net).sum

/-- What some legs change of the working capital. -/
def workingCapitalOf (nonbank : List JournalLine) : ℤ :=
  ((nonbank.filter fun l => ¬ (chart.acc l.account).isPl ∧ chart.activityOf l = .operating).map
    fun l => l.creditPaise - l.debitPaise).sum

/-- What some legs put on accounts of investing and financing. -/
def nonOperatingOf (nonbank : List JournalLine) : ℤ :=
  ((nonbank.filter fun l => chart.activityOf l ≠ .operating).map net).sum

/-- Accounts of income and of expense are operating. -/
theorem pl_operating {a : Account} (h : a.isPl) : classifyActivity a = .operating := by
  unfold classifyActivity
  dsimp only
  split
  · rfl
  · have hasset : a.type ≠ "Asset" := by
      rcases h with (h | h) | h <;> rw [h] <;> decide
    have hequity : a.type ≠ "Equity" := by
      rcases h with (h | h) | h <;> rw [h] <;> decide
    have hliability : a.type ≠ "Liability" := by
      rcases h with (h | h) | h <;> rw [h] <;> decide
    rw [if_neg hasset, if_neg hequity, if_neg hliability]

theorem legs_total (nonbank : List JournalLine) :
    (nonbank.map net).sum =
      chart.nonOperatingOf nonbank - chart.plOf nonbank - chart.workingCapitalOf nonbank := by
  unfold nonOperatingOf plOf workingCapitalOf
  induction nonbank with
  | nil => rfl
  | cons l nonbank ih =>
    simp only [List.filter_cons, List.map_cons, List.sum_cons, ih]
    by_cases hpl : (chart.acc l.account).isPl
    · have hoperating : chart.activityOf l = .operating := pl_operating hpl
      simp [hpl, hoperating, net]
      ring
    · by_cases hoperating : chart.activityOf l = .operating
      · simp [hpl, hoperating, net]
        ring
      · simp [hpl, hoperating]
        ring

theorem add_legs (nonbank : List JournalLine) (s : CashTotals) :
    nonbank.foldl chart.addLeg s = { s with
      netProfit := s.netProfit + chart.plOf nonbank
      depreciation := s.depreciation + chart.depreciationOf nonbank
      workingCapital := s.workingCapital + chart.workingCapitalOf nonbank } := by
  unfold plOf depreciationOf workingCapitalOf
  induction nonbank generalizing s with
  | nil => simp
  | cons l nonbank ih =>
    rw [List.foldl_cons, ih]
    unfold addLeg
    dsimp only
    by_cases hpl : (chart.acc l.account).isPl
    · rw [if_pos hpl]
      by_cases hdep : (chart.acc l.account).isExpense ∧
          lower (strip ((chart.acc l.account).subtype.getD "")) = "depreciation"
      · simp [hpl, hdep, net, add_assoc]
      · simp [hpl, hdep, add_assoc]
    · have hexpense : ¬ (chart.acc l.account).isExpense := fun h => hpl (.inr h)
      rw [if_neg hpl]
      by_cases hoperating : classifyActivity (chart.acc l.account) = .operating
      · simp [hpl, hexpense, hoperating, activityOf, add_assoc]
      · simp [hpl, hexpense, hoperating, activityOf]

end Chart

/-- How far the indirect figures are from the operating cash. -/
def CashTotals.gap (s : CashTotals) : ℤ :=
  s.netProfit - s.nonOperatingPl + s.depreciation + s.workingCapital - s.operatingCash

section
variable (chart : Chart) (bankIds : List String)

/-- What an entry puts the indirect figures out by: without cash, the depreciation it adds back less
what it takes from accounts of investing and financing; with operating cash, the depreciation it adds
back; with other cash, that and its working capital. -/
def gapOf (e : JournalEntry) : ℤ :=
  let nonbank := nonbankOf bankIds e
  if isOpening e then 0
  else if cashOf bankIds e = 0 then
    (if hasEquity chart nonbank then 0
      else chart.depreciationOf nonbank + chart.nonOperatingOf nonbank)
  else if chart.activityOfEntry nonbank = .operating then chart.depreciationOf nonbank
  else chart.depreciationOf nonbank + chart.workingCapitalOf nonbank

variable {chart} {bankIds}

theorem cash_of_balanced (h : totalDebit e.lines = totalCredit e.lines) :
    cashOf bankIds e = -((nonbankOf bankIds e).map net).sum := by
  have hsplit : ∀ lines : List JournalLine,
      ((lines.filter fun l => l.account ∈ bankIds).map net).sum +
        ((lines.filter fun l => l.account ∉ bankIds).map net).sum =
          totalDebit lines - totalCredit lines := by
    intro lines
    unfold totalDebit totalCredit
    induction lines with
    | nil => rfl
    | cons l lines ih =>
      simp only [List.filter_cons, List.map_cons, List.sum_cons]
      by_cases hl : l.account ∈ bankIds
      · simp [hl, net] at ih ⊢
        omega
      · simp [hl, net] at ih ⊢
        omega
  have := hsplit e.lines
  unfold cashOf nonbankOf
  omega

theorem operating_entry (h : chart.activityOfEntry nonbank = .operating) :
    chart.nonOperatingOf nonbank = 0 := by
  unfold Chart.activityOfEntry at h
  split at h
  · cases h
  · rename_i hinvesting
    split at h
    · cases h
    · rename_i hfinancing
      simp only [List.any_eq_true, decide_eq_true_eq, not_exists, not_and] at hinvesting hfinancing
      unfold Chart.nonOperatingOf
      rw [List.filter_eq_nil_iff.mpr fun l hl => ?_]
      · rfl
      · have h₁ := hinvesting l hl
        have h₂ := hfinancing l hl
        cases hact : chart.activityOf l <;> simp_all

/-- An entry widens the gap by its own. -/
theorem absorb_gap (h : totalDebit e.lines = totalCredit e.lines) (s : CashTotals) :
    (absorb chart bankIds s e).gap = s.gap + gapOf chart bankIds e := by
  have hcash : cashOf bankIds e = -((nonbankOf bankIds e).map net).sum := cash_of_balanced h
  rw [chart.legs_total] at hcash
  unfold absorb gapOf
  by_cases hopening : isOpening e
  · rw [if_pos hopening, if_pos hopening, add_zero]
    rfl
  · rw [if_neg hopening, if_neg hopening]
    by_cases hzero : cashOf bankIds e = 0
    · by_cases hequity : hasEquity chart (nonbankOf bankIds e)
      · simp only [hzero, hequity, and_self, if_true, add_zero]
        simp [addCash, hzero, CashTotals.gap]
      · simp only [hzero, hequity, and_false, if_false, if_true]
        rw [chart.add_legs]
        simp only [addCash, hzero, CashTotals.gap, ne_eq, not_true_eq_false, if_false]
        omega
    · simp only [hzero, false_and, if_false]
      rw [chart.add_legs]
      cases hact : chart.activityOfEntry (nonbankOf bankIds e) with
      | operating =>
        have := operating_entry hact
        simp only [addCash, ne_eq, hzero, not_false_eq_true, if_true, hact, CashTotals.gap]
        omega
      | investing =>
        simp only [addCash, ne_eq, hzero, not_false_eq_true, if_true, hact, CashTotals.gap,
          reduceCtorEq, if_false]
        omega
      | financing =>
        simp only [addCash, ne_eq, hzero, not_false_eq_true, if_true, hact, CashTotals.gap,
          reduceCtorEq, if_false]
        omega

theorem run_gap (chart : Chart) (bankIds : List String) {entries : List JournalEntry}
    (h : ∀ e ∈ entries, totalDebit e.lines = totalCredit e.lines) (s : CashTotals) :
    (entries.foldl (absorb chart bankIds) s).gap =
      s.gap + (entries.map (gapOf chart bankIds)).sum := by
  induction entries generalizing s with
  | nil => simp
  | cons e entries ih =>
    obtain ⟨he, hrest⟩ := List.forall_mem_cons.mp h
    rw [List.foldl_cons, ih hrest, absorb_gap he, List.map_cons, List.sum_cons, add_assoc]

/-- The cash of the sections is the cash there was, and each account list adds up to its section. -/
structure CashTotals.Sound (s : CashTotals) (cash : ℤ) : Prop where
  sections : s.operatingCash + s.investingCash + s.financingCash = s.totalCash
  investing : (s.invAcc.map Prod.snd).sum = s.investingCash
  financing : (s.finAcc.map Prod.snd).sum = s.financingCash
  all : s.totalCash + s.openingFold = cash

theorem attribute_sum {nonbank : List JournalLine}
    (hact : ∃ l ∈ nonbank, chart.activityOf l = activity) (accTotals cash) :
    ((chart.attributeCash accTotals nonbank activity cash).map Prod.snd).sum =
      (accTotals.map Prod.snd).sum + cash := by
  obtain ⟨l, hl, hactivity⟩ := hact
  have hown : nonbank.filter (chart.activityOf · = activity) ≠ [] :=
    List.ne_nil_of_mem (List.mem_filter.mpr ⟨hl, decide_eq_true hactivity⟩)
  unfold Chart.attributeCash
  dsimp only
  rw [if_neg hown]
  obtain ⟨first, rest, hlist⟩ := List.exists_cons_of_ne_nil hown
  rw [hlist]
  exact sum_add_to _ _ _

theorem activity_has_leg (h : chart.activityOfEntry nonbank = activity) (hne : activity ≠ .operating) :
    ∃ l ∈ nonbank, chart.activityOf l = activity := by
  unfold Chart.activityOfEntry at h
  split at h
  · rename_i hany
    subst h
    simpa using hany
  · split at h
    · rename_i hany
      subst h
      simpa using hany
    · exact absurd h.symm hne

theorem absorb_sound (chart : Chart) (bankIds : List String) (hs : s.Sound cash)
    (e : JournalEntry) :
    (absorb chart bankIds s e).Sound (cash + cashOf bankIds e) := by
  have hadd : (addCash chart bankIds s e).Sound (cash + cashOf bankIds e) := by
    obtain ⟨hsections, hinvesting, hfinancing, hall⟩ := hs
    unfold addCash
    dsimp only
    by_cases hzero : cashOf bankIds e = 0
    · rw [if_neg (by simpa using hzero)]
      exact ⟨by simp only; omega, hinvesting, hfinancing, by simp only; omega⟩
    · rw [if_pos hzero]
      cases hact : chart.activityOfEntry (nonbankOf bankIds e) with
      | operating => exact ⟨by simp only; omega, hinvesting, hfinancing, by simp only; omega⟩
      | investing =>
        have hleg := activity_has_leg hact (by decide)
        exact ⟨by simp only; omega, by simp only [attribute_sum hleg, hinvesting], hfinancing,
          by simp only; omega⟩
      | financing =>
        have hleg := activity_has_leg hact (by decide)
        exact ⟨by simp only; omega, hinvesting, by simp only [attribute_sum hleg, hfinancing],
          by simp only; omega⟩
  unfold absorb
  split
  · obtain ⟨hsections, hinvesting, hfinancing, hall⟩ := hs
    exact ⟨hsections, hinvesting, hfinancing, by simp only; omega⟩
  · dsimp only
    split
    · exact hadd
    · rw [chart.add_legs]
      exact ⟨hadd.sections, hadd.investing, hadd.financing, hadd.all⟩

theorem run_sound (chart : Chart) (bankIds : List String) (entries : List JournalEntry)
    (hs : s.Sound cash) :
    (entries.foldl (absorb chart bankIds) s).Sound (cash + (entries.map (cashOf bankIds)).sum) := by
  induction entries generalizing s cash with
  | nil => simpa using hs
  | cons e entries ih =>
    have hnext := ih (absorb_sound chart bankIds hs e)
    rw [List.map_cons, List.sum_cons, ← add_assoc]
    exact hnext

theorem acct_section_sum (label : String) (totals : List (String × ℤ)) :
    ((chart.acctSection label totals).lines.map CashFlowLine.amountPaise).sum =
      (chart.acctSection label totals).totalPaise := by
  unfold Chart.acctSection
  dsimp only
  rw [((List.perm_insertionSort _ _).map _).sum_eq, List.map_map]
  induction totals with
  | nil => rfl
  | cons t totals ih =>
    rw [List.filter_cons]
    by_cases ht : t.2 = 0
    · simp [ht] at ih ⊢
      exact ih
    · simp [ht] at ih ⊢
      exact ih

theorem operating_lines_sum (s : CashTotals) :
    ((operatingLines s).map CashFlowLine.amountPaise).sum = s.gap + s.operatingCash := by
  have hif : ∀ (x : ℤ) (line : CashFlowLine), line.amountPaise = x →
      ((if x ≠ 0 then [line] else []).map CashFlowLine.amountPaise).sum = x := by
    intro x line hline
    split
    · simp [hline]
    · rename_i h
      simp only [ne_eq, not_not] at h
      simp [h]
  unfold operatingLines CashTotals.gap
  dsimp only
  rw [List.map_append, List.map_append, List.sum_append, List.sum_append,
    hif (s.depreciation - s.nonOperatingPl) _ rfl, hif s.workingCapital _ rfl]
  simp only [List.map_cons, List.map_nil, List.sum_cons, List.sum_nil]
  omega

/-- What the cash accounts hold after some entries. -/
def cashBalance (bankIds : List String) (entries : List JournalEntry) : ℤ :=
  (entries.map (cashOf bankIds)).sum

/-- The statement reconciles: its net change is what the cash grew by, every section's lines add up
to its cash, and the indirect figures come to the operating cash. -/
structure CashFlow.Reconciles (f : CashFlow) : Prop where
  netChange : f.netChangePaise = f.closingCashPaise - f.openingCashPaise
  sections : f.operating.totalPaise + f.investing.totalPaise + f.financing.totalPaise =
    f.netChangePaise
  lines : ∀ s ∈ [f.operating, f.investing, f.financing],
    (s.lines.map CashFlowLine.amountPaise).sum = s.totalPaise
  indirect : f.netProfitPaise + f.nonOperatingAdjustPaise + f.depreciationAddbackPaise +
    f.workingCapitalChangePaise = f.netCashOperatingPaise

/-- The statement of a window reconciles exactly where what its entries put the indirect figures out
by comes to nothing. -/
theorem cash_flow_reconciles_iff (chart : Chart) (bankIds : List String)
    {entries : List JournalEntry} (earlier : List JournalEntry)
    (hbalanced : ∀ e ∈ entries, totalDebit e.lines = totalCredit e.lines)
    (startDate endDate : Date) (cash : Bool) :
    (cashFlow chart bankIds entries startDate endDate (cashBalance bankIds earlier)
        (cashBalance bankIds (earlier ++ entries)) cash).Reconciles ↔
      (entries.map (gapOf chart bankIds)).sum = 0 := by
  have hzero : CashTotals.zero.Sound 0 := ⟨rfl, rfl, rfl, rfl⟩
  have hsound := run_sound chart bankIds entries hzero
  have hgap := run_gap chart bankIds hbalanced .zero
  set s := entries.foldl (absorb chart bankIds) .zero with hs
  rw [show CashTotals.zero.gap = 0 from rfl, zero_add] at hgap
  rw [← hgap]
  have hlines := operating_lines_sum s
  obtain ⟨hsections, hinvesting, hfinancing, hall⟩ := hsound
  constructor
  · intro h
    have hoperating := h.lines _ (List.mem_cons_self ..)
    simp only [cashFlow, ← hs] at hoperating
    omega
  · intro hnone
    refine ⟨?_, ?_, ?_, ?_⟩
    · simp only [cashFlow, ← hs, cashBalance, List.map_append, List.sum_append]
      omega
    · simp only [cashFlow, ← hs, Chart.acctSection, hinvesting, hfinancing]
    · intro section_ hsection
      simp only [cashFlow, ← hs, List.mem_cons, List.not_mem_nil, or_false] at hsection
      rcases hsection with rfl | rfl | rfl
      · exact hlines.trans (show s.gap + s.operatingCash = s.operatingCash by omega)
      · exact acct_section_sum _ _
      · exact acct_section_sum _ _
    · simp only [cashFlow, ← hs]
      unfold CashTotals.gap at hnone
      omega

end

/-- A works with a machine, its suppliers, sales and a bank. -/
def worksChart : Chart where
  values := [⟨"bank", "1001", "HDFC Bank", "Asset", some "Bank", some "bank", none⟩,
    ⟨"machine", "1500", "Machinery", "Asset", some "Fixed Asset", none, none⟩,
    ⟨"creditors", "2001", "Trade Payables", "Liability", none, some "ap", none⟩,
    ⟨"sales", "4001", "Sales", "Revenue", none, none, none⟩]
  keyed := by decide

/-- A cash sale. -/
def cashSale : JournalEntry :=
  ⟨"e1", february10, "Receipt", [⟨"bank", 900, 0⟩, ⟨"sales", 0, 900⟩], none, none, none, none, none,
    none⟩

/-- The machine comes on credit. -/
def machineBought : JournalEntry :=
  ⟨"e2", february10, "Journal", [⟨"machine", 1000, 0⟩, ⟨"creditors", 0, 1000⟩], none, none, none, none,
    none, none⟩

/-- Its supplier is paid. -/
def machinePaid : JournalEntry :=
  ⟨"e3", february28, "Payment", [⟨"creditors", 1000, 0⟩, ⟨"bank", 0, 1000⟩], none, none, none, none,
    none, none⟩

theorem cash_sale_reconciles :
    (cashFlow worksChart ["bank"] [cashSale] february1 february28 (cashBalance ["bank"] [])
      (cashBalance ["bank"] ([] ++ [cashSale])) false).Reconciles :=
  (cash_flow_reconciles_iff worksChart ["bank"] [] (by decide) february1 february28 false).mpr
    (by decide +kernel)

/-- A machine bought on credit and paid for in the same window: a thousand leave by operating, and
the indirect figures explain none of it. -/
theorem machine_on_credit_does_not_tie :
    (∀ e ∈ [machineBought, machinePaid], totalDebit e.lines = totalCredit e.lines) ∧
      ∃ f, f = cashFlow worksChart ["bank"] [machineBought, machinePaid] february1 february28
          (cashBalance ["bank"] []) (cashBalance ["bank"] ([] ++ [machineBought, machinePaid])) false ∧
        f.netCashOperatingPaise = -1000 ∧ f.netProfitPaise = 0 ∧ f.workingCapitalChangePaise = 0 ∧
        f.depreciationAddbackPaise = 0 ∧ f.tiesOut = false ∧ ¬ f.Reconciles := by
  have hbalanced : ∀ e ∈ [machineBought, machinePaid], totalDebit e.lines = totalCredit e.lines := by
    decide
  refine ⟨hbalanced, _, rfl, by decide +kernel, by decide +kernel, by decide +kernel,
    by decide +kernel, by decide +kernel, fun h => ?_⟩
  have hindirect := h.indirect
  revert hindirect
  decide +kernel

end Caflow.Reporting
