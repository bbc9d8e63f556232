import Caflow.Reporting.Totals

set_option linter.all false

namespace Caflow.Reporting
open Accounting (JournalLine)
open IsoDate Tally

/-- The monthly totals of each account, under the first of the month. -/
abbrev Buckets := List ((String × Date) × ℤ × ℤ)

/-- The lines of some entries under their account and month. -/
def monthlyLines (entries : List JournalEntry) : List ((String × Date) × ℤ × ℤ) :=
  entries.flatMap fun e =>
    e.lines.map fun l => ((l.account, e.entryDate.monthStart), l.debitPaise, l.creditPaise)

def buildBuckets (entries : List JournalEntry) : Buckets := grouped (monthlyLines entries)

def isMonthFirst (d : Date) : Prop := d.day = 1

def isMonthLast (d : Date) : Prop := d.day = monthDays d.year d.month

instance (d : Date) : Decidable (isMonthFirst d) := inferInstanceAs (Decidable (_ = _))

instance (d : Date) : Decidable (isMonthLast d) := inferInstanceAs (Decidable (_ = _))

/-- The edge months that a window takes from the entries and not from the buckets. -/
def replayMonths (start finish : Option Date) : List Date :=
  ((start.filter (¬ isMonthFirst ·)).map Date.monthStart).toList ++
    ((finish.filter (¬ isMonthLast ·)).map Date.monthStart).toList

/-- A month whose bucket a window takes whole. -/
def monthInWindow (start finish : Option Date) (month : Date) : Prop :=
  (∀ s ∈ start, ¬ month < s.monthStart) ∧ (∀ f ∈ finish, ¬ f.monthStart < month) ∧
    month ∉ replayMonths start finish

def dateInWindow (start finish : Option Date) (date : Date) : Prop :=
  (∀ s ∈ start, ¬ date < s) ∧ (∀ f ∈ finish, ¬ f < date)

instance (start finish : Option Date) (month : Date) : Decidable (monthInWindow start finish month) :=
  inferInstanceAs (Decidable (_ ∧ _ ∧ _))

instance (start finish : Option Date) (date : Date) : Decidable (dateInWindow start finish date) :=
  inferInstanceAs (Decidable (_ ∧ _))

/-- The window's line of each account, from whole months' buckets and the entries of the edge months. -/
def projectLines (buckets : Buckets) (start finish : Option Date) (edgeEntries : List JournalEntry) :
    List ProjectedLine :=
  let whole := (buckets.filter fun b => monthInWindow start finish b.1.2).map fun b => (b.1.1, b.2)
  let edges := edgeEntries.filter fun e =>
    e.entryDate.monthStart ∈ replayMonths start finish ∧ dateInWindow start finish e.entryDate
  let totals := grouped (whole ++ edges.flatMap fun e => postedSides e.lines)
  totals.map fun t => ⟨t.1, t.2.1, t.2.2⟩

/-- The full replay: the lines of the entries dated in a window. -/
def linesIn (entries : List JournalEntry) (start finish : Option Date) : List ProjectedLine :=
  (entries.filter fun e => dateInWindow start finish e.entryDate).flatMap JournalEntry.lines

/-- Some entries hold those of the history's edge months, in whatever order. -/
def HoldsEdges (entries : List JournalEntry) (start finish : Option Date)
    (edgeEntries : List JournalEntry) : Prop :=
  (edgeEntries.filter fun e => e.entryDate.monthStart ∈ replayMonths start finish).Perm
    (entries.filter fun e => e.entryDate.monthStart ∈ replayMonths start finish)

theorem before_start {s d : Date} (h : isMonthFirst s ∨ d.monthStart ≠ s.monthStart) :
    d.monthStart < s.monthStart ↔ d < s := by
  rw [month_start_lt_iff]
  refine ⟨fun hd => hd.1, fun hd => ⟨hd, ?_⟩⟩
  rcases h with hfirst | hother
  · have hs : s.monthStart.number = s.number := by
      rw [isMonthFirst] at hfirst
      simp [Date.number, Date.monthStart, hfirst]
    have hle := le_iff.mp (month_start_le d)
    rw [lt_iff] at hd
    exact fun hsame => absurd (hsame ▸ hs) (by omega)
  · exact hother

theorem after_finish {f d : Date} (h : isMonthLast f ∨ d.monthStart ≠ f.monthStart) :
    f.monthStart < d.monthStart ↔ f < d := by
  rw [month_start_lt_iff]
  refine ⟨fun hd => hd.1, fun hd => ⟨hd, ?_⟩⟩
  rcases h with hlast | hother
  · -- a date of the same month is not past its last day
    intro hsame
    have hyear : f.monthStart.year = d.monthStart.year := congrArg Date.year hsame
    have hmonth : f.monthStart.month = d.monthStart.month := congrArg Date.month hsame
    simp only [Date.monthStart] at hyear hmonth
    have hday := d.dayLe
    rw [isMonthLast, hyear, hmonth] at hlast
    rw [lt_iff] at hd
    simp only [Date.number] at hd
    omega
  · exact fun hsame => hother hsame.symm

/-- A month that is not replayed lies in a window whole or not at all. -/
theorem window_of_month {start finish : Option Date} {d : Date}
    (h : d.monthStart ∉ replayMonths start finish) :
    monthInWindow start finish d.monthStart ↔ dateInWindow start finish d := by
  have hstart : ∀ s ∈ start, isMonthFirst s ∨ d.monthStart ≠ s.monthStart := fun s hs => by
    by_contra hno
    push Not at hno
    exact h (by simp [replayMonths, Option.mem_def.mp hs, Option.filter, hno.1, hno.2])
  have hfinish : ∀ f ∈ finish, isMonthLast f ∨ d.monthStart ≠ f.monthStart := fun f hf => by
    by_contra hno
    push Not at hno
    exact h (by simp [replayMonths, Option.mem_def.mp hf, Option.filter, hno.1, hno.2])
  unfold monthInWindow dateInWindow
  refine ⟨fun hm => ⟨fun s hs => ?_, fun f hf => ?_⟩, fun hd => ⟨fun s hs => ?_, fun f hf => ?_, h⟩⟩
  · exact (before_start (hstart s hs)).not.mp (hm.1 s hs)
  · exact (after_finish (hfinish f hf)).not.mp (hm.2.1 f hf)
  · exact (before_start (hstart s hs)).not.mpr (hd.1 s hs)
  · exact (after_finish (hfinish f hf)).not.mpr (hd.2 f hf)

/-- The lines an entry gives a window: those of its bucket where its month is whole, and else its own. -/
def entryShare (start finish : Option Date) (e : JournalEntry) : List (String × ℤ × ℤ) :=
  if dateInWindow start finish e.entryDate then postedSides e.lines else []

theorem tally_window (start finish : Option Date) (entries : List JournalEntry) (a : String) :
    totalsOn (linesIn entries start finish) a =
      (entries.map fun e => tally (entryShare start finish e) a).sum := by
  induction entries with
  | nil => rfl
  | cons e entries ih =>
    unfold linesIn entryShare totalsOn postedSides at ih ⊢
    rw [List.map_cons, List.sum_cons, ← ih, List.filter_cons]
    by_cases he : dateInWindow start finish e.entryDate
    · simp [he, tally_append]
    · simp [he]

/-- What the whole months' buckets come to on an account. -/
theorem tally_whole (entries : List JournalEntry) (start finish : Option Date) (a : String) :
    tally (((buildBuckets entries).filter fun b => monthInWindow start finish b.1.2).map
      fun b => (b.1.1, b.2)) a =
      (entries.map fun e => if monthInWindow start finish e.entryDate.monthStart then
        tally (postedSides e.lines) a else 0).sum := by
  unfold buildBuckets
  rw [tally_regrouped (fun k => monthInWindow start finish k.2) Prod.fst]
  induction entries with
  | nil => rfl
  | cons e entries ih =>
    unfold monthlyLines at ih ⊢
    rw [List.flatMap_cons, List.filter_append, List.map_append, tally_append, ih, List.map_cons,
      List.sum_cons]
    refine congrArg (· + _) ?_
    by_cases he : monthInWindow start finish e.entryDate.monthStart
    · rw [if_pos he, List.filter_eq_self.mpr (by simp [he]), List.map_map]
      rfl
    · rw [if_neg he, List.filter_eq_nil_iff.mpr (by simp [he])]
      rfl

/-- What the edge months' entries come to on an account. -/
theorem tally_edges (hedges : HoldsEdges entries start finish edgeEntries) (a : String) :
    tally ((edgeEntries.filter fun e => e.entryDate.monthStart ∈ replayMonths start finish ∧
      dateInWindow start finish e.entryDate).flatMap fun e => postedSides e.lines) a =
      (entries.map fun e => if e.entryDate.monthStart ∈ replayMonths start finish then
        tally (entryShare start finish e) a else 0).sum := by
  have hsplit : ∀ l : List JournalEntry, (l.filter fun e =>
      e.entryDate.monthStart ∈ replayMonths start finish ∧ dateInWindow start finish e.entryDate) =
      (l.filter fun e => e.entryDate.monthStart ∈ replayMonths start finish).filter
        fun e => dateInWindow start finish e.entryDate := fun l => by
    rw [List.filter_filter]
    exact List.filter_congr fun e _ => by simp [and_comm]
  rw [hsplit, tally_flat_map, ((hedges.filter _).map _).sum_eq, ← hsplit]
  clear hedges hsplit
  induction entries with
  | nil => rfl
  | cons e entries ih =>
    rw [List.map_cons, List.sum_cons, ← ih, List.filter_cons]
    unfold entryShare
    by_cases hm : e.entryDate.monthStart ∈ replayMonths start finish <;>
      by_cases hd : dateInWindow start finish e.entryDate <;> simp [hm, hd]

/-- The projection posts to every account what the replay of the window does. -/
theorem project_totals (hedges : HoldsEdges entries start finish edgeEntries) :
    SameTotals (projectLines (buildBuckets entries) start finish edgeEntries)
      (linesIn entries start finish) := by
  intro a
  have hproject : ∀ totals : List (String × ℤ × ℤ),
      postedSides (totals.map fun t => ⟨t.1, t.2.1, t.2.2⟩) = totals := fun totals => by
    unfold postedSides
    rw [List.map_map]
    exact List.map_id totals
  rw [tally_window]
  unfold totalsOn projectLines
  dsimp only
  rw [hproject, tally_grouped, tally_append, tally_whole, tally_edges hedges, ← List.sum_map_add]
  refine congrArg List.sum (List.map_congr_left fun e _ => ?_)
  by_cases hm : e.entryDate.monthStart ∈ replayMonths start finish
  · have hwhole : ¬ monthInWindow start finish e.entryDate.monthStart := fun h => h.2.2 hm
    rw [if_neg hwhole, if_pos hm, zero_add]
  · rw [if_neg hm, add_zero]
    unfold entryShare
    by_cases hd : dateInWindow start finish e.entryDate
    · rw [if_pos ((window_of_month hm).mpr hd), if_pos hd]
    · rw [if_neg (mt (window_of_month hm).mp hd), if_neg hd, tally_nil]

instance (entries : List JournalEntry) (start finish : Option Date) (edgeEntries : List JournalEntry) :
    Decidable (HoldsEdges entries start finish edgeEntries) :=
  inferInstanceAs (Decidable (List.Perm _ _))

/-- No two rows of a report tie on the key they are sorted by. -/
def TrialBalance.Untied (t : TrialBalance) : Prop :=
  (t.lines.map TrialBalanceRow.accountCode).Nodup

instance (t : TrialBalance) : Decidable t.Untied := inferInstanceAs (Decidable (List.Nodup _))

def ProfitLoss.Untied (p : ProfitLoss) : Prop :=
  ∀ s ∈ [p.revenue, p.costOfSales, p.operatingExpenses],
    (s.lines.map StatementLine.accountName).Nodup

def BalanceSheet.Untied (b : BalanceSheet) : Prop :=
  ∀ s ∈ [b.assets, b.liabilities, b.equity], (s.lines.map StatementLine.accountName).Nodup

/-- The cache answers as the full replay does: the same debits and credits on every account, and the
same reports, rows that tie on their sort key perhaps in another order. -/
theorem cache_equals_replay (hedges : HoldsEdges entries start finish edgeEntries) :
    let cached := projectLines (buildBuckets entries) start finish edgeEntries
    let replayed := linesIn entries start finish
    (∀ account, totalsOn cached account = totalsOn replayed account) ∧
      ∀ chart cash,
        (∀ asOfDate,
          let fast := trialBalance chart cached asOfDate cash none
          let legacy := trialBalance chart replayed asOfDate cash none
          fast.Same legacy ∧ (fast.Untied → fast = legacy)) ∧
        (∀ asOfDate from_ before edgesBefore, HoldsEdges entries none (some before) edgesBefore →
          let fast := trialBalance chart cached asOfDate cash
            (some (from_, projectLines (buildBuckets entries) none (some before) edgesBefore))
          let legacy := trialBalance chart replayed asOfDate cash
            (some (from_, linesIn entries none (some before)))
          fast.Same legacy ∧ (fast.Untied → fast = legacy)) ∧
        (∀ startDate endDate,
          let fast := profitLoss chart cached startDate endDate cash
          let legacy := profitLoss chart replayed startDate endDate cash
          fast.Same legacy ∧ (fast.Untied → fast = legacy)) ∧
        (∀ asOfDate,
          let fast := balanceSheet chart cached asOfDate cash
          let legacy := balanceSheet chart replayed asOfDate cash
          fast.Same legacy ∧ (fast.Untied → fast = legacy)) := by
  have htotals := project_totals hedges
  refine ⟨htotals, fun chart cash => ⟨fun asOfDate => ?_, fun asOfDate from_ before edgesBefore hb => ?_,
    fun startDate endDate => ?_, fun asOfDate => ?_⟩⟩
  · have hsame := trial_balance_same chart htotals asOfDate none none cash (by simp) (by simp)
    exact ⟨hsame, hsame.eq⟩
  · have hopening := project_totals hb
    have hsame := trial_balance_same chart htotals asOfDate
      (some (from_, projectLines (buildBuckets entries) none (some before) edgesBefore))
      (some (from_, linesIn entries none (some before))) cash (by simpa using hopening) (by simp)
    exact ⟨hsame, hsame.eq⟩
  · have hsame := profit_loss_same chart htotals startDate endDate cash
    exact ⟨hsame, fun h => hsame.eq (h _ (by simp)) (h _ (by simp)) (h _ (by simp))⟩
  · have hsame := balance_sheet_same chart htotals asOfDate cash
    exact ⟨hsame, fun h => hsame.eq (h _ (by simp)) (h _ (by simp)) (h _ (by simp))⟩

def january15 : Date := .of 2026 1 15

def january20 : Date := .of 2026 1 20

def february10 : Date := .of 2026 2 10

def february28 : Date := .of 2026 2 28

def rentEntry : JournalEntry :=
  ⟨"e1", january20, "Journal", [⟨"rent", 100, 0⟩, ⟨"bank", 0, 100⟩], none, none, none, none, none, none⟩

def travelEntry : JournalEntry :=
  ⟨"e2", february10, "Journal", [⟨"travel", 50, 0⟩, ⟨"bank", 0, 50⟩], none, none, none, none, none,
    none⟩

def officeChart : Chart where
  values := [⟨"bank", "1001", "HDFC Bank", "Asset", none, some "bank", none⟩,
    ⟨"rent", "5001", "Rent", "Expense", none, none, none⟩,
    ⟨"travel", "5002", "Travel", "Expense", none, none, none⟩]
  keyed := by decide

theorem january_edge :
    HoldsEdges [rentEntry, travelEntry] (some january15) (some february28) [rentEntry] := by
  decide +kernel

theorem office_trial_balance_cached :
    trialBalance officeChart (projectLines (buildBuckets [rentEntry, travelEntry]) (some january15)
        (some february28) [rentEntry]) february28 false none =
      trialBalance officeChart (linesIn [rentEntry, travelEntry] (some january15) (some february28))
        february28 false none :=
  (((cache_equals_replay january_edge).2 officeChart false).1 february28).2 (by decide +kernel)

/-- Accounts that the chart does not hold have no code, and come out in the order they came up in. -/
theorem tied_rows_change_places :
    HoldsEdges [rentEntry, travelEntry] (some january15) (some february28) [rentEntry] ∧
      (trialBalance ⟨[], by decide⟩ (projectLines (buildBuckets [rentEntry, travelEntry])
          (some january15) (some february28) [rentEntry]) february28 false none).lines.map
        TrialBalanceRow.accountId = ["travel", "bank", "rent"] ∧
      (trialBalance ⟨[], by decide⟩ (linesIn [rentEntry, travelEntry] (some january15)
          (some february28)) february28 false none).lines.map
        TrialBalanceRow.accountId = ["rent", "bank", "travel"] := by
  refine ⟨january_edge, by decide +kernel, by decide +kernel⟩

end Caflow.Reporting
