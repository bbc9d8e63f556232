import Caflow.Gst.CreditHeads
import Caflow.Lib.Calendar
import Caflow.Lib.RoundUp

namespace Caflow.Gst.Rule43
open RoundUp Calendar

/-- Dates are days of the calendar here, not ordinals. -/
abbrev Day := Calendar.Day

def usefulLifeMonths : ℤ := 60

inductive Use
  | common | exclusivelyExempt | exclusivelyTaxable

/-- An asset. No use or eligibility recorded is a state of its own. -/
structure CapitalGood where
  assetId : String
  assetName : String
  invoiceDate : Option Day
  paise : Heads
  itcEligible : Option Bool
  use : Option Use

def CapitalGood.credit (g : CapitalGood) : Heads := fun h => max 0 (g.paise h)

/-- Exempt and total turnover of the period. -/
structure Turnover where
  exemptPaise : ℤ
  totalPaise : ℤ

structure AssetLine where
  assetId : String
  assetName : String
  use : Option Use
  periodIndex : Option ℤ
  included : Bool
  reason : String
  credit : Heads

structure Result where
  period : String
  te : Heads
  commonCredit : Heads
  turnover : Option Turnover
  lines : List AssetLine
  gaps : List String
  caveats : List String
  refused : Bool
  refusal : String

def transitionNotModelled : String :=
  "An asset that MOVED between the exclusive uses and common use is not handled. The provisos to " ++
    "Rule 43(1)(c) and (d) reduce its input tax by five percentage points per quarter or part " ++
    "thereof before it joins Tc, and this product records only what an asset is now, not when it " ++
    "changed. Adjust such an asset by hand."

def exciseExclusionNotModelled : String :=
  "The Explanation to Rule 43(1)(g) excludes duties under entries 84 and 92A of List I and 51 and " ++
    "54 of List II — central and state excise on petroleum, tobacco and alcohol — from both E and " ++
    "F. Those are not separated out of the non-GST supply figure here, so a client dealing in them " ++
    "needs E and F adjusted before this figure is relied on."

def noTurnoverRefusal : String :=
  "Total turnover (F) for this period is nil or unknown, so E ÷ F has no value. The proviso to Rule " ++
    "43(1)(g) says to take E and F from the last tax period for which they are available — those " ++
    "are a different period's figures and are not substituted automatically."

def noExemptSupplies : String :=
  "No exempt supplies in this period, so E is nil and Te is nil however much common credit is " ++
    "running. The instalment still counts against the sixty."

def nothingInside : String :=
  "No common capital good is inside its five-year life this period, so there is nothing to apportion."

def useGap (name : String) : String :=
  name ++ ": no Rule 43 use recorded. Mark it as used exclusively for exempt supplies (43(1)(a), no " ++
    "credit), exclusively for taxable or zero-rated supplies (43(1)(b), full credit), or COMMON " ++
    "(43(1)(c), this reversal). It is left out until then — assuming either way is wrong in a " ++
    "direction that costs somebody money."

def eligibilityGap (name : String) : String :=
  name ++ ": whether the tax on this acquisition was CLAIMED as credit is not recorded (it predates " ++
    "the column). Rule 43 apportions credit actually taken, so it is left out."

def dateGap (name : String) : String :=
  name ++ ": no acquisition date, so the five years Rule 43(1)(c) counts \"from the date of the " ++
    "invoice\" cannot be measured."

/-- Calendar months from one day's month to another's. -/
def monthsBetween (earlier later : Day) : ℤ :=
  ((later.year : ℤ) - earlier.year) * 12 + ((later.month : ℤ) - earlier.month)

/-- Which of the sixty instalments a tax period is, counted from one. -/
def periodIndex (invoiceDate periodStart : Day) : ℤ := monthsBetween invoiceDate periodStart + 1

/-- What the loop makes of one asset: its line, and the gap it leaves. -/
def lineFor (periodStart : Day) (g : CapitalGood) : AssetLine × Option String :=
  let answer := fun index included reason =>
    (⟨g.assetId, g.assetName, g.use, index, included, reason, g.credit⟩ : AssetLine)
  match g.use with
  | none => (answer none false "rule_43_use_not_classified", some (useGap g.assetName))
  | some .exclusivelyExempt => (answer none false ("Rule 43(1)(a) — used exclusively for exempt or " ++
      "non-business supplies, so no credit was available and there is nothing to reverse."), none)
  | some .exclusivelyTaxable => (answer none false ("Rule 43(1)(b) — used exclusively for supplies " ++
      "other than exempt ones, zero-rated included, so the whole credit stands and Rule 43 never " ++
      "reaches it."), none)
  | some .common =>
    match g.itcEligible with
    | none => (answer none false "rule_43_itc_eligibility_not_stated",
        some (eligibilityGap g.assetName))
    | some false => (answer none false ("No credit was taken — the tax is blocked under §17(5) and " ++
        "was capitalised into the cost, so there is nothing to apportion."), none)
    | some true =>
      match g.invoiceDate with
      | none => (answer none false "rule_43_no_invoice_date", some (dateGap g.assetName))
      | some invoiceDate =>
        let idx := periodIndex invoiceDate periodStart
        if idx < 1 then (answer (some idx) false "Acquired after this tax period.", none)
        else if usefulLifeMonths < idx then
          (answer (some idx) false ("The five-year useful life ran out — this would be instalment " ++
            toString idx ++ " of 60."), none)
        else if g.credit .igst = 0 ∧ g.credit .cgst = 0 ∧ g.credit .sgst = 0 then
          (answer (some idx) false
            "No GST recorded on the acquisition, so there is no credit to apportion.", none)
        else (answer (some idx) true ("Common capital good, instalment " ++ toString idx ++
          " of 60."), none)

/-- The credits of the lines that are included, added up under each head. -/
def commonOf (lines : List AssetLine) : Heads := fun h =>
  ((lines.filter (·.included)).map (·.credit h)).sum

/-- What a tax period adds to the output tax, per head. -/
def compute (goods : List CapitalGood) (period : String) (periodStart : Day)
    (turnover : Option Turnover) : Result :=
  let judged := goods.map (lineFor periodStart)
  let lines := judged.map Prod.fst
  let gaps := judged.filterMap Prod.snd
  let caveats := [transitionNotModelled, exciseExclusionNotModelled]
  let common := commonOf lines
  match turnover.filter (fun t => 0 < t.totalPaise) with
  | none =>
    { period := period, te := fun _ => 0, commonCredit := common, turnover := turnover, lines := lines
      gaps := gaps, caveats := caveats, refused := true, refusal := noTurnoverRefusal }
  | some t =>
    { period := period
      te := fun h => ceilDiv (common h * max 0 t.exemptPaise) (usefulLifeMonths * t.totalPaise)
      commonCredit := common
      turnover := turnover
      lines := lines
      gaps := gaps
      caveats := caveats ++ (if t.exemptPaise ≤ 0 then [noExemptSupplies] else []) ++
        (if lines.any (·.included) then [] else [nothingInside])
      refused := false
      refusal := "" }

/-- Common goods whose credit was taken, of a known invoice date and with some tax on them. -/
structure Credited (g : CapitalGood) (invoiceDate : Day) : Prop where
  use : g.use = some .common
  eligible : g.itcEligible = some true
  dated : g.invoiceDate = some invoiceDate
  taxed : ∃ h, 0 < g.paise h

theorem period_index_eq (invoiceDate periodStart : Day) :
    periodIndex invoiceDate periodStart =
      (periodStart.monthIndex : ℤ) - invoiceDate.monthIndex + 1 := by
  have := invoiceDate.monthPos
  have := periodStart.monthPos
  unfold periodIndex monthsBetween Day.monthIndex
  omega

theorem credit_of_taxed {g : CapitalGood} (h : ∃ h, 0 < g.paise h) :
    ¬ (g.credit .igst = 0 ∧ g.credit .cgst = 0 ∧ g.credit .sgst = 0) := by
  rintro ⟨higst, hcgst, hsgst⟩
  obtain ⟨head, hpos⟩ := h
  have hnone : g.credit head = 0 := by
    cases head
    · exact higst
    · exact hcgst
    · exact hsgst
  exact absurd (max_eq_left_iff.mp hnone) (not_le.mpr hpos)

/-- Such goods are included from the month of their invoice, for sixty months. -/
theorem line_included_iff (h : Credited g d) (periodStart : Day) :
    (lineFor periodStart g).1.included = true ↔
      d.monthIndex ≤ periodStart.monthIndex ∧ periodStart.monthIndex < d.monthIndex + 60 := by
  have hindex := period_index_eq d periodStart
  have htax := credit_of_taxed h.taxed
  unfold lineFor
  simp only [h.use, h.eligible, h.dated, usefulLifeMonths]
  split_ifs with hbefore hafter
  · simp only [false_iff]
    omega
  · simp only [false_iff]
    omega
  · simp only [true_iff]
    omega

theorem line_credit (periodStart : Day) (g : CapitalGood) :
    (lineFor periodStart g).1.credit = g.credit := by
  unfold lineFor
  dsimp only
  repeat' split
  all_goals rfl

theorem compute_lines (goods : List CapitalGood) (period : String) (periodStart : Day)
    (turnover : Option Turnover) :
    (compute goods period periodStart turnover).lines =
      goods.map fun g => (lineFor periodStart g).1 := by
  unfold compute
  split <;> exact List.map_map

theorem compute_common (goods : List CapitalGood) (period : String) (periodStart : Day)
    (turnover : Option Turnover) :
    (compute goods period periodStart turnover).commonCredit =
      commonOf (compute goods period periodStart turnover).lines := by
  unfold compute
  split <;> rfl

theorem compute_te (goods : List CapitalGood) (period : String) (periodStart : Day)
    (t : Turnover) (htotal : 0 < t.totalPaise) (h : CreditHead) :
    (compute goods period periodStart (some t)).te h =
      ceilDiv ((compute goods period periodStart (some t)).commonCredit h * max 0 t.exemptPaise)
        (60 * t.totalPaise) := by
  have hheld : (some t).filter (fun t => 0 < t.totalPaise) = some t := by
    simp [htotal]
  unfold compute
  rw [hheld]
  rfl

/-- The exempt share of a sixtieth of the credits included in a period. -/
def exactShare (r : Result) (t : Turnover) (h : CreditHead) : ℚ :=
  t.exemptPaise / t.totalPaise * (commonOf r.lines h / 60)

theorem te_exact (goods : List CapitalGood) (period : String) (periodStart : Day) (t : Turnover)
    (htotal : 0 < t.totalPaise) (hexempt : 0 ≤ t.exemptPaise) (h : CreditHead) :
    let r := compute goods period periodStart (some t)
    exactShare r t h ≤ r.te h ∧ (r.te h : ℚ) < exactShare r t h + 1 := by
  dsimp only
  have hpos : 0 < 60 * t.totalPaise := by omega
  have hbounds := ceil_div_exact hpos
    ((compute goods period periodStart (some t)).commonCredit h * max 0 t.exemptPaise)
  rw [← compute_te goods period periodStart t htotal h, max_eq_right hexempt, compute_common]
    at hbounds
  have hshare : exactShare (compute goods period periodStart (some t)) t h =
      ((commonOf (compute goods period periodStart (some t)).lines h * t.exemptPaise : ℤ) : ℚ) /
        ((60 * t.totalPaise : ℤ) : ℚ) := by
    unfold exactShare
    push_cast
    ring
  rw [hshare]
  exact hbounds

/-- Tax periods that follow each other month by month. -/
def Consecutive (periods : ℕ → Day) : Prop :=
  ∀ k, (periods (k + 1)).monthIndex = (periods k).monthIndex + 1

theorem Consecutive.month_index {periods : ℕ → Day} (h : Consecutive periods) (k : ℕ) :
    (periods k).monthIndex = (periods 0).monthIndex + k := by
  induction k with
  | zero => rfl
  | succ k ih => rw [h k, ih, add_assoc]

/-- The asset at a place of the list is included in the period. -/
def Result.Includes (r : Result) (i : ℕ) : Prop := r.lines[i]?.map AssetLine.included = some true

theorem included_at (goods : List CapitalGood) (period : String) (periodStart : Day)
    (turnover : Option Turnover) (hg : goods[i]? = some g) (h : Credited g d) :
    (compute goods period periodStart turnover).Includes i ↔
      d.monthIndex ≤ periodStart.monthIndex ∧ periodStart.monthIndex < d.monthIndex + 60 := by
  unfold Result.Includes
  rw [compute_lines, List.getElem?_map, hg]
  simp only [Option.map_some, Option.some.injEq]
  exact line_included_iff h periodStart

/-- A single asset's credit is what its period shares out, within its sixty months. -/
theorem common_of_single (h : Credited g d) (period : String) (periodStart : Day)
    (turnover : Option Turnover) (head : CreditHead) :
    (compute [g] period periodStart turnover).commonCredit head =
      if d.monthIndex ≤ periodStart.monthIndex ∧ periodStart.monthIndex < d.monthIndex + 60 then
        g.credit head
      else 0 := by
  rw [compute_common, compute_lines]
  simp only [List.map_cons, List.map_nil, commonOf]
  split_ifs with hwithin
  · rw [List.filter_cons_of_pos ((line_included_iff h periodStart).mpr hwithin)]
    simp [line_credit]
  · rw [List.filter_cons_of_neg (fun hin => hwithin ((line_included_iff h periodStart).mp hin))]
    rfl

/-- With every supply exempt a period takes back a sixtieth of the credit, rounded up. -/
theorem te_of_single (h : Credited g d) (period : String) (periodStart : Day) (t : Turnover)
    (htotal : 0 < t.totalPaise) (hexempt : t.exemptPaise = t.totalPaise) (head : CreditHead) :
    (compute [g] period periodStart (some t)).te head =
      if d.monthIndex ≤ periodStart.monthIndex ∧ periodStart.monthIndex < d.monthIndex + 60 then
        ceilDiv (g.credit head) 60
      else 0 := by
  rw [compute_te _ _ _ t htotal head, common_of_single h, hexempt, max_eq_right htotal.le]
  split_ifs
  · apply le_antisymm
    · exact ceil_div_le_ceil_div (by omega) (by decide) (le_of_eq (by ring))
    · exact ceil_div_le_ceil_div (by decide) (by omega) (le_of_eq (by ring))
  · rw [zero_mul, ceil_div_zero]

theorem life_recovered (h : Credited g d) (label : ℕ → String) (periods : ℕ → Day)
    (turnover : ℕ → Turnover) (hmonths : Consecutive periods)
    (hturnover : ∀ k, 0 < (turnover k).totalPaise)
    (hexempt : ∀ k, (turnover k).exemptPaise = (turnover k).totalPaise)
    (hfirst : (periods first).monthIndex = d.monthIndex) (hn : first + 60 ≤ n)
    (head : CreditHead) :
    ∑ k ∈ Finset.range n, (compute [g] (label k) (periods k) (some (turnover k))).te head =
      60 * ceilDiv (g.credit head) 60 := by
  have hstart := hmonths.month_index first
  have hterm : ∀ k ∈ Finset.range n,
      (compute [g] (label k) (periods k) (some (turnover k))).te head =
        if k ∈ Finset.Ico first (first + 60) then ceilDiv (g.credit head) 60 else 0 := by
    intro k _
    have hk := hmonths.month_index k
    rw [te_of_single h _ _ _ (hturnover k) (hexempt k) head]
    congr 1
    rw [Finset.mem_Ico]
    apply propext
    constructor <;> intro hin <;> omega
  have hwithin : Finset.Ico first (first + 60) ⊆ Finset.range n := by
    intro k hk
    rw [Finset.mem_Ico] at hk
    rw [Finset.mem_range]
    omega
  rw [Finset.sum_congr rfl hterm, Finset.sum_ite_mem, Finset.inter_eq_right.mpr hwithin,
    Finset.sum_const, Nat.card_Ico, add_tsub_cancel_left, nsmul_eq_mul]
  rfl

/-- Goods whose credit was taken are in exactly sixty periods from the month of their invoice; each
period takes back the exempt share of a sixtieth of what is in it, less than a paisa over; so does any
run of periods, less than a paisa over for each; and with every supply exempt the whole life takes
back an asset's credit, less than sixty paise over. -/
theorem credit_recovered_over_sixty (goods : List CapitalGood) (label : ℕ → String)
    (periods : ℕ → Day) (turnover : ℕ → Turnover) (hmonths : Consecutive periods)
    (hturnover : ∀ k, 0 < (turnover k).totalPaise ∧ 0 ≤ (turnover k).exemptPaise ∧
      (turnover k).exemptPaise ≤ (turnover k).totalPaise) :
    let year := fun k => compute goods (label k) (periods k) (some (turnover k))
    (∀ i g d, goods[i]? = some g → Credited g d →
      (∀ k, (year k).Includes i ↔
        d.monthIndex ≤ (periods k).monthIndex ∧ (periods k).monthIndex < d.monthIndex + 60) ∧
      ((periods 0).monthIndex ≤ d.monthIndex →
        ∃ first, (periods first).monthIndex = d.monthIndex ∧
          ∀ k, (year k).Includes i ↔ first ≤ k ∧ k < first + 60)) ∧
    (∀ k h, exactShare (year k) (turnover k) h ≤ (year k).te h ∧
      ((year k).te h : ℚ) < exactShare (year k) (turnover k) h + 1) ∧
    (∀ n h, 0 < n →
      ∑ k ∈ Finset.range n, exactShare (year k) (turnover k) h ≤
        ((∑ k ∈ Finset.range n, (year k).te h : ℤ) : ℚ) ∧
      ((∑ k ∈ Finset.range n, (year k).te h : ℤ) : ℚ) <
        ∑ k ∈ Finset.range n, exactShare (year k) (turnover k) h + n) ∧
    (∀ g d, goods = [g] → Credited g d →
      (∀ k, (turnover k).exemptPaise = (turnover k).totalPaise) →
      ∀ first n, (periods first).monthIndex = d.monthIndex → first + 60 ≤ n → ∀ h,
        g.credit h ≤ ∑ k ∈ Finset.range n, (year k).te h ∧
          ∑ k ∈ Finset.range n, (year k).te h < g.credit h + 60) := by
  intro year
  have hexact : ∀ k h, exactShare (year k) (turnover k) h ≤ (year k).te h ∧
      ((year k).te h : ℚ) < exactShare (year k) (turnover k) h + 1 := fun k h =>
    te_exact goods (label k) (periods k) (turnover k) (hturnover k).1 (hturnover k).2.1 h
  refine ⟨fun i g d hg hcredited => ?_, hexact, fun n h hn => ?_, ?_⟩
  · have hin : ∀ k, (year k).Includes i ↔
        d.monthIndex ≤ (periods k).monthIndex ∧ (periods k).monthIndex < d.monthIndex + 60 :=
      fun k => included_at goods (label k) (periods k) _ hg hcredited
    refine ⟨hin, fun hbegun => ?_⟩
    refine ⟨d.monthIndex - (periods 0).monthIndex, ?_, fun k => ?_⟩
    · rw [hmonths.month_index]
      omega
    · rw [hin k, hmonths.month_index k]
      constructor <;> intro hwithin <;> omega
  · push_cast
    constructor
    · exact Finset.sum_le_sum fun k _ => (hexact k h).1
    · have hsum : ∑ k ∈ Finset.range n, exactShare (year k) (turnover k) h + n =
          ∑ k ∈ Finset.range n, (exactShare (year k) (turnover k) h + 1) := by
        rw [Finset.sum_add_distrib, Finset.sum_const, Finset.card_range, nsmul_eq_mul, mul_one]
      rw [hsum]
      exact Finset.sum_lt_sum_of_nonempty (Finset.nonempty_range_iff.mpr hn.ne')
        fun k _ => (hexact k h).2
  · rintro g d rfl hcredited hexempt first n hfirst hn h
    have hlife := life_recovered hcredited label periods turnover hmonths
      (fun k => (hturnover k).1) hexempt hfirst hn h
    have hle := @le_ceil_div_mul 60 (g.credit h) (by decide)
    have hlt := @ceil_div_mul_lt 60 (g.credit h) (by decide)
    change g.credit h ≤ ∑ k ∈ Finset.range n,
        (compute [g] (label k) (periods k) (some (turnover k))).te h ∧
      ∑ k ∈ Finset.range n, (compute [g] (label k) (periods k) (some (turnover k))).te h <
        g.credit h + 60
    rw [hlife]
    constructor <;> linarith

def latheInvoiced : Day := .of 2024 5 28

def lathe : CapitalGood where
  assetId := "a1"
  assetName := "Lathe"
  invoiceDate := some latheInvoiced
  paise := Heads.of 0 100000 100000
  itcEligible := some true
  use := some .common

theorem lathe_recovered :
    lathe.credit .cgst ≤ ∑ k ∈ Finset.range 60,
        (compute [lathe] "" (latheInvoiced.addMonthsClamped k) (some ⟨100, 100⟩)).te .cgst ∧
      ∑ k ∈ Finset.range 60,
        (compute [lathe] "" (latheInvoiced.addMonthsClamped k) (some ⟨100, 100⟩)).te .cgst <
          lathe.credit .cgst + 60 :=
  (credit_recovered_over_sixty [lathe] (fun _ => "") latheInvoiced.addMonthsClamped
    (fun _ => ⟨100, 100⟩) (fun k => by rw [Day.month_index_add, Day.month_index_add, add_assoc])
    (fun _ => by decide)).2.2.2 lathe latheInvoiced rfl
    ⟨rfl, rfl, rfl, .cgst, by decide⟩ (fun _ => rfl) 0 60 rfl le_rfl .cgst

/-- A common asset of which nobody recorded whether its credit was taken is left out of all periods. -/
theorem unstated_credit_never_included :
    ¬ ∀ (goods : List CapitalGood) (periods : ℕ → Day) (turnover : Turnover),
      Consecutive periods → 0 < turnover.totalPaise ∧ 0 ≤ turnover.exemptPaise ∧
        turnover.exemptPaise ≤ turnover.totalPaise →
      ∀ i g d, goods[i]? = some g → g.use = some .common → g.invoiceDate = some d →
        (periods 0).monthIndex ≤ d.monthIndex →
        ∃ first, (periods first).monthIndex = d.monthIndex ∧ ∀ k,
          (compute goods "" (periods k) (some turnover)).Includes i ↔ first ≤ k ∧ k < first + 60 := by
  intro h
  obtain ⟨first, -, hin⟩ := h [{ lathe with itcEligible := none }] latheInvoiced.addMonthsClamped
    ⟨100, 100⟩ (fun k => by rw [Day.month_index_add, Day.month_index_add, add_assoc]) (by decide)
    0 _ latheInvoiced rfl rfl rfl le_rfl
  have hfirst := (hin first).mpr ⟨le_rfl, by omega⟩
  unfold Result.Includes at hfirst
  rw [compute_lines] at hfirst
  cases hfirst

end Caflow.Gst.Rule43
