import Caflow.Currency.Conversion
import Caflow.OrderCycle.Pricing

set_option linter.all false

namespace Caflow.Purchases
open Currency Gst OrderCycle Rounding

/-- Central, state and integrated tax, and the compensation cess beside them. -/
structure TaxHeads where
  cgst : ℤ
  sgst : ℤ
  igst : ℤ
  cess : ℤ
  deriving DecidableEq

namespace TaxHeads

def total (h : TaxHeads) : ℤ := h.cgst + h.sgst + h.igst + h.cess

def map (f : ℤ → ℤ) (h : TaxHeads) : TaxHeads := ⟨f h.cgst, f h.sgst, f h.igst, f h.cess⟩

/-- Every head is one of the other and owes nothing back. -/
structure Within (part whole : TaxHeads) : Prop where
  cgst : 0 ≤ part.cgst ∧ part.cgst ≤ whole.cgst
  sgst : 0 ≤ part.sgst ∧ part.sgst ≤ whole.sgst
  igst : 0 ≤ part.igst ∧ part.igst ≤ whole.igst
  cess : 0 ≤ part.cess ∧ part.cess ≤ whole.cess

theorem Within.total {part whole : TaxHeads} (h : Within part whole) :
    0 ≤ part.total ∧ part.total ≤ whole.total := by
  obtain ⟨hcgst, hsgst, higst, hcess⟩ := h
  unfold TaxHeads.total
  omega

end TaxHeads

/-- A line of a bill as a payload carries it. -/
structure BillLineIn where
  expenseAccountId : Option String
  quantity : ℚ
  ratePaise : ℤ
  gstRatePercent : ℚ
  gstRateBps : ℤ
  cessRateBps : Option ℤ
  cessSpecificPaisePerUnit : Option ℤ
  itcEligible : Bool

/-- A line with its figures worked out, as it is stored. -/
structure BillLine where
  expenseAccountId : Option String
  taxableAmountPaise : ℤ
  tax : TaxHeads
  lineTotalPaise : ℤ
  itcEligible : Bool
  deriving DecidableEq

/-- What a bill comes to, in paise. -/
structure BillFigures where
  taxableAmountPaise : ℤ
  tax : TaxHeads
  ineligibleItc : TaxHeads
  totalPaise : ℤ
  tdsPaise : ℤ
  netPayablePaise : ℤ
  deriving DecidableEq

structure ComputedBill extends BillFigures where
  computedLines : List BillLine
  totalGstPaise : ℤ
  tdsShortfallPaise : ℤ

def computeBillLine (isInterstate isReverseCharge : Bool) (ln : BillLineIn) :
    Except Failure BillLine := do
  let taxable := truncate (ln.quantity * ln.ratePaise)
  let percent : ℚ := if ln.gstRatePercent = 0 then ln.gstRateBps / 100 else ln.gstRatePercent
  let (cgst, sgst, igst) := computeLineGst taxable (roundEven (percent * 100)) isInterstate
  let cess ← lineCess taxable ln.quantity (ln.cessRateBps.getD 0)
    (ln.cessSpecificPaisePerUnit.getD 0)
  .ok {
    expenseAccountId := ln.expenseAccountId
    taxableAmountPaise := taxable
    tax := ⟨cgst, sgst, igst, cess⟩
    -- what the vendor charges: under reverse charge, no tax of any head
    lineTotalPaise := if isReverseCharge then taxable else taxable + cgst + sgst + igst + cess
    itcEligible := ln.itcEligible }

def headsOf (lines : List BillLine) : TaxHeads where
  cgst := (lines.map (·.tax.cgst)).sum
  sgst := (lines.map (·.tax.sgst)).sum
  igst := (lines.map (·.tax.igst)).sum
  cess := (lines.map (·.tax.cess)).sum

/-- The figures of a bill in rupees. `withheld` is what the vendor's section withholds of a taxable
value; no more of it is deducted than the bill comes to. -/
def computeBillLinesAndTotals (isInterstate isReverseCharge : Bool) (rate : ℚ) (minorUnit : ℕ)
    (withheld : ℤ → ℤ) (linesData : List BillLineIn) : Except Failure ComputedBill := do
  let computedLines ← linesData.mapM (computeBillLine isInterstate isReverseCharge)
  let toBase := fun txnMinor => toBaseMinor txnMinor rate minorUnit
  let taxable := toBase (computedLines.map (·.taxableAmountPaise)).sum
  let tax := (headsOf computedLines).map toBase
  let ineligible := (headsOf (computedLines.filter (!·.itcEligible))).map toBase
  let total := if isReverseCharge then taxable else taxable + tax.total
  let tds := withheld taxable
  let deductible := min tds total
  .ok {
    computedLines := computedLines
    taxableAmountPaise := taxable
    tax := tax
    totalPaise := total
    totalGstPaise := tax.cgst + tax.sgst + tax.igst
    ineligibleItc := ineligible
    tdsPaise := deductible
    netPayablePaise := total - deductible
    tdsShortfallPaise := tds - deductible }

/-- A line that a request may carry. -/
structure BillLineIn.Valid (ln : BillLineIn) : Prop where
  quantity : 0 < ln.quantity
  rate : 0 ≤ ln.ratePaise
  percent : 0 ≤ ln.gstRatePercent
  bps : 0 ≤ ln.gstRateBps

/-- A stored line that charges nothing below nothing. -/
structure BillLine.Charged (l : BillLine) : Prop where
  taxable : 0 ≤ l.taxableAmountPaise
  tax : TaxHeads.Within l.tax l.tax

variable {isInterstate isReverseCharge : Bool}

theorem truncate_nonneg {x : ℚ} (hx : 0 ≤ x) : 0 ≤ truncate x := by
  rw [truncate_of_nonneg hx]
  exact Int.floor_nonneg.mpr hx

theorem round_even_nonneg {x : ℚ} (hx : 0 ≤ x) : 0 ≤ roundEven x := by
  have hfloor : 0 ≤ ⌊x⌋ := Int.floor_nonneg.mpr hx
  unfold roundEven
  split_ifs <;> omega

theorem line_gst_nonneg {taxable bps : ℤ} (htaxable : 0 ≤ taxable) (hbps : 0 ≤ bps)
    (isInterstate : Bool) :
    0 ≤ (computeLineGst taxable bps isInterstate).1 ∧
      0 ≤ (computeLineGst taxable bps isInterstate).2.1 ∧
      0 ≤ (computeLineGst taxable bps isInterstate).2.2 := by
  have hfull : 0 ≤ taxable * bps / 10000 := Int.ediv_nonneg (mul_nonneg htaxable hbps) (by norm_num)
  unfold computeLineGst
  dsimp only
  split_ifs
  · exact ⟨le_rfl, le_rfl, hfull⟩
  · refine ⟨?_, ?_, le_rfl⟩ <;> dsimp only <;> omega

theorem line_cess_nonneg {taxable rateBps perUnit cess : ℤ} {quantity : ℚ}
    (h : lineCess taxable quantity rateBps perUnit = .ok cess) : 0 ≤ cess := by
  unfold lineCess at h
  split_ifs at h with hrate hunit htaxable hquantity
  obtain rfl := Except.ok.inj h
  have hvalue : 0 ≤ taxable * rateBps / 10000 :=
    Int.ediv_nonneg (mul_nonneg (not_lt.mp htaxable) (not_lt.mp hrate)) (by norm_num)
  have hunits : 0 ≤ truncate (quantity * perUnit) := by
    apply truncate_nonneg
    have hper : (0 : ℚ) ≤ perUnit := by exact_mod_cast not_lt.mp hunit
    exact mul_nonneg (not_lt.mp hquantity) hper
  omega

theorem computed_line_charged {ln : BillLineIn} {l : BillLine} (h : ln.Valid)
    (hl : computeBillLine isInterstate isReverseCharge ln = .ok l) : l.Charged := by
  have htaxable : 0 ≤ truncate (ln.quantity * ln.ratePaise) := by
    apply truncate_nonneg
    have hrate : (0 : ℚ) ≤ ln.ratePaise := by exact_mod_cast h.rate
    exact mul_nonneg h.quantity.le hrate
  have hpercent : 0 ≤ if ln.gstRatePercent = 0 then (ln.gstRateBps : ℚ) / 100 else
      ln.gstRatePercent := by
    have hbps : (0 : ℚ) ≤ ln.gstRateBps := by exact_mod_cast h.bps
    split_ifs
    · positivity
    · exact h.percent
  have hgst := line_gst_nonneg htaxable
    (round_even_nonneg (mul_nonneg hpercent (by norm_num : (0 : ℚ) ≤ 100))) isInterstate
  unfold computeBillLine at hl
  cases hcess : lineCess (truncate (ln.quantity * ln.ratePaise)) ln.quantity (ln.cessRateBps.getD 0)
      (ln.cessSpecificPaisePerUnit.getD 0) with
  | error failure =>
    simp [hcess, bind, Except.bind] at hl
  | ok cess =>
    simp only [hcess, bind, Except.bind] at hl
    obtain rfl := Except.ok.inj hl
    have hc := line_cess_nonneg hcess
    exact ⟨htaxable, ⟨hgst.1, le_rfl⟩, ⟨hgst.2.1, le_rfl⟩, ⟨hgst.2.2, le_rfl⟩, ⟨hc, le_rfl⟩⟩

theorem to_base_mono {x y : ℤ} {rate : ℚ} (hx : 0 ≤ x) (hxy : x ≤ y) (hrate : 0 < rate)
    (minorUnit : ℕ) :
    0 ≤ toBaseMinor x rate minorUnit ∧
      toBaseMinor x rate minorUnit ≤ toBaseMinor y rate minorUnit := by
  refine ⟨to_base_minor_nonneg hx hrate minorUnit, ?_⟩
  have hy := to_base_minor_nonneg (hx.trans hxy) hrate minorUnit
  have hscaled : (x : ℚ) * rate * (10 : ℚ) ^ (baseMinorUnit - minorUnit) ≤
      (0 : ℤ) + (y : ℚ) * rate * (10 : ℚ) ^ (baseMinorUnit - minorUnit) := by
    have hcast : (x : ℚ) ≤ y := by exact_mod_cast hxy
    rw [Int.cast_zero, zero_add]
    gcongr
  have hround := half_up_le_add le_rfl hy hscaled
  rwa [zero_add] at hround

/-- The figures of a bill add up, the tax that earns no credit is of the tax there is, and the vendor
is owed what the deduction leaves. -/
structure BillFigures.Adds (b : BillFigures) (isReverseCharge : Bool) : Prop where
  taxable : 0 ≤ b.taxableAmountPaise
  ineligible : b.ineligibleItc.Within b.tax
  total : b.totalPaise =
    if isReverseCharge then b.taxableAmountPaise else b.taxableAmountPaise + b.tax.total
  tds : 0 ≤ b.tdsPaise ∧ b.tdsPaise ≤ b.totalPaise
  net : b.netPayablePaise = b.totalPaise - b.tdsPaise

theorem sum_part {lines : List BillLine} {f : BillLine → ℤ} (h : ∀ l ∈ lines, 0 ≤ f l)
    (p : BillLine → Bool) :
    0 ≤ ((lines.filter p).map f).sum ∧ ((lines.filter p).map f).sum ≤ (lines.map f).sum := by
  constructor
  · refine List.sum_nonneg fun x hx => ?_
    obtain ⟨l, hl, rfl⟩ := List.mem_map.mp hx
    exact h l (List.mem_filter.mp hl).1
  · refine (List.filter_sublist.map f).sum_le_sum fun x hx => ?_
    obtain ⟨l, hl, rfl⟩ := List.mem_map.mp hx
    exact h l hl

/-- The tax on some of the lines is of the tax on them all. -/
theorem heads_part {lines : List BillLine} (h : ∀ l ∈ lines, l.Charged) (p : BillLine → Bool) :
    TaxHeads.Within (headsOf (lines.filter p)) (headsOf lines) where
  cgst := sum_part (fun l hl => (h l hl).tax.cgst.1) p
  sgst := sum_part (fun l hl => (h l hl).tax.sgst.1) p
  igst := sum_part (fun l hl => (h l hl).tax.igst.1) p
  cess := sum_part (fun l hl => (h l hl).tax.cess.1) p

theorem TaxHeads.Within.to_base {part whole : TaxHeads} (h : part.Within whole) {rate : ℚ}
    (hrate : 0 < rate) (minorUnit : ℕ) :
    (part.map fun x => toBaseMinor x rate minorUnit).Within
      (whole.map fun x => toBaseMinor x rate minorUnit) where
  cgst := to_base_mono h.cgst.1 h.cgst.2 hrate minorUnit
  sgst := to_base_mono h.sgst.1 h.sgst.2 hrate minorUnit
  igst := to_base_mono h.igst.1 h.igst.2 hrate minorUnit
  cess := to_base_mono h.cess.1 h.cess.2 hrate minorUnit

theorem computed_lines_charged {linesData : List BillLineIn} {computed : List BillLine}
    (hlines : ∀ ln ∈ linesData, ln.Valid)
    (h : List.Forall₂ (fun ln l => computeBillLine isInterstate isReverseCharge ln = .ok l) linesData
      computed) : ∀ l ∈ computed, l.Charged := by
  induction h with
  | nil => exact fun l hl => absurd hl List.not_mem_nil
  | cons hl _ ih =>
    obtain ⟨hvalid, hrest⟩ := List.forall_mem_cons.mp hlines
    exact List.forall_mem_cons.mpr ⟨computed_line_charged hvalid hl, ih hrest⟩

/-- A bill adds up as it is computed, and its lines charge nothing below nothing. -/
theorem computed_adds {linesData : List BillLineIn} {c : ComputedBill} {rate : ℚ} {minorUnit : ℕ}
    {withheld : ℤ → ℤ} (hlines : ∀ ln ∈ linesData, ln.Valid) (hrate : 0 < rate)
    (hwithheld : ∀ taxable, 0 ≤ withheld taxable)
    (h : computeBillLinesAndTotals isInterstate isReverseCharge rate minorUnit withheld linesData =
      .ok c) :
    c.Adds isReverseCharge ∧ ∀ l ∈ c.computedLines, l.Charged := by
  unfold computeBillLinesAndTotals at h
  cases hcomputed : linesData.mapM (computeBillLine isInterstate isReverseCharge) with
  | error failure =>
    simp [hcomputed, bind, Except.bind] at h
  | ok computed =>
    simp only [hcomputed, bind, Except.bind] at h
    obtain rfl := Except.ok.inj h
    have hcharged := computed_lines_charged hlines (mapM_ok_iff.mp hcomputed)
    have htaxable : 0 ≤ toBaseMinor (computed.map (·.taxableAmountPaise)).sum rate minorUnit := by
      refine to_base_minor_nonneg (List.sum_nonneg fun x hx => ?_) hrate minorUnit
      obtain ⟨l, hl, rfl⟩ := List.mem_map.mp hx
      exact (hcharged l hl).taxable
    have hpart := (heads_part hcharged fun l => !l.itcEligible).to_base hrate minorUnit
    refine ⟨⟨htaxable, hpart, rfl, ⟨?_, min_le_right _ _⟩, rfl⟩, hcharged⟩
    have htax := hpart.total
    refine le_min (hwithheld _) ?_
    split_ifs
    · exact htaxable
    · exact add_nonneg htaxable (htax.1.trans htax.2)

end Caflow.Purchases
