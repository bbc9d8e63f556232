import Caflow.Purchases.BillJournal

set_option linter.all false

namespace Caflow.Purchases
open Accounting

/-- Lines on one side, and what they come to. -/
structure OnSide (side other : NarratedLine → ℤ) (lines : List NarratedLine) (paise : ℤ) : Prop where
  line : ∀ l ∈ lines, 0 < side l ∧ other l = 0
  total : (lines.map side).sum = paise

section
variable {side other : NarratedLine → ℤ} {lines lines' : List NarratedLine} {paise paise' : ℤ}

theorem OnSide.nil (side other : NarratedLine → ℤ) : OnSide side other [] 0 :=
  ⟨fun _ hl => absurd hl List.not_mem_nil, rfl⟩

theorem OnSide.append (h : OnSide side other lines paise) (h' : OnSide side other lines' paise') :
    OnSide side other (lines ++ lines') (paise + paise') where
  line := fun l hl => (List.mem_append.mp hl).elim (h.line l) (h'.line l)
  total := by
    rw [List.map_append, List.sum_append, h.total, h'.total]

theorem OnSide.opposite (h : OnSide side other lines paise) : (lines.map other).sum = 0 := by
  apply List.sum_eq_zero
  intro x hx
  obtain ⟨l, hl, rfl⟩ := List.mem_map.mp hx
  exact (h.line l hl).2

theorem OnSide.one {l : NarratedLine} (hside : 0 < side l) (hother : other l = 0) :
    OnSide side other [l] (side l) :=
  ⟨List.forall_mem_singleton.mpr ⟨hside, hother⟩, List.sum_singleton⟩

/-- What is nothing adds nothing. -/
theorem sum_positive {α : Type*} {figure : α → ℤ} {l : List α} (h : ∀ a ∈ l, 0 ≤ figure a) :
    ((l.filter (0 < figure ·)).map figure).sum = (l.map figure).sum := by
  induction l with
  | nil => rfl
  | cons a l ih =>
    obtain ⟨ha, hrest⟩ := List.forall_mem_cons.mp h
    rw [List.filter_cons, List.map_cons, List.sum_cons, ← ih hrest]
    by_cases hpos : 0 < figure a
    · rw [if_pos (decide_eq_true hpos), List.map_cons, List.sum_cons]
    · have hzero : figure a = 0 := le_antisymm (not_lt.mp hpos) ha
      rw [if_neg (by simp [hzero]), hzero, zero_add]

/-- Figures that are something make lines of one side. -/
theorem on_side_of {α : Type*} {figure : α → ℤ} {make : α → NarratedLine} {l : List α}
    (hfigure : ∀ a ∈ l, 0 ≤ figure a) (hside : ∀ a, side (make a) = figure a)
    (hother : ∀ a, other (make a) = 0) :
    OnSide side other ((l.filter (0 < figure ·)).map make) (l.map figure).sum where
  line := by
    intro line hline
    obtain ⟨a, ha, rfl⟩ := List.mem_map.mp hline
    rw [hside]
    exact ⟨of_decide_eq_true (List.mem_filter.mp ha).2, hother a⟩
  total := by
    have hmake : side ∘ make = figure := funext hside
    rw [List.map_map, hmake, sum_positive hfigure]

end

/-- Some accounts are charged with nothing below nothing, and with so much together. -/
structure Charged (d : List (String × ℤ)) (paise : ℤ) : Prop where
  nonneg : ∀ p ∈ d, 0 ≤ p.2
  total : sumOf d = paise

section
variable {d : List (String × ℤ)} {paise x : ℤ}

theorem charged_nothing : Charged [] 0 := ⟨fun _ hp => absurd hp List.not_mem_nil, rfl⟩

theorem charged_one (k : String) (hx : 0 ≤ x) : Charged [(k, x)] x :=
  ⟨List.forall_mem_singleton.mpr hx, List.sum_singleton⟩

theorem Charged.add (h : Charged d paise) (k : String) (hx : 0 ≤ x) :
    Charged (addTo d k x) (paise + x) where
  nonneg := by
    have hheld : 0 ≤ (Dict.get d k).getD 0 := by
      cases hk : Dict.get d k with
      | none => exact le_rfl
      | some held => exact h.nonneg _ (Dict.mem_of_get hk)
    intro p hp
    rcases Dict.mem_set hp with rfl | hp
    · exact add_nonneg hheld hx
    · exact h.nonneg p hp
  total := by
    have hset : sumOf (addTo d k x) + (Dict.get d k).elim 0 id =
        sumOf d + ((Dict.get d k).getD 0 + x) := Dict.sum_set k _ d id
    have hheld : (Dict.get d k).elim 0 id = (Dict.get d k).getD 0 := by
      cases Dict.get d k <;> rfl
    rw [hheld, h.total] at hset
    omega

theorem Charged.add_all {α : Type*} {k : α → String} {f : α → ℤ} {l : List α} (h : Charged d paise)
    (hf : ∀ a ∈ l, 0 ≤ f a) :
    Charged (l.foldl (fun d a => addTo d (k a) (f a)) d) (paise + (l.map f).sum) := by
  induction l generalizing d paise with
  | nil =>
    rw [List.map_nil, List.sum_nil, add_zero]
    exact h
  | cons a l ih =>
    obtain ⟨ha, hrest⟩ := List.forall_mem_cons.mp hf
    rw [List.map_cons, List.sum_cons, ← add_assoc]
    exact ih (h.add (k a) ha) hrest

/-- What is left out for being nothing changes nothing. -/
theorem Charged.add_rest {e : List (String × ℤ)} (h : Charged d paise) (he : Charged e x) :
    Charged (e.foldl (fun d p => if p.2 = 0 then d else addTo d p.1 p.2) d) (paise + x) := by
  obtain ⟨hnonneg, rfl⟩ := he
  induction e generalizing d paise with
  | nil =>
    rw [sumOf, List.map_nil, List.sum_nil, add_zero]
    exact h
  | cons p e ih =>
    obtain ⟨hp, hrest⟩ := List.forall_mem_cons.mp hnonneg
    have hsum : sumOf (p :: e) = p.2 + sumOf e := by
      rw [sumOf, List.map_cons, List.sum_cons, ← sumOf]
    rw [hsum, ← add_assoc, List.foldl_cons]
    split
    · rename_i hzero
      rw [hzero, add_zero]
      exact ih h hrest
    · exact ih (h.add p.1 hp) hrest

end

section
variable {chart : List AccountRow} {clientId : String} {bill : Bill}
  {rows : List BillLine}

theorem by_account_charged (purchasesId : String) (h : bill.Adds bill.isReverseCharge)
    (hrows : ∀ row ∈ rows, row.Charged) :
    Charged (byAccount purchasesId bill rows) bill.taxableAmountPaise := by
  have hgrouped := charged_nothing.add_all (k := account purchasesId)
    (f := BillLine.taxableAmountPaise) fun row hrow => (hrows row hrow).taxable
  unfold byAccount
  dsimp only
  split
  · exact charged_one purchasesId h.taxable
  · rename_i hfoots
    rw [not_or, not_not] at hfoots
    exact ⟨hgrouped.nonneg, hfoots.2⟩

theorem blocked_charged (purchasesId : String) (h : bill.Adds bill.isReverseCharge)
    (hrows : ∀ row ∈ rows, row.Charged) :
    Charged (blockedByAccount purchasesId bill rows) bill.ineligibleItc.total := by
  have hlines : ∀ row ∈ rows.filter (!·.itcEligible), 0 ≤ row.tax.total := fun row hrow =>
    (hrows row (List.mem_filter.mp hrow).1).tax.total.1
  have hper := charged_nothing.add_all (k := account purchasesId) (f := fun row => row.tax.total) hlines
  unfold blockedByAccount
  dsimp only
  split
  · exact charged_one purchasesId h.ineligible.total.1
  · rename_i hfoots
    exact ⟨hper.nonneg, not_not.mp hfoots⟩

theorem costs_charged (purchasesId : String) (h : bill.Adds bill.isReverseCharge)
    (hrows : ∀ row ∈ rows, row.Charged) :
    Charged (costs purchasesId bill rows)
      (bill.taxableAmountPaise + bill.ineligibleItc.total) := by
  unfold costs
  split
  · rename_i hnone
    rw [hnone, add_zero]
    exact by_account_charged purchasesId h hrows
  · exact (by_account_charged purchasesId h hrows).add_rest (blocked_charged purchasesId h hrows)

theorem cost_lines_side (purchasesId : String) (h : bill.Adds bill.isReverseCharge)
    (hrows : ∀ row ∈ rows, row.Charged) :
    OnSide (·.debitPaise) (·.creditPaise) (costLines purchasesId bill rows)
      (bill.taxableAmountPaise + bill.ineligibleItc.total) := by
  have hcosts := costs_charged purchasesId h hrows
  have hsome : (costs purchasesId bill rows).filter (·.2 ≠ 0) =
      (costs purchasesId bill rows).filter (0 < ·.2) := by
    apply List.filter_congr
    intro p hp
    have := hcosts.nonneg p hp
    rw [decide_eq_decide]
    omega
  rw [costLines, hsome, ← hcosts.total]
  exact on_side_of hcosts.nonneg (fun _ => rfl) fun _ => rfl

theorem gst_credit_side (h : bill.Adds bill.isReverseCharge) (gstInputId : String) :
    OnSide (·.debitPaise) (·.creditPaise) (gstCreditLines gstInputId bill)
      ((creditableHeads bill).map Prod.fst).sum := by
  have hcgst := h.ineligible.cgst.2
  have hsgst := h.ineligible.sgst.2
  have higst := h.ineligible.igst.2
  refine on_side_of (fun p hp => ?_) (fun _ => rfl) fun _ => rfl
  simp only [creditableHeads, List.mem_cons, List.not_mem_nil, or_false] at hp
  rcases hp with rfl | rfl | rfl <;> dsimp only <;> omega

theorem cess_credit_side (h : bill.Adds bill.isReverseCharge) {lines : List NarratedLine}
    (hlines : cessCreditLines chart clientId bill = .ok lines) :
    OnSide (·.debitPaise) (·.creditPaise) lines (bill.tax.cess - bill.ineligibleItc.cess) := by
  unfold cessCreditLines at hlines
  dsimp only at hlines
  split at hlines
  · rename_i hpos
    obtain ⟨cessInputId, -, hlines⟩ := bind_answered hlines
    obtain rfl := Except.ok.inj hlines
    exact OnSide.one hpos rfl
  · rename_i hnone
    obtain rfl := Except.ok.inj hlines
    have hcess := h.ineligible.cess.2
    have hzero : bill.tax.cess - bill.ineligibleItc.cess = 0 := by omega
    rw [hzero]
    exact OnSide.nil _ _

theorem tds_side (h : bill.Adds bill.isReverseCharge) (tdsPayId : String) :
    OnSide (·.creditPaise) (·.debitPaise) (tdsLines bill tdsPayId) bill.tdsPaise := by
  unfold tdsLines
  split
  · rename_i hpos
    exact OnSide.one hpos rfl
  · rename_i hnone
    have hzero : bill.tdsPaise = 0 := le_antisymm (not_lt.mp hnone) h.tds.1
    rw [hzero]
    exact OnSide.nil _ _

theorem output_lines_side {heads : List (ℤ × String × String)} {lines : List NarratedLine}
    (hheads : ∀ head ∈ heads, 0 < head.1)
    (hlines : heads.mapM (outputLine chart clientId) = .ok lines) :
    OnSide (·.creditPaise) (·.debitPaise) lines (heads.map Prod.fst).sum := by
  have hall := Gst.mapM_ok_iff.mp hlines
  clear hlines
  induction hall with
  | nil => exact OnSide.nil _ _
  | @cons head line heads lines hline _ ih =>
    obtain ⟨hhead, hrest⟩ := List.forall_mem_cons.mp hheads
    unfold outputLine at hline
    obtain ⟨outId, -, hline⟩ := bind_answered hline
    obtain rfl := Except.ok.inj hline
    exact (OnSide.one hhead rfl).append (ih hrest)

theorem cess_output_side (h : 0 ≤ bill.tax.cess) {lines : List NarratedLine}
    (hlines : cessOutputLines chart clientId bill = .ok lines) :
    OnSide (·.creditPaise) (·.debitPaise) lines bill.tax.cess := by
  unfold cessOutputLines at hlines
  split at hlines
  · rename_i hpos
    obtain ⟨cessOutId, -, hlines⟩ := bind_answered hlines
    obtain rfl := Except.ok.inj hlines
    exact OnSide.one hpos rfl
  · rename_i hnone
    obtain rfl := Except.ok.inj hlines
    rw [le_antisymm (not_lt.mp hnone) h]
    exact OnSide.nil _ _

/-- The output tax a recipient owes is the whole of the tax, where the charge is reversed. -/
theorem reverse_charge_side (h : bill.Adds bill.isReverseCharge) {lines : List NarratedLine}
    (hlines : reverseChargeLines chart clientId bill = .ok lines) :
    OnSide (·.creditPaise) (·.debitPaise) lines
      (if bill.isReverseCharge then bill.tax.total else 0) := by
  obtain ⟨hcgst, hsgst, higst, hcess⟩ := h.ineligible
  unfold reverseChargeLines at hlines
  split at hlines
  · rename_i hreverse
    rw [if_pos hreverse]
    obtain ⟨heads, hheads, hlines⟩ := bind_answered hlines
    obtain ⟨cess, hcessLines, hlines⟩ := bind_answered hlines
    obtain rfl := Except.ok.inj hlines
    have hnonneg : ∀ head ∈ outputHeads bill, 0 ≤ head.1 := by
      intro head hhead
      simp only [outputHeads, List.mem_cons, List.not_mem_nil, or_false] at hhead
      rcases hhead with rfl | rfl | rfl <;> dsimp only <;> omega
    have hside := output_lines_side
      (fun head hhead => of_decide_eq_true (List.mem_filter.mp hhead).2) hheads
    have hsum : ((outputHeads bill).map Prod.fst).sum + bill.tax.cess = bill.tax.total := by
      simp only [outputHeads, List.map_cons, List.map_nil, List.sum_cons, List.sum_nil,
        TaxHeads.total]
      omega
    rw [sum_positive hnonneg] at hside
    rw [← hsum]
    exact hside.append (cess_output_side (hcess.1.trans hcess.2) hcessLines)
  · rename_i hforward
    obtain rfl := Except.ok.inj hlines
    rw [if_neg hforward]
    exact OnSide.nil _ _

/-- The entry of a bill: costs and credits to its debit, then what the vendor is owed, then what is
withheld and what the buyer owes itself. -/
theorem bill_lines_sides {lines : List NarratedLine} (h : bill.Adds bill.isReverseCharge)
    (hrows : ∀ row ∈ rows, row.Charged)
    (hlines : billLines chart clientId bill rows = .ok lines) :
    ∃ before payablesId after, lines = before ++ payableLine bill payablesId :: after ∧
      OnSide (·.debitPaise) (·.creditPaise) before (bill.taxableAmountPaise + bill.tax.total) ∧
      OnSide (·.creditPaise) (·.debitPaise) after
        (bill.tdsPaise + if bill.isReverseCharge then bill.tax.total else 0) := by
  unfold billLines at hlines
  obtain ⟨purchasesId, -, hlines⟩ := bind_answered hlines
  obtain ⟨gstInputId, -, hlines⟩ := bind_answered hlines
  obtain ⟨payablesId, -, hlines⟩ := bind_answered hlines
  obtain ⟨tdsPayId, -, hlines⟩ := bind_answered hlines
  obtain ⟨cess, hcess, hlines⟩ := bind_answered hlines
  obtain ⟨output, houtput, hlines⟩ := bind_answered hlines
  have hdebits := ((cost_lines_side purchasesId h hrows).append (gst_credit_side h gstInputId)).append
    (cess_credit_side h hcess)
  have hcreditable : bill.taxableAmountPaise + bill.ineligibleItc.total +
      ((creditableHeads bill).map Prod.fst).sum + (bill.tax.cess - bill.ineligibleItc.cess) =
        bill.taxableAmountPaise + bill.tax.total := by
    simp only [creditableHeads, List.map_cons, List.map_nil, List.sum_cons, List.sum_nil,
      TaxHeads.total]
    omega
  rw [hcreditable] at hdebits
  exact ⟨_, payablesId, _, (Except.ok.inj hlines).symm, hdebits,
    (tds_side h tdsPayId).append (reverse_charge_side h houtput)⟩

end

/-- A line that is on one side of an entry. -/
def NarratedLine.OneSided (l : NarratedLine) : Prop :=
  (0 < l.debitPaise ∧ l.creditPaise = 0) ∨ (l.debitPaise = 0 ∧ 0 < l.creditPaise)

theorem total_debit_eq (lines : List NarratedLine) :
    totalDebit (lines.map NarratedLine.toJournalLine) = (lines.map (·.debitPaise)).sum := by
  rw [totalDebit, List.map_map]
  rfl

theorem total_credit_eq (lines : List NarratedLine) :
    totalCredit (lines.map NarratedLine.toJournalLine) = (lines.map (·.creditPaise)).sum := by
  rw [totalCredit, List.map_map]
  rfl

theorem around_sum (side : NarratedLine → ℤ) (before after : List NarratedLine) (l : NarratedLine) :
    ((before ++ l :: after).map side).sum =
      (before.map side).sum + (side l + (after.map side).sum) := by
  rw [List.map_append, List.sum_append, List.map_cons, List.sum_cons]

section
variable {chart : List AccountRow} {clientId : String} {bill : Bill} {rows : List BillLine}
  {lines : List NarratedLine}

/-- Both sides of a bill's entry come to its taxable value and the whole of its tax. -/
theorem bill_entry_totals (h : bill.Adds bill.isReverseCharge) (hrows : ∀ row ∈ rows, row.Charged)
    (hlines : billLines chart clientId bill rows = .ok lines) :
    totalDebit (lines.map NarratedLine.toJournalLine) = bill.taxableAmountPaise + bill.tax.total ∧
    totalCredit (lines.map NarratedLine.toJournalLine) =
      bill.taxableAmountPaise + bill.tax.total := by
  obtain ⟨before, payablesId, after, rfl, hbefore, hafter⟩ := bill_lines_sides h hrows hlines
  have hdebit : (payableLine bill payablesId).debitPaise = 0 := rfl
  have hcredit : (payableLine bill payablesId).creditPaise = bill.totalPaise - bill.tdsPaise := h.net
  have htotal := h.total
  rw [total_debit_eq, total_credit_eq, around_sum, around_sum, hbefore.total, hbefore.opposite,
    hafter.total, hafter.opposite, hdebit, hcredit]
  split_ifs at htotal ⊢ <;> omega

/-- A bill as it is computed comes to an entry that balances. -/
theorem computed_entry_totals {isInterstate : Bool} {rate : ℚ} {minorUnit : ℕ} {withheld : ℤ → ℤ}
    {linesData : List BillLineIn} {c : ComputedBill} (hlinesData : ∀ ln ∈ linesData, ln.Valid)
    (hrate : 0 < rate) (hwithheld : ∀ taxable, 0 ≤ withheld taxable)
    (hc : computeBillLinesAndTotals isInterstate bill.isReverseCharge rate minorUnit withheld
      linesData = .ok c)
    (hbill : bill.toBillFigures = c.toBillFigures)
    (hlines : billLines chart clientId bill c.computedLines = .ok lines) :
    totalDebit (lines.map NarratedLine.toJournalLine) = bill.taxableAmountPaise + bill.tax.total ∧
    totalCredit (lines.map NarratedLine.toJournalLine) =
      bill.taxableAmountPaise + bill.tax.total := by
  obtain ⟨hadds, hrows⟩ := computed_adds hlinesData hrate hwithheld hc
  rw [← hbill] at hadds
  exact bill_entry_totals hadds hrows hlines

/-- The kernel posts a bill that comes to something, under a number that is new. -/
theorem bill_posted (h : bill.Adds bill.isReverseCharge) (hrows : ∀ row ∈ rows, row.Charged)
    (hlines : billLines chart clientId bill rows = .ok lines)
    (hsome : bill.taxableAmountPaise + bill.tax.total ≠ 0) {journal : List JournalEntry}
    (hfresh : Fresh journal bill.billDate bill.reference) :
    journalForPurchaseBill chart clientId bill journal rows =
      .ok (journal ++ [⟨bill.billDate, bill.reference, lines.map NarratedLine.toJournalLine⟩]) := by
  obtain ⟨hdebit, hcredit⟩ := bill_entry_totals h hrows hlines
  unfold journalForPurchaseBill
  rw [hlines]
  rw [Fresh] at hfresh
  simp [bind, Except.bind, createJournal, hdebit, hcredit, hsome, hfresh]

end

/-- The entry of a bill that adds up balances. Each of its lines is on one side, but that the
vendor's stands even where the deduction takes the whole bill and leaves nothing on it. Where the
charge is reversed the vendor is owed no tax. -/
theorem bill_entry_balances (chart : List AccountRow) (clientId : String) (bill : Bill)
    (rows : List BillLine) (lines : List NarratedLine) (h : bill.Adds bill.isReverseCharge)
    (hrows : ∀ row ∈ rows, row.Charged)
    (hlines : billLines chart clientId bill rows = .ok lines) :
    totalDebit (lines.map NarratedLine.toJournalLine) =
        totalCredit (lines.map NarratedLine.toJournalLine) ∧
    ∃ before payable after, lines = before ++ payable :: after ∧
      payable.narration = "Trade payable to vendor" ∧
      (∀ l ∈ before ++ after, l.OneSided) ∧
      (payable.OneSided ↔ bill.tdsPaise < bill.totalPaise) ∧
      payable.debitPaise = 0 ∧
      payable.creditPaise = bill.totalPaise - bill.tdsPaise ∧
      (bill.isReverseCharge → payable.creditPaise = bill.taxableAmountPaise - bill.tdsPaise) := by
  have htotals := bill_entry_totals h hrows hlines
  refine ⟨htotals.1.trans htotals.2.symm, ?_⟩
  obtain ⟨before, payablesId, after, rfl, hbefore, hafter⟩ := bill_lines_sides h hrows hlines
  have hdebit : (payableLine bill payablesId).debitPaise = 0 := rfl
  have hcredit : (payableLine bill payablesId).creditPaise = bill.totalPaise - bill.tdsPaise := h.net
  refine ⟨before, _, after, rfl, rfl, ?_, ?_, hdebit, hcredit, fun hreverse => ?_⟩
  · intro l hl
    rcases List.mem_append.mp hl with hl | hl
    · exact .inl (hbefore.line l hl)
    · exact .inr (hafter.line l hl).symm
  · have htds := h.tds.2
    rw [NarratedLine.OneSided, hdebit, hcredit]
    omega
  · have htotal := h.total
    rw [if_pos hreverse] at htotal
    rw [hcredit, htotal]

def someChart : List AccountRow :=
  [⟨"acc-purchases", none, "Purchases", none, true⟩,
    ⟨"acc-gst-input", none, "GST Input Tax Credit", some "gst_input", true⟩,
    ⟨"acc-payables", none, "Trade Payables", some "ap", true⟩,
    ⟨"acc-tds", none, "TDS Payable", some "tds_payable", true⟩,
    ⟨"acc-igst", none, "GST Output IGST", some "gst_igst", true⟩,
    ⟨"acc-cess", none, "Compensation Cess Payable", some "gst_cess_output", true⟩]

/-- Under reverse charge: fees with the credit, and a membership without. -/
def reversedBill : Bill where
  taxableAmountPaise := 150000
  tax := ⟨0, 0, 27000, 500⟩
  ineligibleItc := ⟨0, 0, 9000, 500⟩
  totalPaise := 150000
  tdsPaise := 10000
  netPayablePaise := 140000
  id := "bill-1"
  billNo := "INV-101"
  billDate := "2025-06-10"
  expenseAccountId := none
  tdsSection := some "194J"
  isReverseCharge := true

def reversedRows : List BillLine :=
  [⟨some "acc-fees", 100000, ⟨0, 0, 18000, 0⟩, 100000, true⟩,
    ⟨some "acc-club", 50000, ⟨0, 0, 9000, 500⟩, 50000, false⟩]

def reversedLines : List NarratedLine :=
  [.debit "acc-fees" 100000 "Purchase / expense", .debit "acc-club" 59500 "Purchase / expense",
    .debit "acc-gst-input" 18000 "IGST input tax credit",
    .credit "acc-payables" 140000 "Trade payable to vendor",
    .credit "acc-tds" 10000 "TDS payable — IT Act §194J",
    .credit "acc-igst" 27000 "IGST payable under reverse charge — CGST Act §9(3)/(4)",
    .credit "acc-cess" 500
      "Compensation cess payable under reverse charge — Compensation Act s.8 with s.11(2)"]

theorem reversed_entry_balances :
    totalDebit (reversedLines.map NarratedLine.toJournalLine) =
        totalCredit (reversedLines.map NarratedLine.toJournalLine) ∧
    ∃ before payable after, reversedLines = before ++ payable :: after ∧
      payable.narration = "Trade payable to vendor" ∧
      (∀ l ∈ before ++ after, l.OneSided) ∧
      (payable.OneSided ↔ (10000 : ℤ) < 150000) ∧
      payable.debitPaise = 0 ∧
      payable.creditPaise = 150000 - 10000 ∧
      (true → payable.creditPaise = 150000 - 10000) := by
  have hadds : reversedBill.Adds true :=
    ⟨by decide, ⟨by decide, by decide, by decide, by decide⟩, by decide, by decide, by decide⟩
  have hrows : ∀ row ∈ reversedRows, row.Charged := by
    intro row hrow
    simp only [reversedRows, List.mem_cons, List.not_mem_nil, or_false] at hrow
    rcases hrow with rfl | rfl
    · exact ⟨by decide, ⟨by decide, by decide, by decide, by decide⟩⟩
    · exact ⟨by decide, ⟨by decide, by decide, by decide, by decide⟩⟩
  exact bill_entry_balances someChart "client-1" reversedBill reversedRows reversedLines hadds hrows
    (by decide +kernel)

/-- A bill of ₹2,360 on which ₹5,100 is to be withheld for the year. -/
def wholeLine : BillLineIn := ⟨none, 1, 200000, 18, 0, none, none, true⟩

def wholeBill : Bill where
  taxableAmountPaise := 200000
  tax := ⟨18000, 18000, 0, 0⟩
  ineligibleItc := ⟨0, 0, 0, 0⟩
  totalPaise := 236000
  tdsPaise := 236000
  netPayablePaise := 0
  id := "bill-2"
  billNo := "INV-102"
  billDate := "2025-06-11"
  expenseAccountId := none
  tdsSection := some "194J"
  isReverseCharge := false

/-- Where the deduction takes the whole bill, the vendor's line has nothing on either side. -/
theorem payable_with_nothing :
    (computeBillLinesAndTotals false false 1 2 (fun _ => 510000) [wholeLine]).map
        (fun c => (c.toBillFigures, c.computedLines)) =
      .ok (wholeBill.toBillFigures, [⟨none, 200000, ⟨18000, 18000, 0, 0⟩, 236000, true⟩]) ∧
    billLines someChart "client-1" wholeBill
        [⟨none, 200000, ⟨18000, 18000, 0, 0⟩, 236000, true⟩] =
      .ok [.debit "acc-purchases" 200000 "Purchase / expense",
        .debit "acc-gst-input" 18000 "CGST input tax credit",
        .debit "acc-gst-input" 18000 "SGST input tax credit",
        .credit "acc-payables" 0 "Trade payable to vendor",
        .credit "acc-tds" 236000 "TDS payable — IT Act §194J"] ∧
    ¬ (NarratedLine.credit "acc-payables" 0 "Trade payable to vendor").OneSided := by
  refine ⟨by decide +kernel, by decide +kernel, ?_⟩
  rintro (hdebit | hcredit)
  · exact absurd hdebit.1 (by decide)
  · exact absurd hcredit.2 (by decide)

end Caflow.Purchases
