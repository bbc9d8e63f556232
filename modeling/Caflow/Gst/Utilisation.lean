import Caflow.Gst.Gstr3bComputer

set_option linter.all false

namespace Caflow.Gst
open SetOff

/-- The liabilities that section 49(5) lets a head's credit pay. -/
def mayPay (credit liability : Head) : Prop :=
  match credit, liability with
  | .igst, .cess => False
  | .igst, _ => True
  | .cgst, .cgst | .cgst, .igst | .sgst, .sgst | .sgst, .igst | .cess, .cess => True
  | .cgst, _ | .sgst, _ | .cess, _ => False

section
variable {avail liab : Tax} {p : Pools Head Head}

theorem settled_halves (h : Settled mayPay avail liab p) :
    Settled mayPay avail liab
      ((p.draw .igst .cgst (min (p.due .cgst) (p.credit .igst / 2))).draw .igst .sgst
        (min (p.due .sgst) (p.credit .igst - p.credit .igst / 2))) := by
  have hc := h.credit_nonneg .igst
  have hd := h.due_nonneg .cgst
  have hd' := h.due_nonneg .sgst
  have hfirst : Settled mayPay avail liab
      (p.draw .igst .cgst (min (p.due .cgst) (p.credit .igst / 2))) :=
    h.draw trivial (by omega) (by omega) (min_le_left _ _)
  refine hfirst.draw trivial (by omega) ?_ (min_le_left _ _)
  simp only [Pools.draw, Function.update_self]
  omega

theorem settled_across (h : Settled mayPay avail liab p) :
    Settled mayPay avail liab (igstAcross p) :=
  ((settled_halves h).settle .igst .cgst trivial).settle .igst .sgst trivial

theorem across_below (h : Settled mayPay avail liab p) : Below (igstAcross p) p := by
  have hc := h.credit_nonneg .igst
  have hd := h.due_nonneg .cgst
  have hd' := h.due_nonneg .sgst
  have hhalves := settled_halves h
  have hmopped := hhalves.settle .igst .cgst trivial
  refine (hmopped.settle_below .igst .sgst).trans ((hhalves.settle_below .igst .cgst).trans ?_)
  have hfirst := draw_below p .igst .cgst
    (show 0 ≤ min (p.due .cgst) (p.credit .igst / 2) by omega)
  have hsecond := draw_below (p.draw .igst .cgst (min (p.due .cgst) (p.credit .igst / 2))) .igst .sgst
    (show 0 ≤ min (p.due .sgst) (p.credit .igst - p.credit .igst / 2) by omega)
  exact hsecond.trans hfirst

/-- Once it has gone across, IGST credit is spent or both other heads are paid. -/
theorem across_exhausts (h : Settled mayPay avail liab p) :
    (igstAcross p).credit .igst = 0 ∨
      (igstAcross p).due .cgst = 0 ∧ (igstAcross p).due .sgst = 0 :=
  (settled_halves h).settle_both .igst .cgst .sgst trivial trivial

theorem settled_own (head : Head) (h : Settled mayPay avail liab p) (hown : mayPay head head)
    (higst : mayPay head .igst) : Settled mayPay avail liab (ownThenIgst p head) :=
  (h.settle head head hown).settle head .igst higst

theorem own_below (head : Head) (h : Settled mayPay avail liab p) (hown : mayPay head head) :
    Below (ownThenIgst p head) p :=
  ((h.settle head head hown).settle_below head .igst).trans (h.settle_below head head)

/-- The order of utilisation moves credit only where it may go. -/
theorem settled_set_off (ha : ∀ h, 0 ≤ avail h) (hl : ∀ h, 0 ≤ liab h) :
    Settled mayPay avail liab (setOff avail liab) :=
  let hown := (settled_start ha hl).settle .igst .igst trivial
  settled_own .sgst (settled_own .cgst (settled_across hown) trivial trivial) trivial trivial

/-- No IGST credit remains beside any liability, and no CGST or SGST credit beside a liability
that it may pay. -/
theorem set_off_exhausts (ha : ∀ h, 0 ≤ avail h) (hl : ∀ h, 0 ≤ liab h) :
    ((setOff avail liab).credit .igst = 0 ∨ (setOff avail liab).due .igst = 0 ∧
      (setOff avail liab).due .cgst = 0 ∧ (setOff avail liab).due .sgst = 0) ∧
    ((setOff avail liab).credit .cgst = 0 ∨
      (setOff avail liab).due .cgst = 0 ∧ (setOff avail liab).due .igst = 0) ∧
    ((setOff avail liab).credit .sgst = 0 ∨
      (setOff avail liab).due .sgst = 0 ∧ (setOff avail liab).due .igst = 0) := by
  have hstart : Settled mayPay avail liab ⟨avail, liab, []⟩ := settled_start ha hl
  have hown := hstart.settle .igst .igst trivial
  have hacross := settled_across hown
  have hcgst := settled_own .cgst hacross trivial trivial
  have hend := settled_set_off ha hl
  have hlast : Below (setOff avail liab) _ := own_below .sgst hcgst trivial
  have hlate : Below (setOff avail liab) _ := hlast.trans (own_below .cgst hacross trivial)
  have hall : Below (setOff avail liab) _ := hlate.trans (across_below hown)
  have hspent : ∀ {h}, 0 ≤ (setOff avail liab).credit h := fun {h} => hend.credit_nonneg h
  have hpaid : ∀ {h}, 0 ≤ (setOff avail liab).due h := fun {h} => hend.due_nonneg h
  refine ⟨?_, ?_, hcgst.settle_both .sgst .sgst .igst trivial trivial⟩
  · rcases across_exhausts hown with hs | ⟨hc, hs⟩
    · exact .inl (hlate.spent hspent hs)
    · rcases settle_spent_or_paid ⟨avail, liab, []⟩ Head.igst Head.igst with h | h
      · exact .inl (hall.spent hspent h)
      · exact .inr ⟨hall.paid hpaid h, hlate.paid hpaid hc, hlate.paid hpaid hs⟩
  · rcases hacross.settle_both .cgst .cgst .igst trivial trivial with h | ⟨h, h'⟩
    · exact .inl (hlast.spent hspent h)
    · exact .inr ⟨hlast.paid hpaid h, hlast.paid hpaid h'⟩

end

/-- Cess credit against cess, beside what the other heads have come to. -/
theorem settle_cess (p : Pools Head Head) (hc : p.credit .cess = pool) (hd : p.due .cess = owed) :
    p.settle .cess .cess =
      ⟨Tax.of (p.credit .igst) (p.credit .cgst) (p.credit .sgst) (max 0 (pool - owed)),
        Tax.of (p.due .igst) (p.due .cgst) (p.due .sgst) (max 0 (owed - pool)),
        p.drawn ++ [⟨.cess, .cess, min pool owed⟩]⟩ := by
  subst hc hd
  unfold Pools.settle Pools.draw
  congr 1
  · funext h
    cases h with
    | cess =>
      simp only [Function.update_self, Tax.of]
      omega
    | _ => rfl
  · funext h
    cases h with
    | cess =>
      simp only [Function.update_self, Tax.of]
      omega
    | _ => rfl

def Gstr3bResult.pools (r : Gstr3bResult) : Pools Head Head := ⟨r.closing, r.net, r.used⟩

theorem itc_net_nonneg (t : Tables) (h : Head) : 0 ≤ t.itcNet h := le_max_right _ _

theorem liability_nonneg (t : Tables) (h : Head) : 0 ≤ t.liability h := by
  cases h <;> exact le_max_right _ _

theorem available_nonneg (inputs : Gstr3bInputs) (h : Head) :
    0 ≤ ((tablesOf inputs).itcNet + (inputs.openingCredit.getD CreditBalance.nil).paise) h :=
  add_nonneg (itc_net_nonneg _ h) ((inputs.openingCredit.getD CreditBalance.nil).nonneg h)

/-- The return's closing balances, its net tax and the credit it used are a settlement of its
liability out of the opening balance and Table 4(C). -/
theorem gstr3b_settled (inputs : Gstr3bInputs) :
    Settled mayPay ((computeGstr3b inputs).itcNet + (computeGstr3b inputs).opening)
      (computeGstr3b inputs).liability (computeGstr3b inputs).pools := by
  have hwalk : Settled mayPay
      ((tablesOf inputs).itcNet + (inputs.openingCredit.getD CreditBalance.nil).paise)
      (tablesOf inputs).liability _ :=
    settled_set_off (available_nonneg inputs) (liability_nonneg _)
  have hall := hwalk.settle .cess .cess trivial
  rw [settle_cess _ rfl rfl] at hall
  exact hall

theorem gstr3b_heads (inputs : Gstr3bInputs) (hne : h ≠ .cess) :
    let p := setOff ((tablesOf inputs).itcNet + (inputs.openingCredit.getD CreditBalance.nil).paise)
      (tablesOf inputs).liability
    (computeGstr3b inputs).closing h = p.credit h ∧ (computeGstr3b inputs).net h = p.due h := by
  cases h with
  | cess => exact absurd rfl hne
  | _ => simp only [computeGstr3b, Tax.of, and_self]

theorem gstr3b_exhausts (inputs : Gstr3bInputs) :
    let r := computeGstr3b inputs
    (r.closing .igst = 0 ∨ r.net .igst = 0 ∧ r.net .cgst = 0 ∧ r.net .sgst = 0) ∧
    (r.closing .cgst = 0 ∨ r.net .cgst = 0 ∧ r.net .igst = 0) ∧
    (r.closing .sgst = 0 ∨ r.net .sgst = 0 ∧ r.net .igst = 0) := by
  have hexhausts := set_off_exhausts (available_nonneg inputs) (liability_nonneg (tablesOf inputs))
  obtain ⟨hi, hi'⟩ := gstr3b_heads (h := .igst) inputs (by decide)
  obtain ⟨hc, hc'⟩ := gstr3b_heads (h := .cgst) inputs (by decide)
  obtain ⟨hs, hs'⟩ := gstr3b_heads (h := .sgst) inputs (by decide)
  rw [← hi, ← hi', ← hc, ← hc', ← hs, ← hs'] at hexhausts
  exact hexhausts

theorem tax_total_eq_sum (t : Tax) : t.total = ∑ h, t h := by
  change t .igst + t .cgst + t .sgst + t .cess =
    ∑ h ∈ ({.igst, .cgst, .sgst, .cess} : Finset Head), t h
  rw [Finset.sum_insert (by decide), Finset.sum_insert (by decide), Finset.sum_insert (by decide),
    Finset.sum_singleton]
  ring

/-- The balance carried forward is what the walk leaves under the four heads. -/
theorem carried_forward_eq_closing (inputs : Gstr3bInputs) :
    (computeGstr3b inputs).itcCarriedForwardPaise = (computeGstr3b inputs).closingCreditPaise := by
  have hsettled := gstr3b_settled inputs
  have hbalance := hsettled.spent_eq_paid
  have hpaid : ∑ h, (computeGstr3b inputs).net h ≤ ∑ h, (computeGstr3b inputs).liability h :=
    Finset.sum_le_sum fun h _ => hsettled.due_le h
  have hclosing : 0 ≤ ∑ h, (computeGstr3b inputs).closing h :=
    Finset.sum_nonneg fun h _ => hsettled.credit_nonneg h
  unfold Gstr3bResult.itcCarriedForwardPaise Gstr3bResult.itcAvailablePaise
    Gstr3bResult.itcConsumedPaise Gstr3bResult.closingCreditPaise Gstr3bResult.openingCreditPaise
  simp only [Pi.add_apply, Finset.sum_add_distrib, Gstr3bResult.pools] at hbalance
  simp only [tax_total_eq_sum]
  omega

/-- Set-off by the return is conservative and in the statutory order. -/
theorem set_off_statutory (inputs : Gstr3bInputs)
    (hpurchases : ∀ p ∈ inputs.purchases, ∀ h, 0 ≤ p.tax h) :
    let r := computeGstr3b inputs
    (∀ h, paidInto r.used h + r.net h = r.liability h) ∧
    (∀ h, drawnFrom r.used h + r.closing h = r.opening h + r.itcNet h) ∧
    (∀ h, 0 ≤ r.closing h ∧ 0 ≤ r.net h ∧ 0 ≤ r.cashPayable h) ∧
    (∀ h, r.cashPayable h =
      r.net h + ((inputs.purchases.filter (·.isReverseCharge)).map (·.tax h)).sum) ∧
    (∀ d ∈ r.used, 0 ≤ d.amount ∧ mayPay d.source d.sink) ∧
    (r.closing .igst = 0 ∨ r.net .igst = 0 ∧ r.net .cgst = 0 ∧ r.net .sgst = 0) ∧
    (r.closing .cgst = 0 ∨ r.net .cgst = 0 ∧ r.net .igst = 0) ∧
    (r.closing .sgst = 0 ∨ r.net .sgst = 0 ∧ r.net .igst = 0) ∧
    r.itcCarriedForwardPaise = r.closingCreditPaise := by
  intro r
  have hsettled : Settled mayPay (r.itcNet + r.opening) r.liability r.pools := gstr3b_settled inputs
  obtain ⟨hi, hc, hs⟩ := gstr3b_exhausts inputs
  have hrcm : ∀ h, r.rcm h = ((inputs.purchases.filter (·.isReverseCharge)).map (·.tax h)).sum :=
    fun h => by
    change ((inputs.purchases.filter (·.isReverseCharge)).map (·.tax)).sum h = _
    rw [Pi.list_sum_apply, List.map_map]
    rfl
  have hrcm_nonneg : ∀ h, 0 ≤ r.rcm h := by
    intro h
    rw [hrcm h]
    apply List.sum_nonneg
    intro x hx
    obtain ⟨p, hp, rfl⟩ := List.mem_map.mp hx
    exact hpurchases p (List.mem_of_mem_filter hp) h
  refine ⟨hsettled.due_eq, ?_, ?_, ?_, hsettled.permitted, hi, hc, hs,
    carried_forward_eq_closing inputs⟩
  · intro h
    have hcredit := hsettled.credit_eq h
    rw [Pi.add_apply, add_comm (r.itcNet h)] at hcredit
    exact hcredit
  · intro h
    have hnet := hsettled.due_nonneg h
    exact ⟨hsettled.credit_nonneg h, hnet, add_nonneg hnet (hrcm_nonneg h)⟩
  · intro h
    rw [← hrcm h]
    rfl

theorem set_off_statutory_reverse_charge :
    let inputs : Gstr3bInputs :=
      { sales := [⟨.invoice, 100000, Tax.of 18000 0 0 0, .taxable, false, true, "27", .registered⟩]
        purchases := [{ tax := Tax.of 0 900 900 0, isReverseCharge := true },
          { tax := Tax.of 0 5000 5000 0, isReverseCharge := false }]
        gstr2aRecords := [] }
    (computeGstr3b inputs).itcCarriedForwardPaise = (computeGstr3b inputs).closingCreditPaise := by
  intro inputs
  exact (set_off_statutory inputs (by decide)).2.2.2.2.2.2.2.2

end Caflow.Gst
