import Caflow.IncomeTax.ProvisoRelief

set_option linter.all false

namespace Caflow.IncomeTax.AdvanceTax
open Calendar (Day)

variable {fy : FinancialYear} {due : List Day} {payments payments' : List InstallmentPayment}
  {items : List UnforeseenIncome} {item : UnforeseenIncome} {lines lines' : List UnforeseenLine}
  {day : Day}

theorem round_paise_nonneg {a : ℤ} (h : 0 ≤ a) : roundPaise a 100 = (a + 50) / 100 := by
  unfold roundPaise
  rw [if_neg (by decide : (100 : ℤ) ≠ 0)]
  exact if_pos h

theorem round_paise_mono {a b : ℤ} (ha : 0 ≤ a) (hle : a ≤ b) :
    roundPaise a 100 ≤ roundPaise b 100 := by
  rw [round_paise_nonneg ha, round_paise_nonneg (ha.trans hle)]
  exact Int.ediv_le_ediv (by decide) (by omega)

/-- No figure of an instalment's rule is negative. -/
structure InstallmentRule.NonNegative (rule : InstallmentRule) : Prop where
  required : 0 ≤ rule.cumulativeRequiredPercent
  trigger : 0 ≤ rule.triggerPercent
  months : 0 ≤ rule.interestMonths

theorem rules_nonneg {isPresumptive : Bool} {i : InstallmentRule × Day}
    (h : i ∈ installmentsOf fy isPresumptive) : i.1.NonNegative := by
  obtain ⟨rule, hrule, hdue⟩ := List.mem_filterMap.mp h
  obtain ⟨dueDate, -, rfl⟩ := Option.map_eq_some_iff.mp hdue
  have hall : ∀ rule ∈ installmentRules isPresumptive, 0 ≤ rule.cumulativeRequiredPercent ∧
      0 ≤ rule.triggerPercent ∧ 0 ≤ rule.interestMonths := by
    cases isPresumptive with
    | true => decide
    | false => decide
  obtain ⟨hrequired, htrigger, hmonths⟩ := hall rule hrule
  exact ⟨hrequired, htrigger, hmonths⟩

/-- More paid by an instalment's date, or more relieved after it, never adds to its interest. -/
theorem interest_le {rule : InstallmentRule} {estimated : ℤ} (hrule : rule.NonNegative)
    (hpaid : paidBy payments day ≤ paidBy payments' day)
    (hrelieved : relievedAfter lines day ≤ relievedAfter lines' day) :
    (installmentInterest estimated payments' lines' rule day).interestPaise ≤
      (installmentInterest estimated payments lines rule day).interestPaise := by
  have hbase : 0 ≤ estimated - min estimated (relievedAfter lines' day) :=
    sub_nonneg.mpr (min_le_left _ _)
  have hbases : estimated - min estimated (relievedAfter lines' day) ≤
      estimated - min estimated (relievedAfter lines day) :=
    sub_le_sub_left (min_le_min_left _ hrelieved) _
  have hrequired := round_paise_mono (mul_nonneg hbase hrule.required)
    (mul_le_mul_of_nonneg_right hbases hrule.required)
  have htrigger := round_paise_mono (mul_nonneg hbase hrule.trigger)
    (mul_le_mul_of_nonneg_right hbases hrule.trigger)
  have hmonths := hrule.months
  unfold installmentInterest
  dsimp only
  apply round_paise_mono
  · refine mul_nonneg (mul_nonneg ?_ (by decide)) hmonths
    split
    · exact le_max_left _ _
    · exact le_rfl
  · refine mul_le_mul_of_nonneg_right (mul_le_mul_of_nonneg_right ?_ (by decide)) hmonths
    split_ifs with hshort hwas hwas
    · omega
    · omega
    · exact le_max_left _ _
    · exact le_rfl

theorem relieve_all_lines (fy : FinancialYear) (due : List Day) (pool : List Paid)
    (items : List UnforeseenIncome) : List.Forall₂ Line items (relieveAll fy due pool items) := by
  induction items generalizing pool with
  | nil => exact .nil
  | cons item items ih => exact .cons (relieve_line fy due pool item) (ih _)

/-- An income that was relieved still is. -/
def Kept (line line' : UnforeseenLine) : Prop := line.relief → line'.relief

/-- What is relieved only grows where every income relieved still is. -/
theorem relieved_after_le (hlines : List.Forall₂ Line items lines)
    (hlines' : List.Forall₂ Line items lines') (htax : ∀ item ∈ items, 0 ≤ item.taxPaise)
    (hkept : List.Forall₂ Kept lines lines') :
    relievedAfter lines day ≤ relievedAfter lines' day := by
  unfold relievedAfter
  rw [sum_where, sum_where]
  induction hlines generalizing lines' with
  | nil =>
    cases hkept
    exact le_rfl
  | @cons item line items lines hline _ ih =>
    obtain ⟨hitem, hitems⟩ := List.forall_mem_cons.mp htax
    cases hlines' with
    | cons hline' hlines' =>
      cases hkept with
      | cons hone hkept =>
        have hrest := ih hlines' hitems hkept
        rw [List.map_cons, List.map_cons, List.sum_cons, List.sum_cons]
        refine add_le_add ?_ hrest
        rw [hline.aroseOn, hline'.aroseOn, hline.taxPaise, hline'.taxPaise]
        split
        · rename_i hrelieved
          obtain ⟨hrelief, hlater⟩ := Bool.and_eq_true_iff.mp hrelieved
          rw [if_pos (Bool.and_eq_true_iff.mpr ⟨hone hrelief, hlater⟩)]
        · split
          · exact hitem
          · exact le_rfl

theorem relieved_after_nonneg (hlines : List.Forall₂ Line items lines)
    (htax : ∀ item ∈ items, 0 ≤ item.taxPaise) : 0 ≤ relievedAfter lines day := by
  unfold relievedAfter
  rw [sum_where]
  induction hlines with
  | nil => exact le_rfl
  | cons hline _ ih =>
    obtain ⟨hitem, hitems⟩ := List.forall_mem_cons.mp htax
    rw [List.map_cons, List.sum_cons]
    refine add_nonneg ?_ (ih hitems)
    rw [hline.taxPaise]
    split
    · exact hitem
    · exact le_rfl

/-! ### A year -/

theorem refuse_nonneg (h : refuse fy item = .ok ()) : 0 ≤ item.taxPaise := by
  unfold refuse at h
  split at h
  · cases h
  · split at h
    · cases h
    · split at h
      · cases h
      · rename_i hnonneg
        exact not_lt.mp hnonneg

theorem accepted_iff : items.forM (refuse fy) = .ok () ↔ ∀ item ∈ items, refuse fy item = .ok () := by
  induction items with
  | nil => exact iff_of_true rfl fun item hitem => absurd hitem List.not_mem_nil
  | cons item items ih =>
    have hstep : (item :: items).forM (refuse fy) =
        refuse fy item >>= fun _ => items.forM (refuse fy) := rfl
    rw [hstep, List.forall_mem_cons, ← ih]
    cases refuse fy item with
    | error e =>
      refine iff_of_false (fun h => ?_) fun h => ?_
      · cases h
      · cases h.1
    | ok u => exact (and_iff_right rfl).symm

/-- The proviso is applied to incomes of which none is refused. -/
theorem apply_proviso_ok (haccepted : ∀ item ∈ items, refuse fy item = .ok ()) (due : List Day)
    (payments : List InstallmentPayment) :
    ∃ caveats, applyProviso fy due payments items =
      .ok (relieveAll fy due (poolOf payments) (inOrder items), caveats) := by
  unfold applyProviso
  by_cases hnone : items = []
  · subst hnone
    exact ⟨[], rfl⟩
  · rw [if_neg hnone, accepted_iff.mpr haccepted]
    exact ⟨_, rfl⟩

theorem apply_proviso_accepts {answer : List UnforeseenLine × List String}
    (h : applyProviso fy due payments items = .ok answer) :
    ∀ item ∈ items, refuse fy item = .ok () := by
  unfold applyProviso at h
  split at h
  · rename_i hnone
    rw [hnone]
    exact fun item hitem => absurd hitem List.not_mem_nil
  · rw [← accepted_iff]
    cases hcheck : items.forM (refuse fy) with
    | error e =>
      rw [hcheck] at h
      cases h
    | ok u => rfl

def dueDates (fy : FinancialYear) (isPresumptive : Bool) : List Day :=
  (installmentSchedule fy isPresumptive).map Prod.snd

/-- What a year's answer is made of. -/
structure Computed (fy : FinancialYear) (estimated : ℤ) (payments : List InstallmentPayment)
    (isPresumptive : Bool) (unforeseen : List UnforeseenIncome) (r : AdvanceTaxInterestResult) :
    Prop where
  accepted : ∀ item ∈ unforeseen, refuse fy item = .ok ()
  lines : r.unforeseenLines =
    relieveAll fy (dueDates fy isPresumptive) (poolOf payments) (inOrder unforeseen)
  installments : r.installments = (installmentsOf fy isPresumptive).map fun i =>
    installmentInterest estimated payments r.unforeseenLines i.1 i.2
  total : r.totalInterestPaise = (r.installments.map (·.interestPaise)).sum

theorem compute_ok {estimated : ℤ} {isPresumptive : Bool} (hpos : 0 < estimated)
    (haccepted : ∀ item ∈ items, refuse fy item = .ok ()) (payments : List InstallmentPayment) :
    ∃ r, compute234cInterest fy estimated payments isPresumptive items = .ok r ∧
      Computed fy estimated payments isPresumptive items r := by
  obtain ⟨caveats, happly⟩ := apply_proviso_ok haccepted (dueDates fy isPresumptive) payments
  unfold compute234cInterest
  rw [if_neg (not_le.mpr hpos)]
  dsimp only [dueDates] at happly ⊢
  rw [happly]
  exact ⟨_, rfl, haccepted, rfl, rfl, rfl⟩

theorem compute_accepts {estimated : ℤ} {isPresumptive : Bool} {r : AdvanceTaxInterestResult}
    (hpos : 0 < estimated)
    (h : compute234cInterest fy estimated payments isPresumptive items = .ok r) :
    ∀ item ∈ items, refuse fy item = .ok () := by
  unfold compute234cInterest at h
  rw [if_neg (not_le.mpr hpos)] at h
  dsimp only at h
  cases happly : applyProviso fy ((installmentSchedule fy isPresumptive).map Prod.snd) payments
      items with
  | error e =>
    rw [happly] at h
    cases h
  | ok answer => exact apply_proviso_accepts happly

theorem computed_of_ok {estimated : ℤ} {isPresumptive : Bool} {r : AdvanceTaxInterestResult}
    (hpos : 0 < estimated)
    (h : compute234cInterest fy estimated payments isPresumptive items = .ok r) :
    Computed fy estimated payments isPresumptive items r := by
  obtain ⟨r', hr', hcomputed⟩ := compute_ok hpos (compute_accepts hpos h) payments
  rw [h] at hr'
  cases hr'
  exact hcomputed

/-- Nothing is charged, and nothing read, where no tax is estimated. -/
theorem compute_nothing {estimated : ℤ} (hnone : estimated ≤ 0)
    (payments : List InstallmentPayment) (isPresumptive : Bool) (items : List UnforeseenIncome) :
    compute234cInterest fy estimated payments isPresumptive items =
      .ok ⟨[], 0, isPresumptive, basisOf isPresumptive, [], []⟩ := by
  unfold compute234cInterest
  rw [if_pos hnone]

theorem mem_in_order {item : UnforeseenIncome} : item ∈ inOrder items ↔ item ∈ items :=
  (List.perm_insertionSort _ _).mem_iff

/-- An instalment is charged no more than another. -/
def NoMore (x y : InstallmentInterestResult) : Prop :=
  x.installmentNumber = y.installmentNumber ∧ x.interestPaise ≤ y.interestPaise

section
variable {estimated : ℤ} {isPresumptive : Bool} {r r' : AdvanceTaxInterestResult}
  {items' : List UnforeseenIncome}

theorem Computed.nonneg (h : Computed fy estimated payments isPresumptive items r) :
    ∀ item ∈ inOrder items, 0 ≤ item.taxPaise := fun item hitem =>
  refuse_nonneg (h.accepted item (mem_in_order.mp hitem))

/-- Of two years on the same estimate the one with more paid and more relieved is charged no more. -/
theorem Computed.no_more (h : Computed fy estimated payments isPresumptive items r)
    (h' : Computed fy estimated payments' isPresumptive items' r')
    (hpaid : ∀ day, paidBy payments day ≤ paidBy payments' day)
    (hrelieved : ∀ day, relievedAfter r.unforeseenLines day ≤ relievedAfter r'.unforeseenLines day) :
    List.Forall₂ NoMore r'.installments r.installments := by
  rw [h.installments, h'.installments, List.forall₂_map_left_iff, List.forall₂_map_right_iff,
    List.forall₂_same]
  intro i hi
  exact ⟨rfl, interest_le (rules_nonneg hi) (hpaid i.2) (hrelieved i.2)⟩

theorem no_more_total {xs ys : List InstallmentInterestResult} (h : List.Forall₂ NoMore xs ys) :
    (xs.map (·.interestPaise)).sum ≤ (ys.map (·.interestPaise)).sum := by
  induction h with
  | nil => exact le_rfl
  | cons hone _ ih =>
    rw [List.map_cons, List.map_cons, List.sum_cons, List.sum_cons]
    exact add_le_add hone.2 ih

theorem Computed.lines_of (h : Computed fy estimated payments isPresumptive items r) :
    List.Forall₂ Line (inOrder items) r.unforeseenLines := by
  rw [h.lines]
  exact relieve_all_lines _ _ _ _

/-- One income alone, or none, is relieved where more is paid if it was before. -/
theorem Computed.kept_alone (h : Computed fy estimated payments isPresumptive items r)
    (h' : Computed fy estimated payments' isPresumptive items r') (hmore : Enlarged payments payments')
    (halone : items.length ≤ 1) : List.Forall₂ Kept r.unforeseenLines r'.unforeseenLines := by
  have hnonneg := h.nonneg
  have hlength : (inOrder items).length ≤ 1 := by
    rwa [inOrder, List.length_insertionSort]
  rw [h.lines, h'.lines]
  cases hitems : inOrder items with
  | nil => exact .nil
  | cons item rest =>
    rw [hitems] at hnonneg hlength
    have hrest : rest = [] := List.eq_nil_of_length_eq_zero (by simpa using hlength)
    subst hrest
    have htax := hnonneg item List.mem_cons_self
    refine .cons (fun hrelieved => ?_) .nil
    rw [relieve_relief (pool_nonneg _) htax] at hrelieved ⊢
    exact ⟨hrelieved.1, hrelieved.2.1, hrelieved.2.2.trans (hmore.paid_within _ _)⟩

end

/-- The interest with the proviso is no more than without it on any instalment, each income is
relieved by payments that no other is, and a payment more or a larger one never adds to the
interest where every income that was relieved still is, as where there is one at most. -/
theorem proviso_only_relieves {estimated : ℤ} {isPresumptive : Bool}
    {unforeseen : List UnforeseenIncome} {r : AdvanceTaxInterestResult}
    (h : compute234cInterest fy estimated payments isPresumptive unforeseen = .ok r) :
    (∃ plain, compute234cInterest fy estimated payments isPresumptive [] = .ok plain ∧
      List.Forall₂ NoMore r.installments plain.installments) ∧
    (∃ share, Backing (poolOf payments) r.unforeseenLines share) ∧
    relievedTax r.unforeseenLines ≤ total (poolOf payments) ∧
    ∀ payments', Enlarged payments payments' →
      ∃ r', compute234cInterest fy estimated payments' isPresumptive unforeseen = .ok r' ∧
        (unforeseen.length ≤ 1 ∨ List.Forall₂ Kept r.unforeseenLines r'.unforeseenLines →
          List.Forall₂ NoMore r'.installments r.installments ∧
            r'.totalInterestPaise ≤ r.totalInterestPaise) := by
  by_cases hpos : 0 < estimated
  · have hcomputed := computed_of_ok hpos h
    have hlines := hcomputed.lines_of
    have hempty : ∀ item ∈ [], refuse fy item = .ok () := fun item hitem =>
      absurd hitem List.not_mem_nil
    obtain ⟨plain, hplain, hcomputed₀⟩ := compute_ok hpos hempty payments
    have hbacked : ∃ share, Backing (poolOf payments) r.unforeseenLines share := by
      rw [hcomputed.lines]
      exact relieve_all_backed (pool_nonneg payments) hcomputed.nonneg
    refine ⟨⟨plain, hplain, ?_⟩, hbacked, ?_, fun payments' hmore => ?_⟩
    · refine hcomputed₀.no_more hcomputed (fun day => le_rfl) fun day => ?_
      rw [hcomputed₀.lines]
      exact relieved_after_nonneg hlines hcomputed.nonneg
    · obtain ⟨share, hshare⟩ := hbacked
      exact hshare.relieved_le
    · obtain ⟨r', hr', hcomputed'⟩ := compute_ok hpos (compute_accepts hpos h) payments'
      refine ⟨r', hr', fun hstill => ?_⟩
      have hkept : List.Forall₂ Kept r.unforeseenLines r'.unforeseenLines := by
        rcases hstill with halone | hkept
        · exact hcomputed.kept_alone hcomputed' hmore halone
        · exact hkept
      have hno := hcomputed.no_more hcomputed' hmore.paid_by fun day =>
        relieved_after_le hlines hcomputed'.lines_of hcomputed.nonneg hkept
      refine ⟨hno, ?_⟩
      rw [hcomputed.total, hcomputed'.total]
      exact no_more_total hno
  · have hnone := not_lt.mp hpos
    rw [compute_nothing hnone] at h
    cases h
    have hpool := pool_nonneg payments
    refine ⟨⟨_, compute_nothing hnone payments isPresumptive [], .nil⟩, ⟨_, backing_none hpool⟩,
      List.sum_nonneg (List.forall_mem_map.mpr hpool), fun payments' _ => ?_⟩
    exact ⟨_, compute_nothing hnone payments' isPresumptive unforeseen, fun _ => ⟨.nil, le_rfl⟩⟩

/-- A gain in July and winnings in January, and a payment in February that is enough for the
winnings. -/
def julyAndJanuary : List UnforeseenIncome :=
  [⟨"capital_gain", .of 2025 7 1, 20000, ""⟩, ⟨"winnings", .of 2026 1 10, 15000, ""⟩]

/-- The winnings alone are relieved. -/
theorem paid_in_february :
    let fy : FinancialYear := ⟨"2025-26", 2025⟩
    let payments : List InstallmentPayment := [⟨4, 15000, some (.of 2026 2 10)⟩]
    ∃ r, compute234cInterest fy 100000 payments false julyAndJanuary = .ok r ∧
      (∃ plain, compute234cInterest fy 100000 payments false [] = .ok plain ∧
        List.Forall₂ NoMore r.installments plain.installments) ∧
      (∃ share, Backing (poolOf payments) r.unforeseenLines share) ∧
      relievedTax r.unforeseenLines ≤ total (poolOf payments) ∧
      ∀ payments', Enlarged payments payments' →
        ∃ r', compute234cInterest fy 100000 payments' false julyAndJanuary = .ok r' ∧
          (julyAndJanuary.length ≤ 1 ∨ List.Forall₂ Kept r.unforeseenLines r'.unforeseenLines →
            List.Forall₂ NoMore r'.installments r.installments ∧
              r'.totalInterestPaise ≤ r.totalInterestPaise) := by
  intro fy payments
  have hpos : (0 : ℤ) < 100000 := by decide
  have haccepted : ∀ item ∈ julyAndJanuary, refuse fy item = .ok () := by decide +kernel
  obtain ⟨r, hr, -⟩ := @compute_ok fy julyAndJanuary 100000 false hpos haccepted payments
  exact ⟨r, hr, proviso_only_relieves hr⟩

/-- With a payment more in March, enough for the gain, the gain is relieved in place of the winnings
and the interest is more. -/
theorem payment_more_costs_more :
    let fy : FinancialYear := ⟨"2025-26", 2025⟩
    let payments : List InstallmentPayment := [⟨4, 15000, some (.of 2026 2 10)⟩]
    let payments' : List InstallmentPayment := payments ++ [⟨4, 5000, some (.of 2026 3 1)⟩]
    Enlarged payments payments' ∧
    ((compute234cInterest fy 100000 payments false julyAndJanuary).toOption.map
      (·.totalInterestPaise)) = some 4294 ∧
    ((compute234cInterest fy 100000 payments' false julyAndJanuary).toOption.map
      (·.totalInterestPaise)) = some 4760 := by
  intro fy payments payments'
  exact ⟨.added payments [] ⟨4, 5000, some (.of 2026 3 1)⟩ (by decide), by decide +kernel,
    by decide +kernel⟩

end Caflow.IncomeTax.AdvanceTax
