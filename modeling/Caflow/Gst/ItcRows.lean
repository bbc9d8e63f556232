import Caflow.Gst.Rule364Restricts

set_option linter.all false

namespace Caflow.Gst
open Rule364

/-- The two reverse-charge rows of one head: import of services first, and the rest up to what
is left of the credit. -/
def splitReverseCharge (impsHead rcmHead avail : ℤ) : ℤ × ℤ :=
  let imps := min impsHead avail
  (imps, min (rcmHead - impsHead) (avail - imps))

/-- Table 4(A), a row each in the order of the form. -/
def Tables.itcAvlRows (t : Tables) : List (String × Tax) :=
  let imps : Tax := fun h => (splitReverseCharge (t.imps h) (t.rcm h) (t.itcAvail h)).1
  let isrc : Tax := fun h => (splitReverseCharge (t.imps h) (t.rcm h) (t.itcAvail h)).2
  -- only integrated tax and cess are assessed on a bill of entry
  let impg := Tax.of
    (min (t.impg .igst) (max (t.itcAvail .igst - imps .igst - isrc .igst) 0)) 0 0
    (min (t.impg .cess) (max (t.itcAvail .cess - imps .cess - isrc .cess) 0))
  [("IMPG", impg), ("IMPS", imps), ("ISRC", isrc), ("ISD", 0),
    ("OTH", fun h => t.itcAvail h - imps h - isrc h - impg h)]

/-- No amount that the return reads for its credit is negative. -/
structure NonnegCredit (inputs : Gstr3bInputs) : Prop where
  tax : ∀ p ∈ inputs.purchases, ∀ h, 0 ≤ p.tax h
  ineligible : ∀ p ∈ inputs.purchases, ∀ h, 0 ≤ p.ineligible h
  assessed : ∀ b ∈ inputs.importsOfGoods, 0 ≤ b.igstPaise ∧ 0 ≤ b.cessPaise
  blocked : ∀ b ∈ inputs.importsOfGoods, 0 ≤ b.ineligibleIgstPaise ∧ 0 ≤ b.ineligibleCessPaise
  communicated : ∀ h, 0 ≤ communicated inputs h
  twoB : ∀ twoB ∈ inputs.twoBByDocument, ∀ id, ∀ filed ∈ twoB id, ∀ h, 0 ≤ filed.tax h

/-- The rows of Table 4(A) come to the credit they divide. -/
theorem itc_avl_rows_sum (t : Tables) (h : Head) :
    (t.itcAvlRows.map fun row => row.2 h).sum = t.itcAvail h := by
  simp only [Tables.itcAvlRows, List.map_cons, List.map_nil, List.sum_cons, List.sum_nil,
    Pi.zero_apply]
  ring

theorem split_reverse_charge_nonneg (himps : 0 ≤ impsHead) (hrcm : impsHead ≤ rcmHead)
    (havail : 0 ≤ avail) :
    0 ≤ (splitReverseCharge impsHead rcmHead avail).1 ∧
      0 ≤ (splitReverseCharge impsHead rcmHead avail).2 ∧
      (splitReverseCharge impsHead rcmHead avail).1 +
        (splitReverseCharge impsHead rcmHead avail).2 ≤ avail := by
  unfold splitReverseCharge
  dsimp only
  omega

/-- Where there is credit to divide, only the import of goods can be a negative row, and it is
one where the bills of entry block more than was assessed on them. -/
theorem itc_avl_rows_nonneg (t : Tables) (himps : ∀ h, 0 ≤ t.imps h) (hrcm : ∀ h, t.imps h ≤ t.rcm h)
    (havail : ∀ h, 0 ≤ t.itcAvail h) (himpg : t.impg .cgst = 0 ∧ t.impg .sgst = 0) :
    ∀ row ∈ t.itcAvlRows, ∀ h, row.2 h < 0 ↔ row.1 = "IMPG" ∧ t.impg h < 0 := by
  have hsplit := fun h => split_reverse_charge_nonneg (himps h) (hrcm h) (havail h)
  intro row hrow h
  have hh := hsplit h
  simp only [Tables.itcAvlRows, List.mem_cons, List.not_mem_nil, or_false] at hrow
  rcases hrow with rfl | rfl | rfl | rfl | rfl
  · cases h <;> simp only [Tax.of, true_and, himpg.1, himpg.2, lt_irrefl]
    all_goals omega
  · simp
    omega
  · simp
    omega
  · simp
  · cases h <;> simp [Tax.of]
    all_goals omega

/-- A document is never allowed less than nothing, unless it claims less than nothing. -/
theorem assess_one_ge (hfiled : ∀ filed ∈ twoB, ∀ h, 0 ≤ filed.tax h) (h : Head) :
    min (d.tax h) 0 ≤ (assessOne d twoB).allowed h := by
  have hpart : ∀ filed : ℤ, 0 ≤ filed →
      min (d.tax h) 0 ≤ (if d.tax h ≤ filed then d.tax h else filed) := by
    intro filed hf
    split_ifs <;> omega
  unfold assessOne
  dsimp only
  split_ifs
  any_goals exact min_le_left _ _
  cases hmatch : twoB.filter (·.matched) with
  | none => exact min_le_right _ _
  | some filed =>
    have := hpart (filed.tax h) (hfiled filed (matched_mem hmatch) h)
    dsimp only
    split_ifs
    · exact min_le_right _ _
    · exact this
    · exact this

theorem min_le_cap (book gstr2a : ℤ) (have2b : Bool) :
    min book gstr2a ≤ (applyRule364Cap book gstr2a have2b).1 := by
  unfold applyRule364Cap
  dsimp only
  split_ifs <;> simp

section
variable {inputs : Gstr3bInputs}

/-- The blocked credit of the period's purchases. -/
def blockedOn (purchases : List PurchaseTransaction) : Tax := (purchases.map (·.ineligible)).sum

theorem eligible_sum (purchases : List PurchaseTransaction) :
    (purchases.map (·.eligible)).sum =
      (purchases.map (·.tax)).sum - blockedOn purchases := by
  unfold blockedOn
  induction purchases with
  | nil => simp
  | cons p ps ih =>
    simp only [List.map_cons, List.sum_cons]
    rw [ih, PurchaseTransaction.eligible]
    abel

/-- What was assessed on the bills of entry, before anything is blocked. -/
theorem import_credit_blocked (hn : NonnegCredit inputs) (h : Head) :
    0 ≤ importCredit inputs h + Tax.of (inputs.importsOfGoods.map (·.ineligibleIgstPaise)).sum 0 0
      (inputs.importsOfGoods.map (·.ineligibleCessPaise)).sum h := by
  have hsum : ∀ (f g : ImportOfGoods → ℤ) (bs : List ImportOfGoods), (∀ b ∈ bs, 0 ≤ f b) →
      0 ≤ (bs.map fun b => f b - g b).sum + (bs.map g).sum := by
    intro f g bs hf
    rw [← List.sum_map_add]
    refine List.sum_nonneg fun x hx => ?_
    obtain ⟨b, hb, rfl⟩ := List.mem_map.mp hx
    have := hf b hb
    omega
  cases h with
  | igst => exact hsum _ _ _ fun b hb => (hn.assessed b hb).1
  | cgst | sgst => exact le_rfl
  | cess => exact hsum _ _ _ fun b hb => (hn.assessed b hb).2

theorem NonnegCredit.tax_sum (hn : NonnegCredit inputs) (h : Head)
    {ps : List PurchaseTransaction} (hps : ∀ p ∈ ps, p ∈ inputs.purchases) :
    0 ≤ (ps.map (·.tax)).sum h := by
  rw [sum_at]
  refine List.sum_nonneg fun x hx => ?_
  obtain ⟨p, hp, rfl⟩ := List.mem_map.mp hx
  exact hn.tax p (hps p hp) h

/-- The self-assessed documents block no more than all of them. -/
theorem NonnegCredit.blocked_le (hn : NonnegCredit inputs) (h : Head) :
    blockedOn (inputs.purchases.filter (·.isReverseCharge)) h ≤ blockedOn inputs.purchases h := by
  unfold blockedOn
  rw [sum_at, sum_at]
  refine (List.filter_sublist.map _).sum_le_sum fun x hx => ?_
  obtain ⟨p, hp, rfl⟩ := List.mem_map.mp hx
  exact hn.ineligible p hp h

/-- The credit under the aggregate cap falls short of nothing by what is blocked at most. -/
theorem NonnegCredit.capped_ge (hn : NonnegCredit inputs) (h : Head) :
    0 ≤ cappedCredit inputs h + selfAssessed inputs h + blockedOn inputs.purchases h +
      Tax.of (inputs.importsOfGoods.map (·.ineligibleIgstPaise)).sum 0 0
        (inputs.importsOfGoods.map (·.ineligibleCessPaise)).sum h := by
  have himport := import_credit_blocked hn h
  have hall := hn.tax_sum h (fun _ hp => hp)
  have hself := hn.tax_sum h fun p (hp : p ∈ inputs.purchases.filter (·.isReverseCharge)) =>
    (List.mem_filter.mp hp).1
  have hblocked := hn.blocked_le h
  have hcap : min (otherCredit inputs h) 0 ≤ cappedCredit inputs h := by
    unfold cappedCredit
    split_ifs with hcess
    · rw [hcess]
      exact min_le_left _ _
    · exact (min_le_min_left _ (hn.communicated h)).trans (min_le_cap _ _ _)
  have hbook := congrFun (other_credit_eq inputs) h
  have heligible := congrFun (eligible_sum inputs.purchases) h
  have hown := congrFun (eligible_sum (inputs.purchases.filter (·.isReverseCharge))) h
  have hboe : 0 ≤ Tax.of (inputs.importsOfGoods.map (·.ineligibleIgstPaise)).sum 0 0
      (inputs.importsOfGoods.map (·.ineligibleCessPaise)).sum h := by
    have hsum : ∀ f : ImportOfGoods → ℤ, (∀ b ∈ inputs.importsOfGoods, 0 ≤ f b) →
        0 ≤ (inputs.importsOfGoods.map f).sum := fun f hf =>
      List.sum_nonneg (by simpa using hf)
    cases h with
    | igst => exact hsum _ fun b hb => (hn.blocked b hb).1
    | cgst | sgst => exact le_rfl
    | cess => exact hsum _ fun b hb => (hn.blocked b hb).2
  simp only [Pi.add_apply, Pi.sub_apply] at hbook heligible hown
  have hselfEq : selfAssessed inputs h =
      ((inputs.purchases.filter (·.isReverseCharge)).map (·.eligible)).sum h := rfl
  rcases min_le_iff.mp hcap with hle | hle <;> omega

theorem NonnegCredit.allowed_ge (hn : NonnegCredit inputs) (happlied : (assessment inputs).applied)
    (h : Head) : 0 ≤ (assessment inputs).allowed h + blockedOn inputs.purchases h := by
  unfold assessment assess at happlied ⊢
  cases htwoB : inputs.twoBByDocument.filter (fun _ => have2bOf inputs) with
  | none => simp [htwoB] at happlied
  | some twoB =>
    have hmem := (Option.filter_eq_some_iff.mp htwoB).1
    dsimp only
    rw [List.map_map, List.map_map, blockedOn, sum_at, sum_at, ← List.sum_map_add]
    refine List.sum_nonneg fun x hx => ?_
    obtain ⟨p, hp, rfl⟩ := List.mem_map.mp hx
    have hge := assess_one_ge (d := p.document)
      (hn.twoB twoB hmem (p.document.documentId.getD "")) h
    have htax := hn.tax p hp h
    have hblocked := hn.ineligible p hp h
    have heligible : p.document.tax h = p.tax h - p.ineligible h := rfl
    dsimp only [Function.comp]
    omega

/-- There is never less than no credit to divide over the rows of Table 4(A). -/
theorem NonnegCredit.avail_nonneg (hn : NonnegCredit inputs) (h : Head) :
    0 ≤ (tablesOf inputs).itcAvail h := by
  have hcapped := hn.capped_ge h
  have himport := import_credit_blocked hn h
  have havail : (tablesOf inputs).itcAvail h = (tablesOf inputs).itc h +
      (blockedOn inputs.purchases h + Tax.of (inputs.importsOfGoods.map
        (·.ineligibleIgstPaise)).sum 0 0 (inputs.importsOfGoods.map
        (·.ineligibleCessPaise)).sum h) := rfl
  rw [havail, itc_with]
  split_ifs with happlied
  · have hallowed := hn.allowed_ge happlied h
    rcases min_choice (cappedCredit inputs h + selfAssessed inputs h)
      ((assessment inputs).allowed h + importCredit inputs h) with hmin | hmin <;>
      rw [hmin] <;> omega
  · omega

/-- Whatever documents there are and whichever cap applies, the rows of Table 4(A) come to the
credit available, from which 4(C) is taken; no row is negative but the import of goods, and that
only where the bills of entry block more than was assessed on them. -/
theorem table_4a_exhaustive (inputs : Gstr3bInputs) :
    (∀ h, ((computeGstr3b inputs).itcAvlRows.map fun row => row.2 h).sum =
      (computeGstr3b inputs).itcAvail h) ∧
    (∀ h, (computeGstr3b inputs).itcNet h = max
      (((computeGstr3b inputs).itcAvlRows.map fun row => row.2 h).sum -
        (computeGstr3b inputs).itcRevTotal h) 0) ∧
    (NonnegCredit inputs → ∀ row ∈ (computeGstr3b inputs).itcAvlRows, ∀ h,
      row.2 h < 0 ↔ row.1 = "IMPG" ∧ importCredit inputs h < 0) := by
  have hsum : ∀ h, ((computeGstr3b inputs).itcAvlRows.map fun row => row.2 h).sum =
      (computeGstr3b inputs).itcAvail h := itc_avl_rows_sum (tablesOf inputs)
  refine ⟨hsum, fun h => by rw [hsum]; rfl, fun hn => ?_⟩
  refine itc_avl_rows_nonneg (tablesOf inputs) (fun h => ?_) (fun h => ?_) hn.avail_nonneg
    ⟨rfl, rfl⟩
  · exact hn.tax_sum h fun p hp => (List.mem_filter.mp (List.mem_filter.mp hp).1).1
  · change (((inputs.purchases.filter (·.isReverseCharge)).filter (·.isImportOfServices)).map
      (·.tax)).sum h ≤ ((inputs.purchases.filter (·.isReverseCharge)).map (·.tax)).sum h
    rw [sum_at, sum_at]
    refine (List.filter_sublist.map _).sum_le_sum fun x hx => ?_
    obtain ⟨p, hp, rfl⟩ := List.mem_map.mp hx
    exact hn.tax p (List.mem_filter.mp hp).1 h

end

/-- A return of one purchase of a rupee of which sixty paise are reversed. -/
def reversedReturn : Gstr3bInputs where
  sales := []
  purchases := [{ tax := Tax.of 100 0 0 0, isReverseCharge := false }]
  gstr2aRecords := []
  reversals := [{ tax := Tax.of 60 0 0 0 }]

/-- A return of one bill of entry that blocks a rupee of integrated tax and was assessed none. -/
def blockedImport : Gstr3bInputs where
  sales := []
  purchases := []
  gstr2aRecords := []
  importsOfGoods := [{ ineligibleIgstPaise := 100 }]

/-- The rows come to the credit availed and not to what is left of it for the set-off, and a
bill of entry that blocks more than its tax makes its row negative. -/
theorem rows_and_set_off :
    ((computeGstr3b reversedReturn).itcAvlRows.map fun row => row.2 .igst).sum = 100 ∧
      (computeGstr3b reversedReturn).closing .igst = 40 ∧
      (computeGstr3b blockedImport).itcAvlRows.map (fun row => (row.1, row.2 .igst)) =
        [("IMPG", -100), ("IMPS", 0), ("ISRC", 0), ("ISD", 0), ("OTH", 100)] := by
  decide +kernel

theorem reversed_return_exhaustive : ∀ row ∈ (computeGstr3b reversedReturn).itcAvlRows, ∀ h,
    row.2 h < 0 ↔ row.1 = "IMPG" ∧ importCredit reversedReturn h < 0 := by
  refine (table_4a_exhaustive reversedReturn).2.2 ⟨?_, ?_, ?_, ?_, ?_, ?_⟩
  · simp only [reversedReturn, List.mem_singleton, forall_eq]
    decide
  · simp only [reversedReturn, List.mem_singleton, forall_eq]
    decide
  · simp [reversedReturn]
  · simp [reversedReturn]
  · decide
  · simp [reversedReturn]

end Caflow.Gst
