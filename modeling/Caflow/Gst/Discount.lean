import Caflow.Failure
import Caflow.Lib.LargestRemainder

namespace Caflow.Gst
open LargestRemainder

/-- What `apply_to_lines` reads of one line of an invoice. -/
structure DiscountLine where
  grossPaise : ℤ
  discountPercentBps : Option ℤ
  discountPaise : Option ℤ

/-- A line with every discount on it resolved. -/
structure DiscountedLine where
  discountPaise : ℤ
  discountPercentBps : Option ℤ
  taxablePaise : ℤ

/-- A line after its own discount, before its share of the document's. -/
structure ResolvedLine where
  grossPaise : ℤ
  lineDiscountPaise : ℤ
  discountPercentBps : Option ℤ
  netPaise : ℤ

/-- The whole units of each share and the numerators of what is left over, then a unit more
for the largest of these while units are missing. -/
def shareOut (totalPaise : ℤ) (weights : List ℤ) : List ℤ :=
  let base := weights.sum
  let out := weights.map fun w => totalPaise * w / base
  let remainder := weights.zipIdx.map fun p =>
    (totalPaise * p.1 - totalPaise * p.1 / base * base, p.2)
  let residue := totalPaise - out.sum
  let order := remainder.insertionSort fun a b => b.1 < a.1 ∨ (a.1 = b.1 ∧ a.2 ≤ b.2)
  bump out ((order.take residue.toNat).map Prod.snd)

section
variable (rupeeText : ℤ → String)

/-- The discount on one line. A percentage wins over an amount beside it. -/
def discountFor (grossPaise : ℤ) (percentBps amountPaise : Option ℤ) : Except Failure ℤ :=
  let checked (out : ℤ) : Except Failure ℤ :=
    if out < 0 then .error (.valueError "a discount cannot be negative")
    else if grossPaise < out then
      .error (.valueError ("discount of " ++ rupeeText out ++ " exceeds the line value of " ++
        rupeeText grossPaise ++ " — the value of a supply cannot be negative"))
    else .ok out
  if grossPaise < 0 then .error (.valueError "gross_paise must be non-negative")
  else
    match percentBps, amountPaise with
    | some bps, _ =>
      if bps < 0 ∨ 10000 < bps then
        .error (.valueError "discount_percent_bps must be between 0 and 10000 (0% to 100%)")
      else checked (grossPaise * bps / 10000)
    | none, some amount => checked amount
    | none, none => .ok 0

/-- A document's discount split over its lines in proportion to what each is worth. -/
def allocate (totalPaise : ℤ) (weights : List ℤ) : Except Failure (List ℤ) :=
  let base := weights.sum
  if totalPaise < 0 then .error (.valueError "a discount cannot be negative")
  else if weights = [] ∨ totalPaise = 0 then .ok (weights.map fun _ => 0)
  else if base ≤ 0 then .ok (weights.map fun _ => 0)
  else if base < totalPaise then
    .error (.valueError ("document discount of " ++ rupeeText totalPaise ++
      " exceeds the invoice value of " ++ rupeeText base ++
      " — the value of a supply cannot be negative"))
  else .ok (shareOut totalPaise weights)

def resolveLine (ln : DiscountLine) : Except Failure ResolvedLine := do
  let d ← discountFor rupeeText ln.grossPaise ln.discountPercentBps ln.discountPaise
  .ok ⟨ln.grossPaise, d, ln.discountPercentBps, ln.grossPaise - d⟩

/-- A line's own discount and its share of the document's. -/
def withShare (r : ResolvedLine) (share : ℤ) : DiscountedLine :=
  ⟨r.lineDiscountPaise + share, r.discountPercentBps, r.netPaise - share⟩

/-- Every discount of one invoice: the lines' own first, then the document's over what these
leave. -/
def applyToLines (lines : List DiscountLine) (documentPercentBps documentAmountPaise : Option ℤ) :
    Except Failure (List DiscountedLine) := do
  let resolved ← lines.mapM (resolveLine rupeeText)
  let nets := resolved.map ResolvedLine.netPaise
  let docTotal ← discountFor rupeeText nets.sum documentPercentBps documentAmountPaise
  let shares ← allocate rupeeText docTotal nets
  .ok (List.zipWith withShare resolved shares)

end

theorem share_floor (totalPaise w : ℤ) {base : ℤ} (hb : 0 < base) (ht : 0 ≤ totalPaise)
    (hw : 0 ≤ w) :
    Rounding.truncate ((totalPaise : ℚ) * w / base) = totalPaise * w / base := by
  have hb' : (0 : ℚ) < base := by exact_mod_cast hb
  have ht' : (0 : ℚ) ≤ totalPaise := by exact_mod_cast ht
  have hw' : (0 : ℚ) ≤ w := by exact_mod_cast hw
  rw [Rounding.truncate_of_nonneg (by positivity)]
  obtain ⟨n, rfl⟩ := Int.eq_ofNat_of_zero_le hb.le
  exact_mod_cast Rat.floor_intCast_div_natCast (totalPaise * w) n

/-- Comparing the numerators of what is left over orders the lines as comparing the fractions
does. -/
theorem share_out_eq {weights : List ℤ} (ht : 0 ≤ totalPaise) (hw : ∀ w ∈ weights, 0 ≤ w)
    (hb : 0 < weights.sum) :
    shareOut totalPaise weights =
      apportion totalPaise (exactShares totalPaise (weights.map Int.cast)) := by
  have hbase : (weights.map (Int.cast : ℤ → ℚ)).sum = (weights.sum : ℤ) :=
    (Int.cast_list_sum weights).symm
  have hb' : (0 : ℚ) < (weights.sum : ℤ) := by exact_mod_cast hb
  have hexact : exactShares totalPaise (weights.map Int.cast) =
      weights.map fun w : ℤ => (totalPaise : ℚ) * w / (weights.sum : ℤ) := by
    simp only [exactShares, hbase, List.map_map, Function.comp_def]
  have hfloor : (exactShares totalPaise (weights.map Int.cast)).map Rounding.truncate =
      weights.map fun w => totalPaise * w / weights.sum := by
    rw [hexact, List.map_map]
    exact List.map_congr_left fun w hm => share_floor totalPaise w hb ht (hw w hm)
  have hrem : remainders (exactShares totalPaise (weights.map Int.cast)) =
      (weights.zipIdx.map fun p =>
        (totalPaise * p.1 - totalPaise * p.1 / weights.sum * weights.sum, p.2)).map
        fun p => ((p.1 : ℚ) / (weights.sum : ℤ), p.2) := by
    rw [remainders, hexact, List.zipIdx_map, List.map_map, List.map_map]
    refine List.map_congr_left fun p hp => ?_
    have hm := hw p.1 (List.fst_mem_of_mem_zipIdx hp)
    simp only [Function.comp, Prod.map, id, share_floor totalPaise p.1 hb ht hm, Prod.mk.injEq,
      and_true]
    rw [Int.cast_sub, Int.cast_mul, Int.cast_mul, sub_div, mul_div_cancel_right₀ _ hb'.ne']
  unfold shareOut apportion
  dsimp only
  rw [hfloor, hrem, ← List.map_insertionSort (fun a b : ℤ × ℕ =>
    b.1 < a.1 ∨ (a.1 = b.1 ∧ a.2 ≤ b.2)) before, ← List.map_take, List.map_map]
  · rfl
  · intro a _ b _
    simp only [before, div_lt_div_iff_of_pos_right hb', div_left_inj' hb'.ne', Int.cast_lt,
      Int.cast_inj]

/-- A discount that is not over the invoice's value is split fairly, and no line is given more
than it is worth. -/
theorem allocate_fair (rupeeText : ℤ → String) (ht : 0 ≤ totalPaise)
    (hw : ∀ w ∈ weights, 0 ≤ w) (hb : 0 < weights.sum) (hle : totalPaise ≤ weights.sum) :
    ∃ parts, allocate rupeeText totalPaise weights = .ok parts ∧
      FairShares totalPaise (weights.map Int.cast) parts ∧
      List.Forall₂ (· ≤ ·) parts weights := by
  have hne : weights ≠ [] := by
    rintro rfl
    simp at hb
  have hsum : (weights.map (Int.cast : ℤ → ℚ)).sum = (weights.sum : ℤ) :=
    (Int.cast_list_sum weights).symm
  have hw' : ∀ w ∈ weights.map (Int.cast : ℤ → ℚ), 0 ≤ w := by
    intro w hm
    obtain ⟨n, hn, rfl⟩ := List.mem_map.mp hm
    exact_mod_cast hw n hn
  have hpos : (weights.map (Int.cast : ℤ → ℚ)).sum ≠ 0 := by
    rw [hsum]
    exact_mod_cast hb.ne'
  have hfair := apportion_fair ht hw' hpos
  rw [← share_out_eq ht hw hb] at hfair
  refine ⟨shareOut totalPaise weights, ?_, hfair, hfair.le_weight hw hb hle⟩
  rcases ht.eq_or_lt with rfl | ht
  · have hzero : shareOut 0 weights = weights.map fun _ => 0 := by
      refine List.ext_getElem (by simp [shareOut, bump_length]) fun i hi hi' => ?_
      have := hfair.nonneg _ (List.getElem_mem hi)
      have hall := List.single_le_sum hfair.nonneg _ (List.getElem_mem hi)
      rw [hfair.sum] at hall
      simpa using le_antisymm hall this
    simp [allocate, hzero]
  · simp [allocate, ht.not_gt, hne, ht.ne', hb.not_ge, hle.not_gt]

/-- What a line is allowed is never negative, nor over the line. -/
theorem discount_within (rupeeText : ℤ → String)
    (h : discountFor rupeeText grossPaise percentBps amountPaise = .ok d) :
    0 ≤ d ∧ d ≤ grossPaise := by
  unfold discountFor at h
  dsimp only at h
  split_ifs at h with hg
  rcases percentBps with _ | bps
  · rcases amountPaise with _ | amount
    · cases h
      exact ⟨le_rfl, not_lt.mp hg⟩
    · dsimp only at h
      split_ifs at h with hneg hover
      cases h
      exact ⟨not_lt.mp hneg, not_lt.mp hover⟩
  · dsimp only at h
    split_ifs at h with hbps hneg hover
    cases h
    exact ⟨not_lt.mp hneg, not_lt.mp hover⟩

/-- What `allocate` hands out, whenever it hands out: no line gets less than nothing or more
than it is worth. -/
theorem allocate_within (rupeeText : ℤ → String) (hw : ∀ w ∈ weights, 0 ≤ w)
    (h : allocate rupeeText totalPaise weights = .ok parts) :
    List.Forall₂ (fun s w => 0 ≤ s ∧ s ≤ w) parts weights := by
  have hnothing : List.Forall₂ (fun s w => 0 ≤ s ∧ s ≤ w) (weights.map fun _ => (0 : ℤ))
      weights := by
    rw [List.forall₂_map_left_iff, List.forall₂_same]
    exact fun w hm => ⟨le_rfl, hw w hm⟩
  by_cases hfree : 0 ≤ totalPaise ∧ 0 < weights.sum ∧ totalPaise ≤ weights.sum
  · obtain ⟨ht, hb, hle⟩ := hfree
    obtain ⟨parts', hok, hfair, hwithin⟩ := allocate_fair rupeeText ht hw hb hle
    cases Except.ok.inj (h.symm.trans hok)
    exact (List.forall₂_and_left parts weights).mpr ⟨hfair.nonneg, hwithin⟩
  · unfold allocate at h
    dsimp only at h
    split_ifs at h with hneg hnone hbase hover
    · cases h
      exact hnothing
    · cases h
      exact hnothing
    · exact absurd ⟨not_lt.mp hneg, not_le.mp hbase, not_lt.mp hover⟩ hfree

theorem mapM_ok_iff {f : α → Except ε β} {l : List α} {bs : List β} :
    l.mapM f = .ok bs ↔ List.Forall₂ (fun a b => f a = .ok b) l bs := by
  induction l generalizing bs with
  | nil => simp [pure, Except.pure, eq_comm]
  | cons a l ih =>
    rw [List.mapM_cons, List.forall₂_cons_left_iff]
    cases ha : f a with
    | error e => simp [bind, Except.bind]
    | ok b =>
      cases hl : l.mapM f with
      | error e =>
        have hnone : ∀ bs, ¬ List.Forall₂ (fun a b => f a = .ok b) l bs := by
          intro bs hbs
          rw [← ih, hl] at hbs
          cases hbs
        simp [bind, Except.bind, hnone]
      | ok bs' =>
        simp only [bind, Except.bind, pure, Except.pure, Except.ok.injEq]
        constructor
        · rintro rfl
          exact ⟨b, bs', rfl, ih.mp hl, rfl⟩
        · rintro ⟨c, cs, rfl, hcs, rfl⟩
          rw [← ih, hl] at hcs
          cases hcs
          rfl

/-- What is split is handed out whole. -/
theorem allocate_sum (rupeeText : ℤ → String) (hw : ∀ w ∈ weights, 0 ≤ w)
    (hle : totalPaise ≤ weights.sum) (h : allocate rupeeText totalPaise weights = .ok parts) :
    parts.sum = totalPaise := by
  have ht : 0 ≤ totalPaise := by
    by_contra hneg
    simp [allocate, not_le.mp hneg] at h
  rcases (List.sum_nonneg hw).eq_or_lt with hzero | hb
  · have : totalPaise = 0 := by omega
    subst this
    simp only [allocate, lt_irrefl, or_true, if_true, if_false, Except.ok.injEq] at h
    subst h
    simp
  · obtain ⟨parts', hok, hfair, -⟩ := allocate_fair rupeeText ht hw hb hle
    cases Except.ok.inj (h.symm.trans hok)
    exact hfair.sum

theorem resolve_line_within (rupeeText : ℤ → String) (h : resolveLine rupeeText ln = .ok r) :
    r.discountPercentBps = ln.discountPercentBps ∧ r.netPaise = ln.grossPaise - r.lineDiscountPaise ∧
      0 ≤ r.lineDiscountPaise ∧ 0 ≤ r.netPaise := by
  unfold resolveLine at h
  cases hd : discountFor rupeeText ln.grossPaise ln.discountPercentBps ln.discountPaise with
  | error e => simp [hd, bind, Except.bind] at h
  | ok d =>
    simp only [hd, bind, Except.bind, Except.ok.injEq] at h
    obtain ⟨hlow, hhigh⟩ := discount_within rupeeText hd
    subst h
    exact ⟨rfl, rfl, hlow, by dsimp only; omega⟩

theorem nets_nonneg (rupeeText : ℤ → String)
    (h : List.Forall₂ (fun ln r => resolveLine rupeeText ln = .ok r) lines resolved) :
    ∀ w ∈ resolved.map ResolvedLine.netPaise, 0 ≤ w := by
  induction h with
  | nil => simp
  | cons hln _ ih =>
    intro w hw
    rcases List.mem_cons.mp hw with rfl | hw
    · exact (resolve_line_within rupeeText hln).2.2.2
    · exact ih w hw

/-- The parts `apply_to_lines` is put together from, when it answers. -/
theorem apply_to_lines_ok_iff (rupeeText : ℤ → String) :
    applyToLines rupeeText lines bps amount = .ok out ↔ ∃ resolved total shares,
      List.Forall₂ (fun ln r => resolveLine rupeeText ln = .ok r) lines resolved ∧
      discountFor rupeeText (resolved.map ResolvedLine.netPaise).sum bps amount = .ok total ∧
      allocate rupeeText total (resolved.map ResolvedLine.netPaise) = .ok shares ∧
      out = List.zipWith withShare resolved shares := by
  unfold applyToLines
  constructor
  · intro h
    cases hresolved : lines.mapM (resolveLine rupeeText) with
    | error e => simp [hresolved, bind, Except.bind] at h
    | ok resolved =>
      simp only [hresolved, bind, Except.bind] at h
      cases htotal : discountFor rupeeText (resolved.map ResolvedLine.netPaise).sum bps amount with
      | error e => simp [htotal] at h
      | ok total =>
        simp only [htotal] at h
        cases hshares : allocate rupeeText total (resolved.map ResolvedLine.netPaise) with
        | error e => simp [hshares] at h
        | ok shares =>
          simp only [hshares, Except.ok.injEq] at h
          exact ⟨resolved, total, shares, mapM_ok_iff.mp hresolved, htotal, hshares, h.symm⟩
  · rintro ⟨resolved, total, shares, hresolved, htotal, hshares, rfl⟩
    simp [mapM_ok_iff.mpr hresolved, htotal, hshares, bind, Except.bind]

/-- No line of an invoice is discounted below nothing, and what is taxed is what the discount
leaves of it. -/
theorem apply_to_lines_within (rupeeText : ℤ → String)
    (h : applyToLines rupeeText lines bps amount = .ok out) :
    List.Forall₂ (fun ln d => 0 ≤ d.discountPaise ∧ 0 ≤ d.taxablePaise ∧
      d.taxablePaise = ln.grossPaise - d.discountPaise) lines out := by
  obtain ⟨resolved, total, shares, hresolved, -, hshares, rfl⟩ := (apply_to_lines_ok_iff rupeeText).mp h
  have hnets := nets_nonneg rupeeText hresolved
  have hwithin := List.forall₂_map_right_iff.mp (allocate_within rupeeText hnets hshares)
  clear hshares hnets h
  induction hresolved generalizing shares with
  | nil => simp
  | @cons ln r lines resolved hln _ ih =>
    cases hwithin with
    | @cons s _ shares _ hs hrest =>
      obtain ⟨-, hnet, hlow, -⟩ := resolve_line_within rupeeText hln
      refine .cons ⟨?_, ?_, ?_⟩ (ih shares hrest)
      all_goals simp only [withShare]
      all_goals omega

end Caflow.Gst
