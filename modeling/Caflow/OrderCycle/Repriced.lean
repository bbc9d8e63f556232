import Caflow.OrderCycle.Pricing

set_option linter.all false

namespace Caflow.OrderCycle
open Gst

variable {rupeeText : ℤ → String} {isInterState : Bool} {lines : List CycleLine}

/-- What a priced line keeps of its discounts. -/
def PricedLine.discounted (p : PricedLine) : DiscountedLine :=
  ⟨p.discountPaise, p.discountPercentBps, p.taxableAmountPaise⟩

/-- What a stored line leaves for a discount on the document when it is priced again: a
percentage is taken off it afresh, and any other discount is taken as it stands. -/
def PricedLine.left (p : PricedLine) : ℤ :=
  match p.discountPercentBps with
  | some bps => p.asSent.grossPaise - p.asSent.grossPaise * bps / 10000
  | none => p.taxableAmountPaise

/-- The part of the document's discount that a stored line still takes as such. -/
def PricedLine.part (p : PricedLine) : ℤ := p.left - p.taxableAmountPaise

/-- No line without a percentage is stored with more discount than it came with. -/
def NoneCarried (lines : List CycleLine) (priced : List PricedLine) : Prop :=
  ∀ p ∈ lines.zip priced, p.1.discountPercentBps = none →
    p.2.discountPaise = p.1.discountPaise.getD 0

/-- A percentage taken again on what the stored lines leave splits into the parts they take. -/
def SplitsAgain (rupeeText : ℤ → String) (documentPercentBps : Option ℤ)
    (priced : List PricedLine) : Prop :=
  ∃ bps, documentPercentBps = some bps ∧
    allocate rupeeText ((priced.map PricedLine.left).sum * bps / 10000)
      (priced.map PricedLine.left) = .ok (priced.map PricedLine.part)

/-- A line through one pricing: as it came, after its own discount, with its share of the
document's, and as it is stored. -/
structure Row where
  line : CycleLine
  resolved : ResolvedLine
  share : ℤ
  priced : PricedLine

structure Row.Sound (rupeeText : ℤ → String) (isInterState : Bool) (row : Row) : Prop where
  resolves : resolveLine rupeeText row.line.forDiscount = .ok row.resolved
  share_nonneg : 0 ≤ row.share
  share_le : row.share ≤ row.resolved.netPaise
  prices : ∃ i, priceLine isInterState i row.line (withShare row.resolved row.share) =
    .ok row.priced

theorem price_line_ok (h : priceLine isInterState i ln d = .ok p) :
    p.discounted = d ∧ p.asSent.grossPaise = ln.grossPaise ∧
      priceLine isInterState i p.asSent d = .ok p := by
  unfold priceLine at h
  cases hcess : lineCess d.taxablePaise (ln.quantity.getD 1) (ln.cessRateBps.getD 0)
      (ln.cessSpecificPaisePerUnit.getD 0) with
  | error e => simp [hcess, bind, Except.bind] at h
  | ok cess =>
    simp only [hcess, bind, Except.bind, Except.ok.injEq] at h
    subst h
    refine ⟨rfl, rfl, ?_⟩
    have hunit : orElse (some (orElse ln.unit "NOS")) "NOS" = orElse ln.unit "NOS" := by
      unfold orElse
      rcases ln.unit with _ | unit
      · rfl
      · by_cases hempty : unit = "" <;> simp [Option.filter, hempty]
    simp only [priceLine, PricedLine.asSent, Option.getD_some, hcess, bind, Except.bind,
      Text.strip_strip, hunit]

theorem resolve_line_ok (h : resolveLine rupeeText ln = .ok r) :
    discountFor rupeeText ln.grossPaise ln.discountPercentBps ln.discountPaise =
      .ok r.lineDiscountPaise ∧ r.grossPaise = ln.grossPaise ∧
      r.discountPercentBps = ln.discountPercentBps ∧
      r.netPaise = ln.grossPaise - r.lineDiscountPaise := by
  unfold resolveLine at h
  cases hd : discountFor rupeeText ln.grossPaise ln.discountPercentBps ln.discountPaise with
  | error e => simp [hd, bind, Except.bind] at h
  | ok d =>
    simp only [hd, bind, Except.bind, Except.ok.injEq] at h
    subst h
    exact ⟨rfl, rfl, rfl, rfl⟩

/-- A percentage is taken of the line whatever amount is beside it. -/
theorem discount_for_percent (h : discountFor rupeeText gross (some bps) amount = .ok d) :
    d = gross * bps / 10000 ∧
      ∀ amount, discountFor rupeeText gross (some bps) amount = .ok d := by
  refine ⟨?_, fun amount' => by rw [← h]; cases amount <;> cases amount' <;> rfl⟩
  unfold discountFor at h
  dsimp only at h
  split_ifs at h
  cases h
  rfl

theorem discount_for_amount (h : discountFor rupeeText gross none amount = .ok d) :
    d = amount.getD 0 ∧ 0 ≤ gross := by
  have hwithin := discount_within rupeeText h
  refine ⟨?_, by omega⟩
  unfold discountFor at h
  dsimp only at h
  split_ifs at h with hgross
  rcases amount with _ | amount
  · cases h
    rfl
  · dsimp only at h
    split_ifs at h with hneg hover
    cases h
    rfl

/-- A percentage that is taken of one value is taken of any. -/
theorem percent_of_any (h : discountFor rupeeText gross (some bps) amount = .ok d)
    (hany : 0 ≤ any) : discountFor rupeeText any (some bps) amount = .ok (any * bps / 10000) := by
  have hbps : ¬ (bps < 0 ∨ 10000 < bps) := by
    intro hout
    unfold discountFor at h
    simp only [hout, if_true] at h
    split_ifs at h
  have hb : 0 ≤ bps ∧ bps ≤ 10000 := by omega
  have hlow : 0 ≤ any * bps / 10000 := Int.ediv_nonneg (mul_nonneg hany hb.1) (by norm_num)
  have hhigh : any * bps / 10000 ≤ any := by
    have := mul_le_mul_of_nonneg_left hb.2 hany
    omega
  simp only [discountFor, hany.not_gt, hbps, hlow.not_gt, hhigh.not_gt, if_false]

/-- Any amount within the line can be its discount. -/
theorem discount_for_within (hd : 0 ≤ d) (hle : d ≤ gross) :
    discountFor rupeeText gross none (some d) = .ok d := by
  have hgross : ¬ gross < 0 := by omega
  simp [discountFor, hgross, hd.not_gt, hle.not_gt]

/-- The line as it is sent again, before the discounts are worked out. -/
def Row.again (row : Row) : DiscountLine := row.priced.asSent.forDiscount

def Row.out (row : Row) : DiscountedLine := withShare row.resolved row.share

/-- The line after its own discount when it is priced again. -/
def Row.resolvedAgain (row : Row) : ResolvedLine where
  grossPaise := row.line.grossPaise
  lineDiscountPaise := row.priced.discountPaise - row.priced.part
  discountPercentBps := row.line.discountPercentBps
  netPaise := row.priced.left

theorem Row.Sound.stored {row : Row} (h : row.Sound rupeeText isInterState) :
    row.priced.discounted = row.out ∧ row.priced.asSent.grossPaise = row.line.grossPaise := by
  obtain ⟨i, hi⟩ := h.prices
  obtain ⟨hd, hg, -⟩ := price_line_ok hi
  exact ⟨hd, hg⟩

theorem Row.Sound.fields {row : Row} (h : row.Sound rupeeText isInterState) :
    row.priced.discountPercentBps = row.line.discountPercentBps ∧
      row.priced.discountPaise = row.resolved.lineDiscountPaise + row.share ∧
      row.priced.taxableAmountPaise = row.resolved.netPaise - row.share ∧
      row.resolved.netPaise = row.line.grossPaise - row.resolved.lineDiscountPaise := by
  obtain ⟨hd, -⟩ := h.stored
  obtain ⟨-, -, hbps, hnet⟩ := resolve_line_ok h.resolves
  simp only [PricedLine.discounted, Row.out, withShare, DiscountedLine.mk.injEq] at hd
  exact ⟨hd.2.1.trans hbps, hd.1, hd.2.2, hnet⟩

/-- A percentage line leaves what it left before and keeps its part; any other line has taken
its part for a discount of its own. -/
theorem Row.Sound.left_part {row : Row} (h : row.Sound rupeeText isInterState) :
    (row.line.discountPercentBps.isSome →
      row.priced.left = row.resolved.netPaise ∧ row.priced.part = row.share) ∧
    (row.line.discountPercentBps = none →
      row.priced.left = row.resolved.netPaise - row.share ∧ row.priced.part = 0) := by
  obtain ⟨hbps, hdisc, htax, hnet⟩ := h.fields
  obtain ⟨-, hgross⟩ := h.stored
  obtain ⟨hd, -, -, -⟩ := resolve_line_ok h.resolves
  constructor
  · intro hsome
    obtain ⟨bps, hline⟩ := Option.isSome_iff_exists.mp hsome
    have hpercent : row.resolved.lineDiscountPaise = row.line.grossPaise * bps / 10000 := by
      have hd' := hd
      simp only [CycleLine.forDiscount, hline] at hd'
      exact (discount_for_percent hd').1
    have hleft : row.priced.left = row.resolved.netPaise := by
      simp only [PricedLine.left, hbps, hline, hgross, hnet, hpercent]
    exact ⟨hleft, by rw [PricedLine.part, hleft, htax]; omega⟩
  · intro hnone
    have hleft : row.priced.left = row.priced.taxableAmountPaise := by
      simp only [PricedLine.left, hbps, hnone]
    exact ⟨hleft.trans htax, by rw [PricedLine.part, hleft]; omega⟩

theorem Row.Sound.part_le {row : Row} (h : row.Sound rupeeText isInterState) :
    0 ≤ row.priced.left ∧ 0 ≤ row.priced.part ∧ row.priced.part ≤ row.share := by
  have hlow := h.share_nonneg
  have hhigh := h.share_le
  cases hline : row.line.discountPercentBps with
  | none =>
    obtain ⟨hleft, hpart⟩ := h.left_part.2 hline
    omega
  | some bps =>
    obtain ⟨hleft, hpart⟩ := h.left_part.1 (by simp [hline])
    omega

/-- What the line itself takes off when it is priced again. -/
theorem Row.Sound.resolves_again {row : Row} (h : row.Sound rupeeText isInterState) :
    resolveLine rupeeText row.again = .ok row.resolvedAgain := by
  obtain ⟨hbps, hdisc, htax, hnet⟩ := h.fields
  obtain ⟨-, hgross⟩ := h.stored
  obtain ⟨hd, -, -, -⟩ := resolve_line_ok h.resolves
  have hagain : row.again =
      ⟨row.line.grossPaise, row.line.discountPercentBps, some row.priced.discountPaise⟩ := by
    simp only [Row.again, CycleLine.forDiscount, hgross]
    simp only [PricedLine.asSent, hbps]
  have hleft : row.line.grossPaise - (row.priced.discountPaise - row.priced.part) =
      row.priced.left := by
    simp only [PricedLine.part]
    omega
  have htaken : discountFor rupeeText row.line.grossPaise row.line.discountPercentBps
      (some row.priced.discountPaise) = .ok (row.priced.discountPaise - row.priced.part) := by
    simp only [CycleLine.forDiscount] at hd
    cases hline : row.line.discountPercentBps with
    | none =>
      rw [(h.left_part.2 hline).2, Int.sub_zero]
      have hwithin := discount_within rupeeText hd
      have hlow := h.share_nonneg
      have hhigh := h.share_le
      exact discount_for_within (by omega) (by omega)
    | some bps =>
      rw [hline] at hd
      rw [(h.left_part.1 (by simp [hline])).2, hdisc, Int.add_sub_cancel]
      exact (discount_for_percent hd).2 _
  simp only [hagain, resolveLine, htaken, bind, Except.bind, hleft, Row.resolvedAgain]

theorem price_from_cons (h : priceFrom isInterState i ((ln, d) :: ps) = .ok priced) :
    ∃ p rest, priced = p :: rest ∧ priceLine isInterState i ln d = .ok p ∧
      priceFrom isInterState (i + 1) ps = .ok rest := by
  unfold priceFrom at h
  cases hline : priceLine isInterState i ln d with
  | error e => simp [hline, bind, Except.bind] at h
  | ok p =>
    cases hrest : priceFrom isInterState (i + 1) ps with
    | error e => simp [hline, hrest, bind, Except.bind] at h
    | ok rest =>
      simp only [hline, hrest, bind, Except.bind, Except.ok.injEq] at h
      exact ⟨p, rest, h.symm, rfl, rfl⟩

/-- Lines that were priced come out as they are stored when they are sent again with the same
discounts on them. -/
theorem price_from_again (hlen : lines.length = ds.length)
    (h : priceFrom isInterState i (lines.zip ds) = .ok priced) :
    priceFrom isInterState i ((priced.map PricedLine.asSent).zip ds) = .ok priced := by
  induction lines generalizing ds i priced with
  | nil =>
    cases h
    rfl
  | cons ln lines ih =>
    cases ds with
    | nil => simp at hlen
    | cons d ds =>
      obtain ⟨p, rest, rfl, hline, hrest⟩ := price_from_cons h
      have htail := ih (by simpa using hlen) hrest
      simp [priceFrom, (price_line_ok hline).2.2, htail, bind, Except.bind]

theorem price_from_discounted (hlen : lines.length = ds.length)
    (h : priceFrom isInterState i (lines.zip ds) = .ok priced) :
    priced.map PricedLine.discounted = ds := by
  induction lines generalizing ds i priced with
  | nil =>
    cases h
    exact (List.length_eq_zero_iff.mp hlen.symm).symm
  | cons ln lines ih =>
    cases ds with
    | nil => simp at hlen
    | cons d ds =>
      obtain ⟨p, rest, rfl, hline, hrest⟩ := price_from_cons h
      simp [(price_line_ok hline).1, ih (by simpa using hlen) hrest]

theorem rows_of_priced
    (hresolved : List.Forall₂ (fun ln r => resolveLine rupeeText ln.forDiscount = .ok r)
      lines resolved)
    (hshares : List.Forall₂ (fun s r => 0 ≤ s ∧ s ≤ r.netPaise) shares resolved)
    (h : priceFrom isInterState i (lines.zip (List.zipWith withShare resolved shares)) =
      .ok priced) :
    ∃ rows : List Row, rows.map Row.line = lines ∧ rows.map Row.resolved = resolved ∧
      rows.map Row.share = shares ∧ rows.map Row.priced = priced ∧
      ∀ row ∈ rows, row.Sound rupeeText isInterState := by
  induction hresolved generalizing shares i priced with
  | nil =>
    cases hshares
    cases h
    exact ⟨[], rfl, rfl, rfl, rfl, by simp⟩
  | @cons ln r lines resolved hln _ ih =>
    cases hshares with
    | @cons s _ shares _ hs hrest =>
      obtain ⟨p, rest, rfl, hline, hpriced⟩ := price_from_cons h
      obtain ⟨rows, rfl, rfl, rfl, rfl, hsound⟩ := ih hrest hpriced
      refine ⟨⟨ln, r, s, p⟩ :: rows, rfl, rfl, rfl, rfl, ?_⟩
      exact List.forall_mem_cons.mpr ⟨⟨hln, hs.1, hs.2, i, hline⟩, hsound⟩

theorem compute_lines_ok_iff (hne : lines ≠ []) :
    computeLines rupeeText lines isInterState bps amount = .ok (priced, totals) ↔
      totals = totalsOf priced ∧ ∃ ds,
        applyToLines rupeeText (lines.map CycleLine.forDiscount) bps amount = .ok ds ∧
        priceFrom isInterState 0 (lines.zip ds) = .ok priced := by
  have hempty : lines.isEmpty = false := by simpa using hne
  unfold computeLines
  simp only [hempty, Bool.false_eq_true, if_false]
  cases hds : applyToLines rupeeText (lines.map CycleLine.forDiscount) bps amount with
  | error e => simp [Except.mapError, bind, Except.bind]
  | ok ds =>
    cases hpriced : priceFrom isInterState 0 (lines.zip ds) with
    | error e => simp [Except.mapError, bind, Except.bind, hpriced]
    | ok priced' =>
      simp only [Except.mapError, bind, Except.bind, hpriced, Except.ok.injEq, Prod.mk.injEq]
      constructor
      · rintro ⟨rfl, rfl⟩
        exact ⟨rfl, ds, rfl, hpriced⟩
      · rintro ⟨rfl, _, rfl, hsame⟩
        rw [hpriced] at hsame
        cases hsame
        exact ⟨rfl, rfl⟩

theorem Row.Sound.out_again {row : Row} (h : row.Sound rupeeText isInterState) (s : ℤ) :
    withShare row.resolvedAgain s = row.out ↔ s = row.priced.part := by
  obtain ⟨hbps, hdisc, htax, hnet⟩ := h.fields
  obtain ⟨hd, -, hrbps, -⟩ := resolve_line_ok h.resolves
  have hrbps' : row.resolved.discountPercentBps = row.line.discountPercentBps := hrbps
  simp only [withShare, Row.resolvedAgain, Row.out, DiscountedLine.mk.injEq, hrbps', true_and]
  simp only [PricedLine.part]
  constructor
  · rintro ⟨hfirst, -⟩
    omega
  · intro hs
    constructor <;> omega

theorem outs_again {rows : List Row} (h : ∀ row ∈ rows, row.Sound rupeeText isInterState)
    (hlen : shares.length = rows.length) :
    List.zipWith withShare (rows.map Row.resolvedAgain) shares = rows.map Row.out ↔
      shares = rows.map (fun row => row.priced.part) := by
  induction rows generalizing shares with
  | nil => simpa using hlen
  | cons row rows ih =>
    cases shares with
    | nil => simp at hlen
    | cons s shares =>
      obtain ⟨hrow, hrest⟩ := List.forall_mem_cons.mp h
      simp only [List.map_cons, List.zipWith_cons_cons, List.cons.injEq, hrow.out_again,
        ih hrest (by simpa using hlen)]

/-- The discounts come out again as they were where the document's splits over what the stored
lines leave into the parts they take. -/
theorem discounts_again {rows : List Row} (h : ∀ row ∈ rows, row.Sound rupeeText isInterState) :
    applyToLines rupeeText (rows.map Row.again) bps amount = .ok (rows.map Row.out) ↔
      ∃ total, discountFor rupeeText (rows.map fun row => row.priced.left).sum bps amount =
          .ok total ∧
        allocate rupeeText total (rows.map fun row => row.priced.left) =
          .ok (rows.map fun row => row.priced.part) := by
  have hresolves : List.Forall₂ (fun ln r => resolveLine rupeeText ln = .ok r)
      (rows.map Row.again) (rows.map Row.resolvedAgain) := by
    rw [List.forall₂_map_left_iff, List.forall₂_map_right_iff, List.forall₂_same]
    exact fun row hrow => (h row hrow).resolves_again
  have hnets : (rows.map Row.resolvedAgain).map ResolvedLine.netPaise =
      rows.map fun row => row.priced.left := by
    rw [List.map_map]
    rfl
  have hleft : ∀ w ∈ rows.map (fun row => row.priced.left), 0 ≤ w := by
    intro w hw
    obtain ⟨row, hrow, rfl⟩ := List.mem_map.mp hw
    exact (h row hrow).part_le.1
  rw [apply_to_lines_ok_iff]
  constructor
  · rintro ⟨resolved, total, shares, hresolved, htotal, hshares, hout⟩
    have hsame : resolved = rows.map Row.resolvedAgain :=
      Except.ok.inj ((mapM_ok_iff.mpr hresolved).symm.trans (mapM_ok_iff.mpr hresolves))
    subst hsame
    rw [hnets] at htotal hshares
    have hlen := (allocate_within rupeeText hleft hshares).length_eq
    rw [eq_comm, outs_again h (by simpa using hlen)] at hout
    exact ⟨total, htotal, hout ▸ hshares⟩
  · rintro ⟨total, htotal, hshares⟩
    refine ⟨_, total, _, hresolves, hnets ▸ htotal, hnets ▸ hshares, ?_⟩
    rw [eq_comm, outs_again h (by simp)]

/-- What one pricing of lines shows of the rows it is made of. -/
theorem rows_of_compute (hne : lines ≠ [])
    (h : computeLines rupeeText lines isInterState bps amount = .ok (priced, totals)) :
    ∃ (rows : List Row) (total : ℤ), rows.map Row.line = lines ∧ rows.map Row.priced = priced ∧
      (∀ row ∈ rows, row.Sound rupeeText isInterState) ∧
      discountFor rupeeText (rows.map fun row => row.resolved.netPaise).sum bps amount =
        .ok total ∧
      allocate rupeeText total (rows.map fun row => row.resolved.netPaise) =
        .ok (rows.map Row.share) := by
  obtain ⟨-, ds, hds, hpriced⟩ := (compute_lines_ok_iff hne).mp h
  obtain ⟨resolved, total, shares, hresolved, htotal, hshares, rfl⟩ :=
    (apply_to_lines_ok_iff rupeeText).mp hds
  have hwithin := allocate_within rupeeText (nets_nonneg rupeeText hresolved) hshares
  obtain ⟨rows, rfl, rfl, rfl, rfl, hsound⟩ := rows_of_priced
    (List.forall₂_map_left_iff.mp hresolved) (List.forall₂_map_right_iff.mp hwithin) hpriced
  rw [List.map_map] at htotal hshares
  exact ⟨rows, total, rfl, rfl, hsound, htotal, hshares⟩

/-- Pricing the stored lines again changes nothing where, and only where, the document's
discount splits again as they take it. -/
theorem again_iff {rows : List Row} (hne : rows ≠ [])
    (hsound : ∀ row ∈ rows, row.Sound rupeeText isInterState)
    (h : computeLines rupeeText (rows.map Row.line) isInterState bps amount =
      .ok (rows.map Row.priced, totals)) :
    computeLines rupeeText ((rows.map Row.priced).map PricedLine.asSent) isInterState bps amount =
        .ok (rows.map Row.priced, totals) ↔
      ∃ total, discountFor rupeeText (rows.map fun row => row.priced.left).sum bps amount =
          .ok total ∧
        allocate rupeeText total (rows.map fun row => row.priced.left) =
          .ok (rows.map fun row => row.priced.part) := by
  obtain ⟨htotals, ds, hds, hpriced⟩ := (compute_lines_ok_iff (by simpa using hne)).mp h
  have hlen : (rows.map Row.line).length = ds.length := by
    simpa using (apply_to_lines_within rupeeText hds).length_eq
  have hstored : (rows.map Row.priced).map PricedLine.discounted = ds :=
    price_from_discounted hlen hpriced
  have hds' : ds = rows.map Row.out := by
    rw [← hstored, List.map_map]
    exact List.map_congr_left fun row hrow => (hsound row hrow).stored.1
  rw [compute_lines_ok_iff (by simpa using hne), ← discounts_again hsound]
  have hagain : ((rows.map Row.priced).map PricedLine.asSent).map CycleLine.forDiscount =
      rows.map Row.again := by
    rw [List.map_map, List.map_map]
    rfl
  rw [hagain]
  constructor
  · rintro ⟨-, ds', hds'', hpriced'⟩
    have hlen' : ((rows.map Row.priced).map PricedLine.asSent).length = ds'.length := by
      simpa using (apply_to_lines_within rupeeText hds'').length_eq
    rw [← hds', ← hstored, price_from_discounted hlen' hpriced']
    exact hds''
  · intro hagain'
    refine ⟨htotals, ds, hds' ▸ hagain', ?_⟩
    exact price_from_again hlen hpriced

theorem none_carried_iff {rows : List Row}
    (hsound : ∀ row ∈ rows, row.Sound rupeeText isInterState) :
    NoneCarried (rows.map Row.line) (rows.map Row.priced) ↔
      ∀ row ∈ rows, row.line.discountPercentBps = none → row.share = 0 := by
  have hzip : (rows.map Row.line).zip (rows.map Row.priced) =
      rows.map fun row => (row.line, row.priced) := by
    rw [List.zip_map', List.map_congr_left fun _ _ => rfl]
  simp only [NoneCarried, hzip, List.forall_mem_map]
  refine forall₂_congr fun row hrow => imp_congr_right fun hnone => ?_
  obtain ⟨-, hdisc, -, -⟩ := (hsound row hrow).fields
  obtain ⟨hd, -, -, -⟩ := resolve_line_ok (hsound row hrow).resolves
  simp only [CycleLine.forDiscount, hnone] at hd
  have hown := (discount_for_amount hd).1
  omega

/-- Lines that carry nothing of the document's discount leave what they left before. -/
theorem same_of_none_carried {rows : List Row}
    (hsound : ∀ row ∈ rows, row.Sound rupeeText isInterState)
    (hnone : ∀ row ∈ rows, row.line.discountPercentBps = none → row.share = 0) :
    (rows.map fun row => row.priced.left) = (rows.map fun row => row.resolved.netPaise) ∧
      (rows.map fun row => row.priced.part) = rows.map Row.share := by
  have hrow : ∀ row ∈ rows, row.priced.left = row.resolved.netPaise ∧
      row.priced.part = row.share := by
    intro row hm
    cases hline : row.line.discountPercentBps with
    | some bps => exact (hsound row hm).left_part.1 (by simp [hline])
    | none =>
      obtain ⟨hleft, hpart⟩ := (hsound row hm).left_part.2 hline
      have := hnone row hm hline
      omega
  exact ⟨List.map_congr_left fun row hm => (hrow row hm).1,
    List.map_congr_left fun row hm => (hrow row hm).2⟩

/-- Parts that are within the shares and come to as much are the shares. -/
theorem shares_eq_parts {rows : List Row} (hle : ∀ row ∈ rows, row.priced.part ≤ row.share)
    (hsum : (rows.map Row.share).sum ≤ (rows.map fun row => row.priced.part).sum) :
    ∀ row ∈ rows, row.share = row.priced.part := by
  induction rows with
  | nil => simp
  | cons row rows ih =>
    obtain ⟨hrow, hrest⟩ := List.forall_mem_cons.mp hle
    have htail : (rows.map fun row => row.priced.part).sum ≤ (rows.map Row.share).sum :=
      List.sum_le_sum hrest
    simp only [List.map_cons, List.sum_cons] at hsum
    exact List.forall_mem_cons.mpr ⟨by omega, ih hrest (by omega)⟩

/-- Pricing a document's stored lines again under the same discount changes nothing exactly
where no line without a percentage took a part of the discount, or the discount is a percentage
that splits again into the parts the percentage lines take. -/
theorem repriced_iff
    (h : computeLines rupeeText lines isInterState bps amount = .ok (priced, totals)) :
    computeLines rupeeText (priced.map PricedLine.asSent) isInterState bps amount =
        .ok (priced, totals) ↔
      NoneCarried lines priced ∨ SplitsAgain rupeeText bps priced := by
  by_cases hne : lines = []
  · subst hne
    cases h
    simp [computeLines, NoneCarried]
  obtain ⟨rows, total, rfl, rfl, hsound, htotal, hshares⟩ := rows_of_compute hne h
  rw [again_iff (by simpa using hne) hsound h, none_carried_iff hsound]
  have hleft : ∀ w ∈ rows.map (fun row => row.priced.left), 0 ≤ w := by
    intro w hw
    obtain ⟨row, hrow, rfl⟩ := List.mem_map.mp hw
    exact (hsound row hrow).part_le.1
  have hnets : ∀ w ∈ rows.map (fun row => row.resolved.netPaise), 0 ≤ w := by
    intro w hw
    obtain ⟨row, hrow, rfl⟩ := List.mem_map.mp hw
    exact (hsound row hrow).share_nonneg.trans (hsound row hrow).share_le
  constructor
  · rintro ⟨total', htotal', hparts⟩
    cases bps with
    | some bps =>
      refine .inr ⟨bps, rfl, ?_⟩
      rw [(discount_for_percent htotal').1] at hparts
      rw [List.map_map, List.map_map]
      exact hparts
    | none =>
      -- An amount is taken whole both times, so nothing is left over for the other lines.
      left
      have hsame : total' = total :=
        (discount_for_amount htotal').1.trans (discount_for_amount htotal).1.symm
      have hfirst := allocate_sum rupeeText hnets (discount_within rupeeText htotal).2 hshares
      have hsecond := allocate_sum rupeeText hleft (discount_within rupeeText htotal').2 hparts
      have heach := shares_eq_parts (fun row hrow => (hsound row hrow).part_le.2.2)
        (by omega : (rows.map Row.share).sum ≤ (rows.map fun row => row.priced.part).sum)
      intro row hrow hline
      rw [heach row hrow, ((hsound row hrow).left_part.2 hline).2]
  · rintro (hnone | ⟨bps, rfl, hagain⟩)
    · obtain ⟨hsameLeft, hsameParts⟩ := same_of_none_carried hsound hnone
      exact ⟨total, hsameLeft ▸ htotal, by rw [hsameLeft, hsameParts]; exact hshares⟩
    · rw [List.map_map, List.map_map] at hagain
      exact ⟨_, percent_of_any htotal (List.sum_nonneg hleft), hagain⟩

/-- One unit at ten rupees and 18%, with the discount given. -/
def tenRupeeLine (discountPercentBps : Option ℤ) : CycleLine where
  description := some "Ledger paper"
  hsnSac := none
  quantity := some 1
  unit := none
  ratePaise := some 1000
  gstRatePercent := some 18
  isService := false
  serviceCatalogueId := none
  discountPercentBps := discountPercentBps
  discountPaise := none
  cessRateBps := none
  cessSpecificPaisePerUnit := none
  quantityIsProvisional := false
  orderLineId := none

/-- The line at a tenth off, less a rupee off the document, as it is stored. -/
def tenthOffLine : PricedLine where
  lineOrder := 0
  description := "Ledger paper"
  hsnSac := none
  quantity := 1
  unit := "NOS"
  ratePaise := 1000
  gstRatePercent := 18
  isService := false
  serviceCatalogueId := none
  discountPercentBps := some 1000
  discountPaise := 200
  cessRateBps := 0
  cessSpecificPaisePerUnit := 0
  taxableAmountPaise := 800
  cgstPaise := 72
  sgstPaise := 72
  igstPaise := 0
  lineCessPaise := 0
  quantityIsProvisional := false
  orderLineId := none

theorem repriced_tenth_off :
    computeLines (fun _ => "") [tenthOffLine.asSent] false none (some 100) =
      .ok ([tenthOffLine], ⟨800, 72, 72, 0, 0, 944⟩) := by
  have hpriced : computeLines (fun _ => "") [tenRupeeLine (some 1000)] false none (some 100) =
      .ok ([tenthOffLine], ⟨800, 72, 72, 0, 0, 944⟩) := by decide +kernel
  refine (repriced_iff hpriced).mpr (.inl ?_)
  intro p hp hnone
  obtain rfl : p = (tenRupeeLine (some 1000), tenthOffLine) := by simpa using hp
  cases hnone

/-- A rupee off a document of one line without a percentage is taken off again each time the
stored line is sent back. -/
theorem discounted_twice :
    (computeLines (fun _ => "") [tenRupeeLine none] false none (some 100)).map
        (fun r => (r.1.map PricedLine.discountPaise, r.2.taxablePaise)) = .ok ([100], 900) ∧
    ((computeLines (fun _ => "") [tenRupeeLine none] false none (some 100)).bind fun r =>
        computeLines (fun _ => "") (r.1.map PricedLine.asSent) false none (some 100)).map
        (fun r => (r.1.map PricedLine.discountPaise, r.2.taxablePaise)) = .ok ([200], 800) := by
  decide +kernel

end Caflow.OrderCycle
