import Caflow.Lib.SortByKey
import Caflow.Lib.TopWindow

namespace Caflow.Reporting.RoundSection

inductive RoundingUnit where
  | hundreds
  | thousands
  | lakhs
  | millions
  | crores

/-- Paise per unit. -/
def RoundingUnit.divisor : RoundingUnit → ℤ
  | .hundreds => 10000
  | .thousands => 100000
  | .lakhs => 10000000
  | .millions => 100000000
  | .crores => 1000000000

/-- A half goes away from zero. -/
def roundToUnit (paise : ℤ) (unit : RoundingUnit) : ℤ :=
  (if paise < 0 then -1 else 1) * ((|paise| + unit.divisor / 2) / unit.divisor)

/-- A line of a statement: its name and its paise. -/
abbrev Line := String × ℤ

/-- What rounding dropped of a line, or added to it. -/
def remainder (unit : RoundingUnit) (line : Line) : ℤ :=
  line.2 - roundToUnit line.2 unit * unit.divisor

/-- How far a line was rounded, then its name. -/
def rank (unit : RoundingUnit) (line : Line) : ℤ ×ₗ String := toLex (|remainder unit line|, line.1)

/-- The line rounded furthest first. -/
def order (unit : RoundingUnit) (lines : List Line) : List Line :=
  lines.insertionSort fun a b => rank unit b ≤ rank unit a

def roundSection (lines : List Line) (unit : RoundingUnit) : List Line :=
  let target := roundToUnit (lines.map Prod.snd).sum unit
  let rounded := lines.map fun line => (line.1, roundToUnit line.2 unit)
  let residual := target - (rounded.map Prod.snd).sum
  if residual = 0 then rounded
  else
    let step := if 0 < residual then 1 else -1
    let nudged := ((order unit lines).take residual.natAbs).map Prod.fst
    rounded.map fun line => if line.1 ∈ nudged then (line.1, line.2 + step) else line

/-- The lines of a section, each under a name of its own. -/
structure Section where
  lines : List Line
  distinct : (lines.map Prod.fst).Nodup

def Section.total (s : Section) : ℤ := (s.lines.map Prod.snd).sum

def Section.roundedTotal (s : Section) (unit : RoundingUnit) : ℤ :=
  ((roundSection s.lines unit).map Prod.snd).sum

/-- By how much the lines rounded one by one fall short of the rounded total. -/
def shortfall (unit : RoundingUnit) (lines : List Line) : ℤ :=
  roundToUnit (lines.map Prod.snd).sum unit - (lines.map fun line => roundToUnit line.2 unit).sum

/-- A section as it is to be presented. -/
structure Section.Presented (s : Section) (unit : RoundingUnit) : Prop where
  names : (roundSection s.lines unit).map Prod.fst = s.lines.map Prod.fst
  foots : s.roundedTotal unit = roundToUnit s.total unit
  close : ∀ line ∈ s.lines, ∀ shown ∈ roundSection s.lines unit, shown.1 = line.1 →
    |line.2 - shown.2 * unit.divisor| ≤ unit.divisor
  anyOrder : ∀ lines : List Line, lines.Perm s.lines →
    (roundSection lines unit).Perm (roundSection s.lines unit)
  alike : ∀ other : Section, other.total = s.total → other.roundedTotal unit = s.roundedTotal unit

/-- A line rounded up already is not among the furthest that a shortfall is handed to, nor one
rounded down among those that an excess is taken from. -/
def Section.WellPlaced (s : Section) (unit : RoundingUnit) : Prop :=
  ∀ line ∈ s.lines, shortfall unit s.lines * remainder unit line < 0 →
    (shortfall unit s.lines).natAbs ≤ s.lines.countP fun other => rank unit line < rank unit other

theorem RoundingUnit.divisor_pos (unit : RoundingUnit) : 0 < unit.divisor := by
  cases unit <;> decide

theorem RoundingUnit.divisor_even (unit : RoundingUnit) :
    2 * (unit.divisor / 2) = unit.divisor := by
  cases unit <;> decide

/-- Rounding moves a figure by half a unit at most. -/
theorem remainder_le (unit : RoundingUnit) (line : Line) :
    2 * |remainder unit line| ≤ unit.divisor := by
  have heven := unit.divisor_even
  have hdivision := Int.emod_add_mul_ediv (|line.2| + unit.divisor / 2) unit.divisor
  have hlow := Int.emod_nonneg (|line.2| + unit.divisor / 2) unit.divisor_pos.ne'
  have hhigh := Int.emod_lt_of_pos (|line.2| + unit.divisor / 2) unit.divisor_pos
  have hwhole : 2 * |(|line.2| -
      unit.divisor * ((|line.2| + unit.divisor / 2) / unit.divisor))| ≤ unit.divisor := by
    rcases abs_cases (|line.2| - unit.divisor * ((|line.2| + unit.divisor / 2) / unit.divisor)) with
      ⟨he, -⟩ | ⟨he, -⟩ <;> omega
  unfold remainder roundToUnit
  rcases lt_or_ge line.2 0 with hneg | hnonneg
  · rw [if_pos hneg, ← abs_neg]
    refine le_trans (le_of_eq ?_) hwhole
    rw [abs_of_neg hneg]
    ring_nf
  · rw [if_neg (not_lt.mpr hnonneg)]
    refine le_trans (le_of_eq ?_) hwhole
    rw [abs_of_nonneg hnonneg]
    ring_nf

section
variable {unit : RoundingUnit}

/-- Nudged by a unit, a line is within one unit of its value unless it was rounded that way. -/
theorem nudged_close {step : ℤ} (hstep : step = 1 ∨ step = -1) (line : Line) :
    |line.2 - (roundToUnit line.2 unit + step) * unit.divisor| ≤ unit.divisor ↔
      0 ≤ step * remainder unit line := by
  have hpos := unit.divisor_pos
  have hle := remainder_le unit line
  have he : line.2 - (roundToUnit line.2 unit + step) * unit.divisor =
      remainder unit line - step * unit.divisor := by
    unfold remainder
    ring
  rw [he, abs_le]
  have hbound := abs_le.mp (show |remainder unit line| ≤ unit.divisor / 2 by omega)
  rcases hstep with rfl | rfl
  · constructor
    · intro h
      omega
    · intro h
      omega
  · constructor
    · intro h
      omega
    · intro h
      omega

theorem rank_injective {lines : List Line} (h : (lines.map Prod.fst).Nodup) (ha : a ∈ lines)
    (hb : b ∈ lines) (hrank : rank unit a = rank unit b) : a = b := by
  refine List.inj_on_of_nodup_map h ha hb ?_
  exact congrArg (fun k : ℤ ×ₗ String => (ofLex k).2) hrank

theorem ranks_nodup {lines : List Line} (h : (lines.map Prod.fst).Nodup) :
    (lines.map (rank unit)).Nodup := by
  refine List.Nodup.map_on (fun a ha b hb => rank_injective h ha hb) (List.Nodup.of_map _ h)

theorem order_perm (unit : RoundingUnit) (lines : List Line) : (order unit lines).Perm lines :=
  List.perm_insertionSort _ lines

/-- A line is among the furthest ones when fewer lines than that were rounded further. -/
theorem mem_furthest (unit : RoundingUnit) {lines : List Line} (h : (lines.map Prod.fst).Nodup) (hline : line ∈ lines)
    (n : ℕ) : line ∈ (order unit lines).take n ↔
      lines.countP (fun other => rank unit line < rank unit other) < n := by
  have hperm := order_perm unit lines
  have hdescending : ((order unit lines).map (rank unit)).Pairwise (· > ·) := by
    have hsorted : (order unit lines).Pairwise fun a b =>
        OrderDual.toDual (rank unit a) ≤ OrderDual.toDual (rank unit b) :=
      SortByKey.sorted_pairwise lines
    have hge : ((order unit lines).map (rank unit)).Pairwise (· ≥ ·) := List.pairwise_map.mpr hsorted
    have hne : ((order unit lines).map (rank unit)).Nodup :=
      ((hperm.map _).nodup_iff).mpr (ranks_nodup h)
    exact (hge.and hne).imp fun ⟨hle, hne⟩ => lt_of_le_of_ne hle (Ne.symm hne)
  have htake : line ∈ (order unit lines).take n ↔
      rank unit line ∈ ((order unit lines).map (rank unit)).take n := by
    rw [← List.map_take, List.mem_map]
    constructor
    · exact fun hmem => ⟨line, hmem, rfl⟩
    · rintro ⟨other, hmem, he⟩
      have hother := hperm.mem_iff.mp (List.mem_of_mem_take hmem)
      rwa [← rank_injective h hother hline he]
  have hmem : rank unit line ∈ (order unit lines).map (rank unit) :=
    List.mem_map_of_mem (hperm.mem_iff.mpr hline)
  rw [htake, TopWindow.mem_take_of_descending hdescending, List.countP_map, hperm.countP_eq]
  exact ⟨fun hboth => hboth.2, fun hcount => ⟨hmem, hcount⟩⟩

/-- The unit a line is nudged by, where it is among the furthest. -/
def nudge (unit : RoundingUnit) (lines : List Line) (line : Line) : ℤ :=
  if line ∈ (order unit lines).take (shortfall unit lines).natAbs then (shortfall unit lines).sign
  else 0

theorem round_section_eq {lines : List Line} (h : (lines.map Prod.fst).Nodup) :
    roundSection lines unit =
      lines.map fun line => (line.1, roundToUnit line.2 unit + nudge unit lines line) := by
  have hresidual : ((lines.map fun line => (line.1, roundToUnit line.2 unit)).map Prod.snd).sum =
      (lines.map fun line => roundToUnit line.2 unit).sum := by
    rw [List.map_map]
    rfl
  have hshort : roundToUnit (lines.map Prod.snd).sum unit -
      (lines.map fun line => roundToUnit line.2 unit).sum = shortfall unit lines := rfl
  unfold roundSection
  simp only [hresidual, hshort]
  by_cases hnone : shortfall unit lines = 0
  · rw [if_pos hnone]
    refine List.map_congr_left fun line _ => ?_
    simp [nudge, hnone]
  · have hsign : (shortfall unit lines).sign = if 0 < shortfall unit lines then 1 else -1 := by
      split_ifs with hpos
      · exact Int.sign_eq_one_of_pos hpos
      · exact Int.sign_eq_neg_one_of_neg (by omega)
    rw [if_neg hnone, ← hsign, List.map_map]
    refine List.map_congr_left fun line hline => ?_
    have hname : line.1 ∈ ((order unit lines).take (shortfall unit lines).natAbs).map Prod.fst ↔
        line ∈ (order unit lines).take (shortfall unit lines).natAbs := by
      rw [List.mem_map]
      constructor
      · rintro ⟨other, hmem, he⟩
        have hother := (order_perm unit lines).mem_iff.mp (List.mem_of_mem_take hmem)
        rwa [← List.inj_on_of_nodup_map h hother hline he]
      · exact fun hmem => ⟨line, hmem, rfl⟩
    simp only [Function.comp_apply, nudge, hname]
    split_ifs
    · rfl
    · rw [add_zero]

theorem sum_remainders (unit : RoundingUnit) (lines : List Line) :
    (lines.map Prod.snd).sum = (lines.map fun line => roundToUnit line.2 unit).sum * unit.divisor +
      (lines.map (remainder unit)).sum := by
  induction lines with
  | nil => simp
  | cons line lines ih =>
    simp only [List.map_cons, List.sum_cons, ih, remainder]
    ring

theorem sum_remainders_le (unit : RoundingUnit) (lines : List Line) :
    2 * |(lines.map (remainder unit)).sum| ≤ lines.length * unit.divisor := by
  induction lines with
  | nil => simp
  | cons line lines ih =>
    have hline := remainder_le unit line
    have hsplit := abs_add_le (remainder unit line) (lines.map (remainder unit)).sum
    simp only [List.map_cons, List.sum_cons, List.length_cons]
    push_cast
    linarith

/-- There is never more to hand out than there are lines. -/
theorem shortfall_le (lines : List Line) : (shortfall unit lines).natAbs ≤ lines.length := by
  rcases lines with - | ⟨line, rest⟩
  · simp [shortfall, roundToUnit]
    cases unit <;> decide
  set lines := line :: rest with hlines
  have hpos := unit.divisor_pos
  have htotal := remainder_le unit ("", (lines.map Prod.snd).sum)
  have hlines' := sum_remainders_le unit lines
  have hsum := sum_remainders unit lines
  have hshort : shortfall unit lines * unit.divisor =
      (lines.map (remainder unit)).sum - remainder unit ("", (lines.map Prod.snd).sum) := by
    unfold shortfall
    rw [remainder, sub_mul]
    simp only
    linarith
  have hscaled : 2 * (|shortfall unit lines| * unit.divisor) ≤ (lines.length + 1) * unit.divisor := by
    have habs : |shortfall unit lines| * unit.divisor = |shortfall unit lines * unit.divisor| := by
      rw [abs_mul, abs_of_pos hpos]
    rw [habs, hshort]
    have := abs_sub (lines.map (remainder unit)).sum (remainder unit ("", (lines.map Prod.snd).sum))
    linarith
  have hlong : 1 ≤ lines.length := by simp [hlines]
  have : 2 * |shortfall unit lines| ≤ lines.length + 1 := by
    by_contra hmore
    have := mul_lt_mul_of_pos_right (not_le.mp hmore) hpos
    linarith
  rw [Int.abs_eq_natAbs] at this
  omega

theorem nudge_sum (unit : RoundingUnit) {lines : List Line} (h : (lines.map Prod.fst).Nodup) :
    (lines.map (nudge unit lines)).sum = shortfall unit lines := by
  have hperm := order_perm unit lines
  have hnodup : (order unit lines).Nodup := hperm.nodup_iff.mpr (List.Nodup.of_map _ h)
  set n := (shortfall unit lines).natAbs with hn
  have hfront : ∀ line ∈ (order unit lines).take n,
      nudge unit lines line = (shortfall unit lines).sign := fun line hline => if_pos hline
  have hback : ∀ line ∈ (order unit lines).drop n, nudge unit lines line = 0 := by
    intro line hline
    refine if_neg fun hmem => ?_
    exact List.disjoint_take_drop hnodup le_rfl hmem hline
  calc (lines.map (nudge unit lines)).sum
      = ((order unit lines).map (nudge unit lines)).sum := ((hperm.map _).sum_eq).symm
    _ = (((order unit lines).take n).map (nudge unit lines)).sum +
          (((order unit lines).drop n).map (nudge unit lines)).sum := by
        rw [← List.sum_append, ← List.map_append, List.take_append_drop]
    _ = n * (shortfall unit lines).sign := by
        rw [List.map_congr_left hfront, List.map_congr_left hback]
        have hlength : ((order unit lines).take n).length = n := by
          rw [List.length_take, hperm.length_eq]
          exact min_eq_left (shortfall_le lines)
        simp only [List.map_const', List.sum_replicate, hlength, nsmul_eq_mul, mul_zero, add_zero]
    _ = shortfall unit lines := by
        rw [hn, mul_comm]
        exact Int.sign_mul_natAbs _

theorem rounded_sum {lines : List Line} (h : (lines.map Prod.fst).Nodup) :
    ((roundSection lines unit).map Prod.snd).sum =
      roundToUnit (lines.map Prod.snd).sum unit := by
  have hnudge := nudge_sum unit h
  have hsplit : (lines.map fun line => roundToUnit line.2 unit + nudge unit lines line).sum =
      (lines.map fun line => roundToUnit line.2 unit).sum + (lines.map (nudge unit lines)).sum :=
    List.sum_map_add
  rw [round_section_eq h, List.map_map]
  change (lines.map fun line => roundToUnit line.2 unit + nudge unit lines line).sum = _
  rw [hsplit, hnudge, shortfall]
  ring

theorem rounded_perm {lines lines' : List Line} (hperm : lines'.Perm lines)
    (h : (lines.map Prod.fst).Nodup) :
    (roundSection lines' unit).Perm (roundSection lines unit) := by
  have h' : (lines'.map Prod.fst).Nodup := ((hperm.map _).nodup_iff).mpr h
  have hranks : (lines'.map fun line => OrderDual.toDual (rank unit line)).Nodup := ranks_nodup h'
  have horder : order unit lines' = order unit lines := SortByKey.sorted_eq hperm hranks
  have hshort : shortfall unit lines' = shortfall unit lines := by
    unfold shortfall
    rw [(hperm.map _).sum_eq, (hperm.map fun line => roundToUnit line.2 unit).sum_eq]
  rw [round_section_eq h, round_section_eq h']
  have hnudge : nudge unit lines' = nudge unit lines := by
    unfold nudge
    rw [horder, hshort]
  rw [hnudge]
  exact hperm.map _

/-- A line is out by more than a unit exactly when a unit is handed to it the way it was rounded. -/
theorem nudge_close {lines : List Line} (h : (lines.map Prod.fst).Nodup) (hline : line ∈ lines) :
    |line.2 - (roundToUnit line.2 unit + nudge unit lines line) * unit.divisor| ≤ unit.divisor ↔
      (shortfall unit lines * remainder unit line < 0 → (shortfall unit lines).natAbs ≤
        lines.countP fun other => rank unit line < rank unit other) := by
  have hfurthest := mem_furthest unit h hline (shortfall unit lines).natAbs
  unfold nudge
  split_ifs with hmem
  · have hnudged := hfurthest.mp hmem
    have hne : shortfall unit lines ≠ 0 := by
      intro hzero
      rw [hzero] at hnudged
      exact absurd hnudged (Nat.not_lt_zero _)
    have hstep : (shortfall unit lines).sign = 1 ∨ (shortfall unit lines).sign = -1 := by
      rcases lt_or_gt_of_ne hne with hneg | hpos
      · exact .inr (Int.sign_eq_neg_one_of_neg hneg)
      · exact .inl (Int.sign_eq_one_of_pos hpos)
    have hway : 0 ≤ (shortfall unit lines).sign * remainder unit line ↔
        ¬ shortfall unit lines * remainder unit line < 0 := by
      rw [not_lt]
      rcases lt_or_gt_of_ne hne with hneg | hpos
      · rw [Int.sign_eq_neg_one_of_neg hneg]
        constructor
        · intro hle
          exact mul_nonneg_of_nonpos_of_nonpos hneg.le (by omega)
        · intro hle
          have := nonpos_of_mul_nonneg_right hle hneg
          omega
      · rw [Int.sign_eq_one_of_pos hpos, one_mul]
        exact (mul_nonneg_iff_of_pos_left hpos).symm
    rw [nudged_close hstep, hway]
    exact ⟨fun hno hyes => absurd hyes hno, fun himp hyes => absurd (himp hyes) (by omega)⟩
  · have hkept := mt hfurthest.mpr hmem
    have hclose : |line.2 - (roundToUnit line.2 unit + 0) * unit.divisor| ≤ unit.divisor := by
      have := remainder_le unit line
      have := unit.divisor_pos
      rw [add_zero]
      change |remainder unit line| ≤ _
      omega
    exact ⟨fun _ _ => by omega, fun _ => hclose⟩

end

/-- A section is presented as it should be exactly where its furthest lines are well placed; only
the closeness of a line can fail. -/
theorem presented_iff_well_placed (s : Section) (unit : RoundingUnit) :
    s.Presented unit ↔ s.WellPlaced unit := by
  constructor
  · intro h line hline
    have hshown : (line.1, roundToUnit line.2 unit + nudge unit s.lines line) ∈
        roundSection s.lines unit := by
      rw [round_section_eq s.distinct]
      exact List.mem_map.mpr ⟨line, hline, rfl⟩
    have hclose := h.close line hline _ hshown rfl
    simp only at hclose
    exact (nudge_close s.distinct hline).mp hclose
  · intro h
    constructor
    · rw [round_section_eq s.distinct, List.map_map]
      rfl
    · exact rounded_sum s.distinct
    · intro line hline shown hshown hname
      rw [round_section_eq s.distinct] at hshown
      obtain ⟨other, hother, rfl⟩ := List.mem_map.mp hshown
      obtain rfl : other = line := List.inj_on_of_nodup_map s.distinct hother hline hname
      exact (nudge_close s.distinct hline).mpr (h other hline)
    · exact fun lines hperm => rounded_perm hperm s.distinct
    · intro other htotal
      unfold Section.roundedTotal
      unfold Section.total at htotal
      rw [rounded_sum s.distinct, rounded_sum other.distinct, htotal]

/-- One line rounded up by forty rupees and three rounded down by thirty each, in hundreds. -/
def fourLines : Section where
  lines := [("Cash", 6000), ("Deposits", 3000), ("Loans", 3000), ("Stock", 3000)]
  distinct := by decide

theorem four_lines_not_close : ¬ fourLines.Presented .hundreds := by
  intro h
  have hshown : ("Cash", 2) ∈ roundSection fourLines.lines .hundreds := by decide +kernel
  have hclose := h.close ("Cash", 6000) List.mem_cons_self ("Cash", 2) hshown rfl
  simp [RoundingUnit.divisor] at hclose

end Caflow.Reporting.RoundSection
