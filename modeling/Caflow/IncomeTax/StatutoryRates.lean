import Caflow.Lib.MarginalRelief

namespace Caflow.IncomeTax
open MarginalRelief

/-- A progressive bracket. No upper end means "and above". -/
structure SlabBracket where
  uptoPaise : Option ℤ
  ratePercent : ℤ

/-- A surcharge that applies once total income strictly exceeds a threshold. -/
structure SurchargeBracket where
  abovePaise : ℤ
  ratePercent : ℤ

/-- The year's rates that slab tax, surcharge and cess read. -/
structure FYTaxRates where
  fy : String
  newRegimeSlabs : List SlabBracket
  oldRegimeSlabsGeneral : List SlabBracket
  oldRegimeSlabsSenior : List SlabBracket
  oldRegimeSlabsVerySenior : List SlabBracket
  surchargeBrackets : List SurchargeBracket
  newRegimeSurchargeCapPercent : ℤ
  cessPercent : ℤ

def fy2025_26 : FYTaxRates where
  fy := "2025-26"
  newRegimeSlabs := [⟨some 40000000, 0⟩, ⟨some 80000000, 5⟩, ⟨some 120000000, 10⟩,
    ⟨some 160000000, 15⟩, ⟨some 200000000, 20⟩, ⟨some 240000000, 25⟩, ⟨none, 30⟩]
  oldRegimeSlabsGeneral := [⟨some 25000000, 0⟩, ⟨some 50000000, 5⟩, ⟨some 100000000, 20⟩,
    ⟨none, 30⟩]
  oldRegimeSlabsSenior := [⟨some 30000000, 0⟩, ⟨some 50000000, 5⟩, ⟨some 100000000, 20⟩,
    ⟨none, 30⟩]
  oldRegimeSlabsVerySenior := [⟨some 50000000, 0⟩, ⟨some 100000000, 20⟩, ⟨none, 30⟩]
  surchargeBrackets := [⟨500000000, 10⟩, ⟨1000000000, 15⟩, ⟨2000000000, 25⟩, ⟨5000000000, 37⟩]
  newRegimeSurchargeCapPercent := 25
  cessPercent := 4

/-- Carried forward unchanged. -/
def fy2026_27 : FYTaxRates := { fy2025_26 with fy := "2026-27" }

/-- The year asked for, or the current one when none is named. -/
def fyOr (currentFy : String) (fy : Option String) : String :=
  match fy with
  | some label => if label = "" then currentFy else label
  | none => currentFy

/-- The rates of a year, or those of the latest verified year when it is not held. -/
def ratesFor (currentFy : String) (fy : Option String) : FYTaxRates :=
  if fyOr currentFy fy = "2026-27" then fy2026_27 else fy2025_26

/-- The loop of `slab_tax_paise`, from the lower end of the next bracket. -/
def slabTaxFrom (income lower : ℤ) : List SlabBracket → ℤ
  | [] => 0
  | b :: bs =>
    if income ≤ lower then 0
    else
      let upper := b.uptoPaise.getD income
      let slice := min income upper - lower
      let tax := if 0 < slice then slice * b.ratePercent / 100 else 0
      match b.uptoPaise with
      | none => tax
      | some _ => tax + slabTaxFrom income upper bs

def slabTaxPaise (taxableIncomePaise : ℤ) (slabs : List SlabBracket) : ℤ :=
  if taxableIncomePaise ≤ 0 then 0 else slabTaxFrom taxableIncomePaise 0 slabs

/-- The rate and the threshold of the highest bracket an income falls into, or zeros. -/
def resolveSurchargeBracket (totalIncomePaise : ℤ) (brackets : List SurchargeBracket)
    (capPercent : Option ℤ) : ℤ × ℤ :=
  let found := (brackets.insertionSort (fun a b => a.abovePaise ≤ b.abovePaise)).foldl
    (fun found b => if b.abovePaise < totalIncomePaise then (b.ratePercent, b.abovePaise) else found)
    (0, 0)
  (match capPercent with
    | none => found.1
    | some cap => min found.1 cap, found.2)

def applySurchargeWithMarginalRelief (totalIncomePaise taxBeforeSurchargePaise : ℤ)
    (brackets : List SurchargeBracket) (capPercent : Option ℤ) (taxAtIncome : ℤ → ℤ) : ℤ :=
  let bracket := resolveSurchargeBracket totalIncomePaise brackets capPercent
  if bracket.1 = 0 then 0
  else
    let surcharge := taxBeforeSurchargePaise * bracket.1 / 100
    let taxAtThreshold := taxAtIncome bracket.2
    let maxTotal := taxAtThreshold + (totalIncomePaise - bracket.2)
    if maxTotal < taxBeforeSurchargePaise + surcharge then
      max 0 (max taxAtThreshold maxTotal - taxBeforeSurchargePaise)
    else max 0 surcharge

def cessPaise (taxPlusSurchargePaise : ℤ) (rates : FYTaxRates) : ℤ :=
  max 0 taxPlusSurchargePaise * rates.cessPercent / 100

/-- Which of the year's slab tables applies. -/
def slabsFor (rates : FYTaxRates) (useNewRegime senior verySenior : Bool) : List SlabBracket :=
  if useNewRegime then rates.newRegimeSlabs
  else if verySenior then rates.oldRegimeSlabsVerySenior
  else if senior then rates.oldRegimeSlabsSenior
  else rates.oldRegimeSlabsGeneral

/-- What an individual with slab income only is charged: slab tax, surcharge and cess. -/
def slabIncomeTaxPaise (rates : FYTaxRates) (useNewRegime senior verySenior : Bool)
    (taxableIncomePaise : ℤ) : ℤ :=
  let slabs := slabsFor rates useNewRegime senior verySenior
  let newCap := if useNewRegime then some rates.newRegimeSurchargeCapPercent else none
  let tax := slabTaxPaise taxableIncomePaise slabs
  let surcharge := applySurchargeWithMarginalRelief taxableIncomePaise tax
    rates.surchargeBrackets newCap (slabTaxPaise · slabs)
  tax + surcharge + cessPaise (tax + surcharge) rates

/-- Brackets that go up from a lower end, each at a rate up to a hundred per cent. -/
def Ascends (lower : ℤ) : List SlabBracket → Prop
  | [] => True
  | b :: bs => (0 ≤ b.ratePercent ∧ b.ratePercent ≤ 100) ∧
    match b.uptoPaise with
    | none => True
    | some upper => lower ≤ upper ∧ Ascends upper bs

theorem slabTaxFrom_below (h : income ≤ lower) : slabTaxFrom income lower bs = 0 := by
  cases bs with
  | nil => rfl
  | cons b bs => rw [slabTaxFrom, if_pos h]

theorem slabTaxFrom_cons (income : ℤ) (hlow : lower ≤ upper) :
    slabTaxFrom income lower (⟨some upper, rate⟩ :: bs) =
      percent (max 0 (min income upper - lower)) rate + slabTaxFrom income upper bs := by
  conv_lhs => rw [slabTaxFrom]
  rcases le_or_gt income lower with h | h
  · have hslice : max 0 (min income upper - lower) = 0 := by omega
    rw [if_pos h, hslice, slabTaxFrom_below (h.trans hlow)]
    simp [percent]
  · rw [if_neg (not_le.mpr h)]
    simp only [Option.getD_some]
    split
    · rw [max_eq_right (by omega)]
      rfl
    · rw [max_eq_left (by omega)]
      simp [percent]

theorem slabTaxFrom_top (income : ℤ) :
    slabTaxFrom income lower (⟨none, rate⟩ :: bs) = percent (max 0 (income - lower)) rate := by
  rw [slabTaxFrom]
  simp only [Option.getD_none, min_self]
  split
  · rw [max_eq_left (by omega)]
    simp [percent]
  · rw [if_pos (by omega), max_eq_right (by omega)]
    rfl

theorem slabTaxFrom_steady (h : Ascends lower slabs) : Steady (slabTaxFrom · lower slabs) := by
  induction slabs generalizing lower with
  | nil => exact fun x y hxy => ⟨le_rfl, by simp only [slabTaxFrom]; omega⟩
  | cons b bs ih =>
    obtain ⟨upto, rate⟩ := b
    obtain ⟨⟨hr, hr'⟩, hrest⟩ := h
    intro x y hxy
    cases upto with
    | none =>
      have := percent_steady hr hr' (max 0 (x - lower)) (max 0 (y - lower)) (by omega)
      simp only [slabTaxFrom_top] at this ⊢
      omega
    | some upper =>
      obtain ⟨hlow, hup⟩ := hrest
      have hslice := percent_steady hr hr' (max 0 (min x upper - lower))
        (max 0 (min y upper - lower)) (by omega)
      simp only [slabTaxFrom_cons _ hlow]
      rcases le_or_gt y upper with hy | hy
      · rw [slabTaxFrom_below hy, slabTaxFrom_below (hxy.trans hy)]
        dsimp only at hslice
        omega
      · rcases le_or_gt x upper with hx | hx
        · have htail := ih hup upper y hy.le
          dsimp only at hslice htail
          rw [slabTaxFrom_below le_rfl] at htail
          rw [slabTaxFrom_below hx]
          omega
        · have htail := ih hup x y hxy
          dsimp only at hslice htail
          omega

theorem slabTaxPaise_steady (h : Ascends 0 slabs) : Steady (slabTaxPaise · slabs) := by
  have heq : (slabTaxPaise · slabs) = (slabTaxFrom · 0 slabs) := by
    funext income
    unfold slabTaxPaise
    split
    · rename_i hle
      exact (slabTaxFrom_below hle).symm
    · rfl
  rw [heq]
  exact slabTaxFrom_steady h

/-- The last bracket of a table: what all below it charge, where they end, and its own rate. -/
structure TopSlab where
  below : ℤ
  ends : ℤ
  rate : ℤ

def topSlabFrom (lower below : ℤ) : List SlabBracket → Option TopSlab
  | [] => none
  | b :: bs =>
    match b.uptoPaise with
    | none => some ⟨below, lower, b.ratePercent⟩
    | some upper => topSlabFrom upper (below + percent (upper - lower) b.ratePercent) bs

theorem topSlabFrom_le (h : Ascends lower slabs) (ht : topSlabFrom lower below slabs = some top) :
    lower ≤ top.ends := by
  induction slabs generalizing lower below with
  | nil => cases ht
  | cons b bs ih =>
    obtain ⟨upto, rate⟩ := b
    cases upto with
    | none => cases ht; exact le_rfl
    | some upper => exact h.2.1.trans (ih h.2.2 ht)

/-- Past the end of all other brackets only the last one charges more. -/
theorem slabTaxFrom_past (h : Ascends lower slabs)
    (ht : topSlabFrom lower below slabs = some top) (hx : top.ends ≤ income) :
    below + slabTaxFrom income lower slabs = top.below + percent (income - top.ends) top.rate := by
  induction slabs generalizing lower below with
  | nil => cases ht
  | cons b bs ih =>
    obtain ⟨upto, rate⟩ := b
    cases upto with
    | none =>
      cases ht
      dsimp only at hx ⊢
      rw [slabTaxFrom_top, max_eq_right (by omega)]
    | some upper =>
      have hend := topSlabFrom_le h.2.2 ht
      have hlow : lower ≤ upper := h.2.1
      have hrest := ih h.2.2 ht
      rw [slabTaxFrom_cons _ hlow, min_eq_right (by omega), max_eq_right (by omega), ← hrest]
      ring

/-- The brackets as steps, at the rates the cap leaves. -/
def ladderOf (brackets : List SurchargeBracket) (capPercent : Option ℤ) : List Step :=
  brackets.map fun b => ⟨b.abovePaise, capPercent.elim b.ratePercent (min b.ratePercent)⟩

theorem fold_last (p : α → Prop) [DecidablePred p] (f : α → β) (d : β) (xs : List α) :
    xs.foldl (fun found x => if p x then f x else found) d =
      ((xs.filter (fun x => p x)).getLast?.map f).getD d := by
  induction xs using List.reverseRecOn with
  | nil => rfl
  | append_singleton xs x ih =>
    rw [List.foldl_append, ih, List.filter_append]
    rcases em (p x) with hx | hx
    · simp [hx]
    · simp [hx]

/-- Brackets in order of their thresholds are read as the steps they are. -/
theorem resolve_eq (hsort : brackets.Pairwise (fun a b => a.abovePaise ≤ b.abovePaise))
    (cap : Option ℤ) (hcap : ∀ c ∈ cap, 0 ≤ c) (income : ℤ) :
    resolveSurchargeBracket income brackets cap =
      ((reached (ladderOf brackets cap) income).map fun s => (s.rate, s.above)).getD (0, 0) := by
  have hreached : reached (ladderOf brackets cap) income =
      (brackets.filter (fun b => b.abovePaise < income)).getLast?.map
        fun b => ⟨b.abovePaise, cap.elim b.ratePercent (min b.ratePercent)⟩ := by
    rw [reached, ladderOf, List.filter_map, List.getLast?_map]
    rfl
  have hlast := fold_last (fun b : SurchargeBracket => b.abovePaise < income)
    (fun b => (b.ratePercent, b.abovePaise)) (0, 0) brackets
  unfold resolveSurchargeBracket
  rw [List.Pairwise.insertionSort_eq hsort, hreached, hlast]
  cases (brackets.filter (fun b => b.abovePaise < income)).getLast? with
  | none =>
    cases cap with
    | none => rfl
    | some c =>
      have := hcap c rfl
      simp [this]
  | some b => cases cap <;> rfl

/-- A charge and a table of brackets that marginal relief is meant for. -/
structure Sound (charge : ℤ → ℤ) (brackets : List SurchargeBracket) (cap : Option ℤ) : Prop where
  steady : Steady charge
  climbs : Climbs (ladderOf brackets cap)
  cap_nonneg : ∀ c ∈ cap, 0 ≤ c
  rate_pos : ∀ s ∈ ladderOf brackets cap, 0 < s.rate
  separate : Separate charge (ladderOf brackets cap)

theorem Sound.sorted (h : Sound charge brackets cap) :
    brackets.Pairwise (fun a b => a.abovePaise ≤ b.abovePaise) :=
  (List.pairwise_map.mp h.climbs).imp fun hlt => hlt.1.le

/-- Tax and surcharge as the code adds them up are the relieved charge. -/
theorem Sound.tax_with_surcharge (h : Sound charge brackets cap) (hn : 0 ≤ charge income) :
    charge income + applySurchargeWithMarginalRelief income (charge income) brackets cap charge =
      relieved charge (ladderOf brackets cap) income := by
  rw [applySurchargeWithMarginalRelief, resolve_eq h.sorted cap h.cap_nonneg, relieved]
  cases hreach : reached (ladderOf brackets cap) income with
  | none => simp
  | some s =>
    obtain ⟨hmem, habove⟩ := reached_mem hreach
    have hrate := h.rate_pos s hmem
    have hslow := h.steady s.above income habove.le
    have hpercent : 0 ≤ percent (charge income) s.rate := percent_nonneg hn hrate.le
    simp only [Option.map_some, Option.getD_some, hrate.ne', ↓reduceIte]
    change charge income + (if _ < charge income + percent (charge income) s.rate then _
      else max 0 (percent (charge income) s.rate)) = _
    split <;> omega

/-- More tax and surcharge is more to pay, cess included. -/
theorem with_cess_le_iff {rates : FYTaxRates} (hc : 0 ≤ rates.cessPercent) :
    x + cessPaise x rates ≤ y + cessPaise y rates ↔ x ≤ y := by
  have hmono : ∀ {u v : ℤ}, u ≤ v → cessPaise u rates ≤ cessPaise v rates := fun h =>
    percent_mono hc (max_le_max_left 0 h)
  refine ⟨fun h => ?_, fun h => add_le_add h (hmono h)⟩
  by_contra hlt
  have := hmono (not_le.mp hlt).le
  omega

/-- The lower income bears no surcharge that the relief at the higher one's threshold drops: they
share a bracket, the lower is in none, or its tax and full surcharge fit under that relief. -/
def SurchargeKept (charge : ℤ → ℤ) (brackets : List SurchargeBracket) (cap : Option ℤ)
    (a b : ℤ) : Prop :=
  let lower := resolveSurchargeBracket a brackets cap
  let higher := resolveSurchargeBracket b brackets cap
  lower = higher ∨ lower.1 = 0 ∨
    charge a + charge a * lower.1 / 100 ≤ charge higher.2 + (b - higher.2)

instance : Decidable (SurchargeKept charge brackets cap a b) :=
  inferInstanceAs (Decidable (_ ∨ _ ∨ _))

theorem Sound.kept_iff (h : Sound charge brackets cap) (hab : a ≤ b) :
    SurchargeKept charge brackets cap a b ↔
      reached (ladderOf brackets cap) a = reached (ladderOf brackets cap) b ∨
      reached (ladderOf brackets cap) a = none ∨
        ∃ p s, reached (ladderOf brackets cap) a = some p ∧
          reached (ladderOf brackets cap) b = some s ∧
          charge a + percent (charge a) p.rate ≤ charge s.above + (b - s.above) := by
  unfold SurchargeKept
  rw [resolve_eq h.sorted cap h.cap_nonneg, resolve_eq h.sorted cap h.cap_nonneg]
  rcases reached_cases h.climbs hab with hsame | ⟨s, hb, -, -⟩
  · rw [hsame]
    exact iff_of_true (.inl rfl) (.inl rfl)
  cases ha : reached (ladderOf brackets cap) a with
  | none => exact iff_of_true (.inr (.inl rfl)) (.inr (.inl rfl))
  | some p =>
    have hrate := h.rate_pos p (reached_mem ha).1
    have hsame : (p.rate, p.above) = (s.rate, s.above) ↔ p = s := by
      rw [Step.mk.injEq, Prod.mk.injEq, and_comm]
    simp only [hb, Option.map_some, Option.getD_some, hsame, hrate.ne', Option.some.injEq,
      reduceCtorEq, false_or, exists_and_left, exists_eq_left']
    rfl

/-- Tax, surcharge and cess rise from one income to a higher one exactly when no surcharge
already due is dropped on the way. -/
theorem Sound.payable_le_iff (h : Sound charge brackets cap) {rates : FYTaxRates}
    (hc : 0 ≤ rates.cessPercent) (hab : a ≤ b) (hn : 0 ≤ charge a) :
    charge a + applySurchargeWithMarginalRelief a (charge a) brackets cap charge +
        cessPaise (charge a +
          applySurchargeWithMarginalRelief a (charge a) brackets cap charge) rates ≤
      charge b + applySurchargeWithMarginalRelief b (charge b) brackets cap charge +
        cessPaise (charge b +
          applySurchargeWithMarginalRelief b (charge b) brackets cap charge) rates ↔
      SurchargeKept charge brackets cap a b := by
  have hrise := h.steady a b hab
  rw [with_cess_le_iff hc, h.tax_with_surcharge hn, h.tax_with_surcharge (by omega),
    relieved_le_iff_full h.steady h.climbs (fun s hs => (h.rate_pos s hs).le) h.separate hab hn,
    h.kept_iff hab]

end Caflow.IncomeTax
