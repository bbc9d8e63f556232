import Caflow.Lib.DayCount

namespace Caflow.IncomeTax.Section32
open Calendar (Day)

def halfRateDays : ℕ := 180

/-- The last put-to-use date that still earns the full rate, as a day count. -/
def halfRateCutoff (fyEnd : Day) : ℕ := fyEnd.ordinal - (halfRateDays - 1)

/-- An asset acquired during the year and falling into the block. -/
structure Addition where
  label : String
  costPaise : ℤ
  putToUseDate : Option Day
  additionalDepreciationEligible : Bool

/-- An asset of the block sold, discarded, demolished or destroyed. -/
structure Deletion where
  label : String
  moneysPayablePaise : ℤ

/-- A nature and a rate. Whether an asset of it remains is told, never inferred. -/
structure Block where
  key : String
  ratePercent : ℤ
  openingWdvPaise : ℤ
  additions : List Addition
  deletions : List Deletion
  assetsRemain : Option Bool

/-- The working of a block's year. A gain under section 50 is positive and a loss negative; a split
between the rates is left unstated where the allowance was held down. -/
structure BlockResult where
  key : String
  ratePercent : ℤ
  openingWdvPaise : ℤ
  additionsFullRatePaise : ℤ
  additionsHalfRatePaise : ℤ
  additionsNotPutToUsePaise : ℤ
  deletionsPaise : ℤ
  wdvBeforeDepreciationPaise : ℤ
  depreciationPaise : ℤ
  additionalDepreciationPaise : ℤ
  closingWdvPaise : ℤ
  shortTermCapitalGainPaise : ℤ
  gaps : List String
  realizationAgainstFullPaise : ℤ
  realizationAgainstHalfPaise : ℤ
  depreciationBaseFullPaise : ℤ
  depreciationBaseHalfPaise : ℤ
  depreciationAtFullRatePaise : Option ℤ
  depreciationAtHalfRatePaise : Option ℤ
  additionalOnFullRateAdditionsPaise : Option ℤ
  additionalOnHalfRateAdditionsPaise : Option ℤ

def BlockResult.totalAllowancePaise (r : BlockResult) : ℤ :=
  r.depreciationPaise + r.additionalDepreciationPaise

/-- The additions the year's rates apply to. -/
def BlockResult.additionsPaise (r : BlockResult) : ℤ :=
  r.additionsFullRatePaise + r.additionsHalfRatePaise

/-- A rate of an amount in whole paise, a half away from zero. The rate is what is halved. -/
def pct (amount ratePercent : ℤ) (half : Bool) : ℤ :=
  let numerator := amount * ratePercent
  let denominator := if half then 200 else 100
  if numerator < 0 then -((-numerator + denominator / 2) / denominator)
  else (numerator + denominator / 2) / denominator

/-- What the additions come to so far. -/
structure Taken where
  full : ℤ
  half : ℤ
  notYet : ℤ
  additional : ℤ
  additionalFull : ℤ
  additionalHalf : ℤ
  gaps : List String

def Taken.leaveOut (t : Taken) (a : Addition) (gaps : List String) : Taken :=
  { t with notYet := t.notYet + a.costPaise, gaps := t.gaps ++ gaps }

def addAddition (fyEnd : Day) (t : Taken) (a : Addition) : Taken :=
  match a.putToUseDate with
  | none => t.leaveOut a [a.label ++ ": no put-to-use date, so the second proviso to §32(1) could " ++
      "not be applied. The addition is excluded from the depreciable base — supply the date it " ++
      "was put to use."]
  | some put =>
    if fyEnd < put then t.leaveOut a []
    else if put < Day.of (fyEnd.year - 1) 4 1 then
      t.leaveOut a [a.label ++ ": put to use before this previous year began, so it is not an " ++
        "addition of this year. Check the opening written-down value instead."]
    else if put.ordinal ≤ halfRateCutoff fyEnd then
      let placed := { t with full := t.full + a.costPaise }
      if a.additionalDepreciationEligible then
        { placed with
          additional := t.additional + pct a.costPaise 20 false
          additionalFull := t.additionalFull + pct a.costPaise 20 false }
      else placed
    else
      let placed := { t with half := t.half + a.costPaise }
      if a.additionalDepreciationEligible then
        { placed with
          additional := t.additional + pct a.costPaise 20 true
          additionalHalf := t.additionalHalf + pct a.costPaise 20 true
          gaps := t.gaps ++ [a.label ++ ": half of the §32(1)(iia) additional depreciation is " ++
            "allowed in the FOLLOWING previous year under the third proviso. It is not carried " ++
            "forward here."] }
      else placed

def takenOf (fyEnd : Day) (additions : List Addition) : Taken :=
  additions.foldl (addAddition fyEnd) ⟨0, 0, 0, 0, 0, 0, []⟩

def assetsNotStated : String :=
  "Whether any asset of this block remains at the year end was not stated. §50 turns an emptied " ++
    "block into a short-term capital loss and allows no depreciation on it, and a positive " ++
    "written-down value does not settle the question. Depreciation below assumes the block still " ++
    "exists."

/-- A split that gives the figure it is a split of. -/
def splitOf (whole full half : ℤ) : Option ℤ × Option ℤ :=
  if whole = full + half then (some full, some half) else (none, none)

/-- Section 32 depreciation for one block for one previous year. -/
def computeBlock (block : Block) (fyEnd : Day) : BlockResult :=
  let t := takenOf fyEnd block.additions
  let deletions := (block.deletions.map (·.moneysPayablePaise)).sum
  -- the moneys payable bite the full-rate part first
  let take := min (block.openingWdvPaise + t.full) deletions
  let baseFull := block.openingWdvPaise + t.full - take
  let baseHalf := max 0 (t.half - (deletions - take))
  let wdvBefore := block.openingWdvPaise + t.full + t.half - deletions
  let gone : BlockResult :=
    { key := block.key
      ratePercent := block.ratePercent
      openingWdvPaise := block.openingWdvPaise
      additionsFullRatePaise := t.full
      additionsHalfRatePaise := t.half
      additionsNotPutToUsePaise := t.notYet
      deletionsPaise := deletions
      wdvBeforeDepreciationPaise := wdvBefore
      depreciationPaise := 0
      additionalDepreciationPaise := 0
      closingWdvPaise := 0
      shortTermCapitalGainPaise := -wdvBefore
      gaps := t.gaps
      realizationAgainstFullPaise := take
      realizationAgainstHalfPaise := t.half - baseHalf
      depreciationBaseFullPaise := 0
      depreciationBaseHalfPaise := 0
      depreciationAtFullRatePaise := some 0
      depreciationAtHalfRatePaise := some 0
      additionalOnFullRateAdditionsPaise := some 0
      additionalOnHalfRateAdditionsPaise := some 0 }
  -- section 50: the moneys payable exceeded the block, or no asset of it is left
  if wdvBefore < 0 ∨ block.assetsRemain = some false then gone
  else
    let depFull := pct baseFull block.ratePercent false
    let depHalf := pct baseHalf block.ratePercent true
    let depreciation := min (depFull + depHalf) (max 0 wdvBefore)
    let additional := min t.additional (max 0 (wdvBefore - depreciation))
    { gone with
      depreciationPaise := depreciation
      additionalDepreciationPaise := additional
      closingWdvPaise := max 0 (wdvBefore - depreciation - additional)
      shortTermCapitalGainPaise := 0
      gaps := if block.assetsRemain = none then t.gaps ++ [assetsNotStated] else t.gaps
      depreciationBaseFullPaise := baseFull
      depreciationBaseHalfPaise := baseHalf
      depreciationAtFullRatePaise := (splitOf depreciation depFull depHalf).1
      depreciationAtHalfRatePaise := (splitOf depreciation depFull depHalf).2
      additionalOnFullRateAdditionsPaise := (splitOf additional t.additionalFull t.additionalHalf).1
      additionalOnHalfRateAdditionsPaise :=
        (splitOf additional t.additionalFull t.additionalHalf).2 }

section
variable {block : Block} {fyEnd : Day} {amount rate opening : ℤ}

theorem pct_nonneg (hamount : 0 ≤ amount) (hrate : 0 ≤ rate) (half : Bool) :
    0 ≤ pct amount rate half := by
  have hproduct : 0 ≤ amount * rate := mul_nonneg hamount hrate
  unfold pct
  dsimp only
  rw [if_neg (not_lt.mpr hproduct)]
  cases half with
  | true => exact Int.ediv_nonneg (by simpa using hproduct.trans (by omega)) (by decide)
  | false => exact Int.ediv_nonneg (by simpa using hproduct.trans (by omega)) (by decide)

/-- No figure of the additions is negative. -/
structure Taken.NonNegative (t : Taken) : Prop where
  full : 0 ≤ t.full
  half : 0 ≤ t.half
  additional : 0 ≤ t.additional

theorem Taken.NonNegative.add {t : Taken} {a : Addition} (h : t.NonNegative)
    (hcost : 0 ≤ a.costPaise) : (addAddition fyEnd t a).NonNegative := by
  have hpct : ∀ half, 0 ≤ pct a.costPaise 20 half := pct_nonneg hcost (by decide)
  unfold addAddition
  split
  · exact ⟨h.full, h.half, h.additional⟩
  · split_ifs
    · exact ⟨h.full, h.half, h.additional⟩
    · exact ⟨h.full, h.half, h.additional⟩
    · exact ⟨add_nonneg h.full hcost, h.half, add_nonneg h.additional (hpct false)⟩
    · exact ⟨add_nonneg h.full hcost, h.half, h.additional⟩
    · exact ⟨h.full, add_nonneg h.half hcost, add_nonneg h.additional (hpct true)⟩
    · exact ⟨h.full, add_nonneg h.half hcost, h.additional⟩

theorem taken_nonneg {additions : List Addition} (h : ∀ a ∈ additions, 0 ≤ a.costPaise) :
    (takenOf fyEnd additions).NonNegative := by
  unfold takenOf
  refine List.foldlRecOn additions (addAddition fyEnd) ⟨le_rfl, le_rfl, le_rfl⟩ ?_
  intro t ht a ha
  exact ht.add (h a ha)

/-- What a block's figures are entered as: nothing negative. -/
structure Block.NonNegative (block : Block) : Prop where
  rate : 0 ≤ block.ratePercent
  opening : 0 ≤ block.openingWdvPaise
  costs : ∀ a ∈ block.additions, 0 ≤ a.costPaise
  moneys : ∀ d ∈ block.deletions, 0 ≤ d.moneysPayablePaise

/-- Section 50 closes a block that the moneys payable exceed or that has no asset left. -/
def Closed (block : Block) (r : BlockResult) : Prop :=
  r.wdvBeforeDepreciationPaise < 0 ∨ block.assetsRemain = some false

/-- A year of a block accounts for what was there and what came in. -/
structure Balances (block : Block) (r : BlockResult) : Prop where
  identity : block.openingWdvPaise + r.additionsPaise - r.deletionsPaise +
      r.shortTermCapitalGainPaise =
    r.closingWdvPaise + r.depreciationPaise + r.additionalDepreciationPaise
  closing : 0 ≤ r.closingWdvPaise
  within : 0 ≤ r.totalAllowancePaise ∧
    r.totalAllowancePaise ≤ max 0 r.wdvBeforeDepreciationPaise
  gone : Closed block r → r.totalAllowancePaise = 0 ∧ r.closingWdvPaise = 0
  kept : ¬ Closed block r → r.shortTermCapitalGainPaise = 0

theorem compute_block_balances (h : block.NonNegative) :
    Balances block (computeBlock block fyEnd) := by
  have ht : (takenOf fyEnd block.additions).NonNegative := taken_nonneg h.costs
  unfold computeBlock
  dsimp only
  set t := takenOf fyEnd block.additions
  set deletions := (block.deletions.map (·.moneysPayablePaise)).sum
  split
  · rename_i hclosed
    refine ⟨?_, le_rfl, ⟨le_rfl, le_max_left _ _⟩, fun _ => ⟨rfl, rfl⟩, fun hkept => ?_⟩
    · simp only [BlockResult.additionsPaise]
      ring
    · exact absurd hclosed hkept
  · rename_i hopen
    obtain ⟨hwdv, -⟩ := not_or.mp hopen
    have hfull : 0 ≤ pct (block.openingWdvPaise + t.full -
        min (block.openingWdvPaise + t.full) deletions) block.ratePercent false :=
      pct_nonneg (sub_nonneg.mpr (min_le_left _ _)) h.rate false
    have hhalf : 0 ≤ pct (max 0 (t.half -
        (deletions - min (block.openingWdvPaise + t.full) deletions))) block.ratePercent true :=
      pct_nonneg (le_max_left _ _) h.rate true
    have hadditional := ht.additional
    refine ⟨?_, le_max_left _ _, ⟨?_, ?_⟩, fun hclosed => absurd hclosed hopen, fun _ => rfl⟩
    · simp only [BlockResult.additionsPaise]
      omega
    · simp only [BlockResult.totalAllowancePaise]
      omega
    · simp only [BlockResult.totalAllowancePaise]
      omega

theorem additions_paise : (computeBlock block fyEnd).additionsPaise =
    (takenOf fyEnd block.additions).full + (takenOf fyEnd block.additions).half := by
  unfold computeBlock
  dsimp only
  split
  · rfl
  · rfl

theorem deletions_paise : (computeBlock block fyEnd).deletionsPaise =
    (block.deletions.map (·.moneysPayablePaise)).sum := by
  unfold computeBlock
  dsimp only
  split
  · rfl
  · rfl

/-- What a year is allowed and what it leaves are no more than what it began with and what came
in. -/
theorem compute_block_spent (h : block.NonNegative) :
    (computeBlock block fyEnd).totalAllowancePaise + (computeBlock block fyEnd).closingWdvPaise ≤
      block.openingWdvPaise + (computeBlock block fyEnd).additionsPaise := by
  have hbalances : Balances block (computeBlock block fyEnd) := compute_block_balances h
  have hopening := h.opening
  have hmoneys : 0 ≤ (computeBlock block fyEnd).deletionsPaise := by
    rw [deletions_paise]
    exact List.sum_nonneg (List.forall_mem_map.mpr h.moneys)
  have hadditions : 0 ≤ (computeBlock block fyEnd).additionsPaise := by
    have ht : (takenOf fyEnd block.additions).NonNegative := taken_nonneg h.costs
    rw [additions_paise]
    exact add_nonneg ht.full ht.half
  by_cases hclosed : Closed block (computeBlock block fyEnd)
  · obtain ⟨hallowance, hclosing⟩ := hbalances.gone hclosed
    omega
  · have hgain := hbalances.kept hclosed
    have hidentity := hbalances.identity
    simp only [BlockResult.totalAllowancePaise]
    omega

/-- A year opens with what the one before left. -/
def Carried (year next : Block × Day) : Prop :=
  next.1.openingWdvPaise = (computeBlock year.1 year.2).closingWdvPaise

def totalAllowance (years : List (Block × Day)) : ℤ :=
  (years.map fun year => (computeBlock year.1 year.2).totalAllowancePaise).sum

def totalAdditions (years : List (Block × Day)) : ℤ :=
  (years.map fun year => (computeBlock year.1 year.2).additionsPaise).sum

theorem years_spent {first : Block × Day} {rest : List (Block × Day)}
    (h : ∀ year ∈ first :: rest, year.1.NonNegative) (hchain : (first :: rest).IsChain Carried) :
    totalAllowance (first :: rest) ≤ first.1.openingWdvPaise + totalAdditions (first :: rest) := by
  have hfirst := @compute_block_spent first.1 first.2 (h first List.mem_cons_self)
  have hclosing := (@compute_block_balances first.1 first.2 (h first List.mem_cons_self)).closing
  induction rest generalizing first with
  | nil =>
    simp only [totalAllowance, totalAdditions, List.map_cons, List.map_nil, List.sum_cons,
      List.sum_nil]
    omega
  | cons next rest ih =>
    obtain ⟨hcarried, hrest⟩ := List.isChain_cons_cons.mp hchain
    have hnext := fun year hyear => h year (List.mem_cons_of_mem first hyear)
    have hlater := ih hnext hrest (compute_block_spent (hnext next List.mem_cons_self))
      (compute_block_balances (hnext next List.mem_cons_self)).closing
    have hopens : next.1.openingWdvPaise = (computeBlock first.1 first.2).closingWdvPaise := hcarried
    simp only [totalAllowance, totalAdditions, List.map_cons, List.sum_cons] at hlater ⊢
    omega

/-- Over a chain of years every one of them balances, and all that is allowed is no more than what
the block opened with and what came in. -/
theorem years_balance {first : Block × Day} {rest : List (Block × Day)}
    (h : ∀ year ∈ first :: rest, year.1.NonNegative) (hchain : (first :: rest).IsChain Carried) :
    (∀ year ∈ first :: rest, Balances year.1 (computeBlock year.1 year.2)) ∧
      totalAllowance (first :: rest) ≤ first.1.openingWdvPaise + totalAdditions (first :: rest) :=
  ⟨fun year hyear => compute_block_balances (h year hyear), years_spent h hchain⟩

end

/-- Computers bought in June and in January, then a year in which the block is sold for more than it
is worth. -/
theorem two_years_balance :
    let first : Block := ⟨"computers", 40, 10000001,
      [⟨"server", 5000000, some (.of 2025 6 1), true⟩, ⟨"laptops", 2500000, some (.of 2026 1 10), true⟩],
      [⟨"old desktops", 300000⟩], some true⟩
    let last : Block := ⟨"computers", 40, 9570001, [], [⟨"all of it", 20000000⟩], none⟩
    let years : List (Block × Day) := [(first, .of 2026 3 31), (last, .of 2027 3 31)]
    (∀ year ∈ years, Balances year.1 (computeBlock year.1 year.2)) ∧
      totalAllowance years ≤ 10000001 + totalAdditions years := by
  intro first last years
  have hcarried : last.openingWdvPaise = (computeBlock first (.of 2026 3 31)).closingWdvPaise := by
    decide +kernel
  refine years_balance ?_ (List.isChain_cons_cons.mpr ⟨hcarried, .singleton _⟩)
  intro year hyear
  rcases List.mem_cons.mp hyear with rfl | hyear
  · exact ⟨by decide, by decide, by decide, by decide⟩
  · obtain rfl := List.mem_singleton.mp hyear
    exact ⟨by decide, by decide, by decide, by decide⟩

end Caflow.IncomeTax.Section32
