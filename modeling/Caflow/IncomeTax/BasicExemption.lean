import Caflow.IncomeTax.StatutoryRates
import Caflow.Lib.HighestFirst
import Caflow.Lib.SortByKey
import Caflow.Text

set_option linter.all false

namespace Caflow.IncomeTax.BasicExemption
open HighestFirst Text

/-- The year's special rates on capital gains, in basis points. -/
structure CapitalGainRates where
  stcg111aRateBps : ℤ
  ltcg112aRateBps : ℤ
  ltcg112aExemptionPaise : ℤ
  ltcg112OtherRateBps : ℤ

def capitalGains2025_26 : CapitalGainRates := ⟨2000, 1250, 12500000, 1250⟩

/-- What of a request the absorption reads. -/
structure ITRComputeRequest where
  assesseeKind : String
  isResident : Bool
  useNewRegime : Bool
  isSeniorCitizen : Bool
  isVerySeniorCitizen : Bool

/-- The kinds of assessee the three provisos name. -/
def absorptionReach : List String := ["individual", "huf"]

/-- Gains under one section, and the rate they are charged at. -/
structure Bucket where
  label : String
  basePaise : ℤ
  rateBps : ℤ

/-- The nil-rate brackets a table begins with, from what was read before. -/
def nilLimit (limit : ℤ) : List SlabBracket → ℤ
  | [] => limit
  | b :: bs =>
    if b.ratePercent ≠ 0 then limit
    else match b.uptoPaise with
      | none => limit
      | some upto => nilLimit upto bs

def basicExemptionPaise (slabs : List SlabBracket) : ℤ := nilLimit 0 slabs

/-- Paise in whole rupees inside a sentence. -/
def rupeeWholeText (paise : ℤ) : String :=
  let whole := paise.natAbs / 100
  (if paise < 0 ∧ whole ≠ 0 then "minus " else "") ++ "₹" ++
    String.ofList (groupIndian (toString whole).toList)

/-- What is left of the exemption, what each bucket is still charged on, and what was absorbed. -/
structure Absorption (n : ℕ) where
  unused : ℤ
  charged : Fin n → ℤ
  absorbedPaise : ℤ
  notes : List String

section
variable (buckets : List Bucket)

def base (i : Fin buckets.length) : ℤ := max 0 (buckets.get i).basePaise

def rate (i : Fin buckets.length) : ℤ := (buckets.get i).rateBps

/-- The highest rate first, and as they came where rates are equal. -/
def rateKey (i : Fin buckets.length) : ℤ ×ₗ Fin buckets.length := toLex (-rate buckets i, i)

def ratesDown : List (Fin buckets.length) :=
  (List.finRange buckets.length).insertionSort fun i j => rateKey buckets i ≤ rateKey buckets j

def absorbStep (s : Absorption buckets.length) (i : Fin buckets.length) :
    Absorption buckets.length :=
  let take := min s.unused (s.charged i)
  if s.unused ≤ 0 ∨ take ≤ 0 then s
  else
    { unused := s.unused - take
      charged := Function.update s.charged i (s.charged i - take)
      absorbedPaise := s.absorbedPaise + take
      notes := s.notes ++ [(buckets.get i).label ++ ": " ++ rupeeWholeText take ++
        " of the unused basic exemption set against this gain, and tax charged on the balance."] }

def untouched (unused : ℤ) : Absorption buckets.length := ⟨unused, base buckets, 0, []⟩

def absorbBasicExemption (req : ITRComputeRequest) (rates : FYTaxRates) (ordinaryTaxable : ℤ) :
    Absorption buckets.length :=
  if ∀ i, base buckets i = 0 then untouched buckets 0
  else if req.assesseeKind ∉ absorptionReach ∨ req.isResident = false then untouched buckets 0
  else
    let slabs := slabsFor rates req.useNewRegime req.isSeniorCitizen req.isVerySeniorCitizen
    let unused := basicExemptionPaise slabs - max 0 ordinaryTaxable
    if unused ≤ 0 then untouched buckets 0
    else (ratesDown buckets).foldl (absorbStep buckets) (untouched buckets unused)

end

/-- The exemption that slab income leaves to be set against gains, for an assessee the provisos
reach. -/
def unusedExemption (req : ITRComputeRequest) (rates : FYTaxRates) (ordinaryTaxable : ℤ) : ℤ :=
  if req.assesseeKind ∈ absorptionReach ∧ req.isResident then
    max 0 (basicExemptionPaise
      (slabsFor rates req.useNewRegime req.isSeniorCitizen req.isVerySeniorCitizen) -
        max 0 ordinaryTaxable)
  else 0

/-- A row of the working of the special-rate tax. -/
structure CapitalGainsLine where
  bucket : Bucket
  grossPaise : ℤ
  exemptPaise : ℤ
  absorbedPaise : ℤ
  chargedPaise : ℤ
  taxPaise : ℤ

def stcgBucket (cg : CapitalGainRates) (stcg : ℤ) : Bucket :=
  ⟨"§111A (STCG on equity)", stcg, cg.stcg111aRateBps⟩

/-- The exemption of section 112A comes off before the absorption. -/
def ltcgBucket (cg : CapitalGainRates) (ltcg : ℤ) : Bucket :=
  ⟨"§112A (LTCG on equity)", max 0 (ltcg - cg.ltcg112aExemptionPaise), cg.ltcg112aRateBps⟩

def ltcgOtherBucket (cg : CapitalGainRates) (ltcgOther : ℤ) : Bucket :=
  ⟨"§112 (LTCG on other assets)", ltcgOther, cg.ltcg112OtherRateBps⟩

def gainBuckets (cg : CapitalGainRates) (stcg ltcg ltcgOther : ℤ) : List Bucket :=
  [stcgBucket cg stcg, ltcgBucket cg ltcg, ltcgOtherBucket cg ltcgOther]

/-- The working of the gains, after set-off, that an assessee's year is charged on. -/
def capitalGainsLines (req : ITRComputeRequest) (rates : FYTaxRates) (cg : CapitalGainRates)
    (ordinaryTaxable stcg ltcg ltcgOther : ℤ) : List CapitalGainsLine :=
  let charged : Fin 3 → ℤ :=
    (absorbBasicExemption (gainBuckets cg stcg ltcg ltcgOther) req rates ordinaryTaxable).charged
  let line (i : Fin 3) (bucket : Bucket) (gross exempt : ℤ) : CapitalGainsLine :=
    { bucket := bucket
      grossPaise := gross
      exemptPaise := exempt
      absorbedPaise := bucket.basePaise - charged i
      chargedPaise := charged i
      taxPaise := charged i * bucket.rateBps / 10000 }
  [line 0 (stcgBucket cg stcg) stcg 0,
    line 1 (ltcgBucket cg ltcg) ltcg (min ltcg cg.ltcg112aExemptionPaise),
    line 2 (ltcgOtherBucket cg ltcgOther) ltcgOther 0]

section
variable {buckets : List Bucket} {s : Absorption buckets.length} {unused : ℤ}
  {done rest : List (Fin buckets.length)} {k : Fin buckets.length}

/-- How the absorption stands between two buckets: those done are exhausted or the exemption is,
those to come are whole. -/
structure Midway (buckets : List Bucket) (unused : ℤ) (done : List (Fin buckets.length))
    (s : Absorption buckets.length) : Prop where
  left : 0 ≤ s.unused
  within : ∀ i, 0 ≤ s.charged i ∧ s.charged i ≤ base buckets i
  whole : ∀ i, i ∉ done → s.charged i = base buckets i
  spent : s.unused + ∑ i, (base buckets i - s.charged i) = unused
  absorbed : s.absorbedPaise = ∑ i, (base buckets i - s.charged i)
  exhausted : ∀ i ∈ done, s.charged i = 0 ∨ s.unused = 0
  topDown : TopDown Finset.univ (base buckets) (rate buckets) fun i => base buckets i - s.charged i

theorem midway_start (hunused : 0 ≤ unused) : Midway buckets unused [] (untouched buckets unused)
    where
  left := hunused
  within := fun i => ⟨le_max_left _ _, le_rfl⟩
  whole := fun i _ => rfl
  spent := by simp [untouched]
  absorbed := by simp [untouched]
  exhausted := fun i hi => absurd hi List.not_mem_nil
  topDown := by
    intro i _ j _ _ htaken
    simp [untouched] at htaken

theorem Midway.step (h : Midway buckets unused done s) (hnew : k ∉ done)
    (hlower : ∀ i ∈ done, rate buckets k ≤ rate buckets i)
    (hhigher : ∀ i, rate buckets k < rate buckets i → i ∈ done) :
    Midway buckets unused (done ++ [k]) (absorbStep buckets s k) := by
  unfold absorbStep
  dsimp only
  have hk := h.within k
  split
  · rename_i hstays
    refine ⟨h.left, h.within, fun i hi => h.whole i fun hdone => hi (List.mem_append_left _ hdone),
      h.spent, h.absorbed, fun i hi => ?_, h.topDown⟩
    rcases List.mem_append.mp hi with hdone | hlast
    · exact h.exhausted i hdone
    · rw [List.mem_singleton.mp hlast]
      have := h.left
      omega
  · rename_i hmoves
    obtain ⟨hleft, htake⟩ := not_or.mp hmoves
    have hown : s.charged k = base buckets k := h.whole k hnew
    set take := min s.unused (s.charged k) with htaken
    have hcharged : ∀ i, base buckets i - Function.update s.charged k (s.charged k - take) i =
        (base buckets i - s.charged i) + if i = k then take else 0 := by
      intro i
      by_cases hi : i = k
      · rw [hi, Function.update_self, if_pos rfl]
        ring
      · rw [Function.update_of_ne hi, if_neg hi, add_zero]
    have hsum : ∑ i, (base buckets i - Function.update s.charged k (s.charged k - take) i) =
        ∑ i, (base buckets i - s.charged i) + take := by
      rw [Finset.sum_congr rfl fun i _ => hcharged i, Finset.sum_add_distrib,
        Finset.sum_ite_eq' Finset.univ k, if_pos (Finset.mem_univ k)]
    have hemptied : ∀ i ∈ done, s.charged i = 0 := fun i hi =>
      (h.exhausted i hi).resolve_right (by omega)
    refine ⟨?_, fun i => ?_, fun i hi => ?_, ?_, ?_, fun i hi => ?_, fun i hi j hj hlt hpos => ?_⟩
    · dsimp only
      omega
    · dsimp only
      by_cases hi : i = k
      · rw [hi, Function.update_self]
        omega
      · rw [Function.update_of_ne hi]
        exact h.within i
    · rw [List.mem_append, List.mem_singleton, not_or] at hi
      dsimp only
      rw [Function.update_of_ne hi.2]
      exact h.whole i hi.1
    · rw [hsum]
      have := h.spent
      dsimp only
      omega
    · dsimp only
      rw [hsum, h.absorbed]
    · dsimp only
      rcases List.mem_append.mp hi with hdone | hlast
      · have hne : i ≠ k := fun heq => hnew (heq ▸ hdone)
        rw [Function.update_of_ne hne]
        exact .inl (hemptied i hdone)
      · rw [List.mem_singleton.mp hlast, Function.update_self]
        omega
    · dsimp only at hpos ⊢
      rw [hcharged] at hpos ⊢
      by_cases hik : i = k
      · -- nothing of a lower rate has been taken from yet
        rw [hik] at hlt
        have hjk : j ≠ k := fun heq => by rw [heq] at hlt; exact lt_irrefl _ hlt
        have hlater : j ∉ done := fun hdone => absurd (hlower j hdone) (not_le.mpr hlt)
        rw [if_neg hjk, h.whole j hlater, sub_self, add_zero] at hpos
        exact absurd hpos (lt_irrefl 0)
      · rw [if_neg hik, add_zero]
        by_cases hjk : j = k
        · rw [hjk] at hlt
          rw [hemptied i (hhigher i hlt), sub_zero]
        · rw [if_neg hjk, add_zero] at hpos
          exact h.topDown i hi j hj hlt hpos

theorem rates_down_sorted (buckets : List Bucket) :
    (ratesDown buckets).Pairwise fun i j => rate buckets j ≤ rate buckets i := by
  have hsorted : (ratesDown buckets).Pairwise fun i j => rateKey buckets i ≤ rateKey buckets j :=
    SortByKey.sorted_pairwise (List.finRange _)
  refine hsorted.imp fun hle => ?_
  exact neg_le_neg_iff.mp (Prod.Lex.monotone_fst _ _ hle)

theorem mem_rates_down (i : Fin buckets.length) : i ∈ ratesDown buckets :=
  (List.perm_insertionSort _ _).mem_iff.mpr (List.mem_finRange i)

theorem rates_down_nodup (buckets : List Bucket) : (ratesDown buckets).Nodup :=
  (List.perm_insertionSort _ _).nodup_iff.mpr (List.nodup_finRange _)

/-- The buckets still to come, one after the other. -/
theorem Midway.absorb (h : Midway buckets unused done s) (hall : ∀ i, i ∈ done ++ rest)
    (hnodup : (done ++ rest).Nodup)
    (hsorted : (done ++ rest).Pairwise fun i j => rate buckets j ≤ rate buckets i) :
    Midway buckets unused (done ++ rest) (rest.foldl (absorbStep buckets) s) := by
  induction rest generalizing done s with
  | nil => rwa [List.append_nil]
  | cons k rest ih =>
    have hsplit : done ++ k :: rest = done ++ [k] ++ rest := by simp
    obtain ⟨-, hlast, hbefore⟩ := List.pairwise_append.mp hsorted
    have hnew : k ∉ done := fun hk =>
      (List.nodup_append.mp hnodup).2.2 k hk k List.mem_cons_self rfl
    have hstep := h.step hnew (fun i hi => hbefore i hi k List.mem_cons_self) fun i hlt => by
      rcases List.mem_append.mp (hall i) with hdone | hcome
      · exact hdone
      · rcases List.mem_cons.mp hcome with rfl | hrest
        · exact absurd hlt (lt_irrefl _)
        · exact absurd ((List.pairwise_cons.mp hlast).1 i hrest) (not_le.mpr hlt)
    rw [hsplit] at hall hnodup hsorted ⊢
    exact ih hstep hall hnodup hsorted

/-- What comes out takes what there is from the highest rate down, and no bucket below nil. -/
structure Absorbed (buckets : List Bucket) (unused : ℤ) (a : Absorption buckets.length) : Prop where
  within : ∀ i, 0 ≤ a.charged i ∧ a.charged i ≤ base buckets i
  total : ∑ i, (base buckets i - a.charged i) = min unused (∑ i, base buckets i)
  recorded : a.absorbedPaise = ∑ i, (base buckets i - a.charged i)
  topDown : TopDown Finset.univ (base buckets) (rate buckets) fun i => base buckets i - a.charged i

theorem Midway.ended (h : Midway buckets unused done s) (hall : ∀ i, i ∈ done) :
    Absorbed buckets unused s := by
  refine ⟨h.within, ?_, h.absorbed, h.topDown⟩
  have hspent := h.spent
  have hmost : ∑ i, (base buckets i - s.charged i) ≤ ∑ i, base buckets i :=
    Finset.sum_le_sum fun i _ => sub_le_self _ (h.within i).1
  by_cases hleft : s.unused = 0
  · omega
  · have hgone : ∑ i, (base buckets i - s.charged i) = ∑ i, base buckets i :=
      Finset.sum_congr rfl fun i _ => by
        rw [(h.exhausted i (hall i)).resolve_right hleft, sub_zero]
    have := h.left
    omega

/-- Nothing is absorbed where there is nothing to absorb or nothing to absorb it. -/
theorem untouched_absorbed (hnothing : unused = 0 ∨ ∀ i, base buckets i = 0)
    (hunused : 0 ≤ unused) : Absorbed buckets unused (untouched buckets 0) := by
  have hzero : ∑ i, (base buckets i - (untouched buckets 0).charged i) = 0 :=
    Finset.sum_eq_zero fun i _ => sub_self _
  have hbases : 0 ≤ ∑ i, base buckets i := Finset.sum_nonneg fun i _ => le_max_left _ _
  refine ⟨fun i => ⟨le_max_left _ _, le_rfl⟩, ?_, hzero.symm, ?_⟩
  · rw [hzero]
    rcases hnothing with rfl | hnone
    · exact (min_eq_left hbases).symm
    · rw [Finset.sum_eq_zero fun i _ => hnone i]
      exact (min_eq_right hunused).symm
  · intro i _ j _ _ htaken
    exact absurd (sub_pos.mp htaken) (lt_irrefl _)

theorem unused_nonneg (req : ITRComputeRequest) (rates : FYTaxRates) (ordinaryTaxable : ℤ) :
    0 ≤ unusedExemption req rates ordinaryTaxable := by
  unfold unusedExemption
  split
  · exact le_max_left _ _
  · exact le_rfl

theorem absorb_absorbed (buckets : List Bucket) (req : ITRComputeRequest) (rates : FYTaxRates)
    (ordinaryTaxable : ℤ) :
    Absorbed buckets (unusedExemption req rates ordinaryTaxable)
      (absorbBasicExemption buckets req rates ordinaryTaxable) := by
  by_cases hnone : ∀ i, base buckets i = 0
  · rw [absorbBasicExemption, if_pos hnone]
    exact untouched_absorbed (.inr hnone) (unused_nonneg req rates ordinaryTaxable)
  · rw [absorbBasicExemption, if_neg hnone, unusedExemption]
    by_cases hreached : req.assesseeKind ∈ absorptionReach ∧ req.isResident
    · rw [if_pos hreached, if_neg (by simp [hreached.1, hreached.2])]
      dsimp only
      split
      · rename_i hused
        rw [max_eq_left hused]
        exact untouched_absorbed (.inl rfl) le_rfl
      · rename_i hunused
        rw [max_eq_right (not_le.mp hunused).le]
        have hended := (@midway_start buckets _ (not_le.mp hunused).le).absorb mem_rates_down
          (rates_down_nodup buckets) (rates_down_sorted buckets)
        exact hended.ended mem_rates_down
    · rw [if_neg hreached, if_pos (by simpa [imp_iff_not_or] using hreached)]
      exact untouched_absorbed (.inl rfl) le_rfl

/-- No other way to take the same from the gains leaves less tax on them. -/
theorem Absorbed.least {a : Absorption buckets.length} (h : Absorbed buckets unused a)
    {other : Fin buckets.length → ℤ} (hother : ∀ i, 0 ≤ other i ∧ other i ≤ base buckets i)
    (htotal : ∑ i, other i = ∑ i, (base buckets i - a.charged i)) :
    ∑ i, a.charged i * rate buckets i ≤ ∑ i, (base buckets i - other i) * rate buckets i := by
  have hmost := h.topDown.most (fun i _ => sub_nonneg.mpr (h.within i).2) (fun i _ => hother i) htotal
  have hcharged : ∑ i, a.charged i * rate buckets i = ∑ i, base buckets i * rate buckets i -
      ∑ i, (base buckets i - a.charged i) * rate buckets i := by
    rw [← Finset.sum_sub_distrib]
    exact Finset.sum_congr rfl fun i _ => by ring
  have hleft : ∑ i, (base buckets i - other i) * rate buckets i =
      ∑ i, base buckets i * rate buckets i - ∑ i, other i * rate buckets i := by
    rw [← Finset.sum_sub_distrib]
    exact Finset.sum_congr rfl fun i _ => by ring
  rw [hcharged, hleft]
  exact sub_le_sub_left hmost _

/-- A row accounts for the whole of its gain. -/
def CapitalGainsLine.Accounts (line : CapitalGainsLine) : Prop :=
  line.grossPaise = line.exemptPaise + line.absorbedPaise + line.chargedPaise

/-- Each gain is exempt, absorbed or charged, and all that is exempt is within the one exemption. -/
theorem capital_gains_lines_account (req : ITRComputeRequest) (rates : FYTaxRates)
    (cg : CapitalGainRates) (ordinaryTaxable stcg ltcg ltcgOther : ℤ) :
    let lines := capitalGainsLines req rates cg ordinaryTaxable stcg ltcg ltcgOther
    (∀ line ∈ lines, line.Accounts) ∧
      (lines.map (·.exemptPaise)).sum = min ltcg cg.ltcg112aExemptionPaise := by
  dsimp only
  unfold capitalGainsLines
  dsimp only
  refine ⟨?_, ?_⟩
  · simp only [List.forall_mem_cons, CapitalGainsLine.Accounts, stcgBucket, ltcgBucket,
      ltcgOtherBucket]
    refine ⟨by omega, by omega, by omega, ?_⟩
    intro line hline
    cases hline
  · simp

/-- What an assessee's unused exemption takes from the gains is all it can, within each of them, and
leaves the least tax that taking as much can; the exemption of section 112A is had once. -/
theorem exemption_absorbed_best (req : ITRComputeRequest) (rates : FYTaxRates)
    (ordinaryTaxable : ℤ) :
    (∀ buckets : List Bucket,
      let a := absorbBasicExemption buckets req rates ordinaryTaxable
      (∀ i, 0 ≤ a.charged i ∧ a.charged i ≤ base buckets i) ∧
      ∑ i, (base buckets i - a.charged i) =
        min (unusedExemption req rates ordinaryTaxable) (∑ i, base buckets i) ∧
      a.absorbedPaise = ∑ i, (base buckets i - a.charged i) ∧
      ∀ other : Fin buckets.length → ℤ, (∀ i, 0 ≤ other i ∧ other i ≤ base buckets i) →
        ∑ i, other i = ∑ i, (base buckets i - a.charged i) →
        ∑ i, a.charged i * rate buckets i ≤ ∑ i, (base buckets i - other i) * rate buckets i) ∧
    ∀ (cg : CapitalGainRates) (stcg ltcg ltcgOther : ℤ),
      let lines := capitalGainsLines req rates cg ordinaryTaxable stcg ltcg ltcgOther
      (∀ line ∈ lines, line.Accounts) ∧
        (lines.map (·.exemptPaise)).sum = min ltcg cg.ltcg112aExemptionPaise := by
  refine ⟨fun buckets => ?_, fun cg stcg ltcg ltcgOther => ?_⟩
  · have h := absorb_absorbed buckets req rates ordinaryTaxable
    exact ⟨h.within, h.total, h.recorded, fun other hother htotal => h.least hother htotal⟩
  · exact capital_gains_lines_account req rates cg ordinaryTaxable stcg ltcg ltcgOther

end

-- five lakhs of short-term gain on shares and no other income: four of them are the exemption
example : ((capitalGainsLines ⟨"individual", true, true, false, false⟩ fy2025_26 capitalGains2025_26 0
    50000000 0 0).map (·.taxPaise)) = [2000000, 0, 0] := by decide +kernel

end Caflow.IncomeTax.BasicExemption
