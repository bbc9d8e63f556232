import Caflow.IncomeTax.Rebate87A
import Caflow.Lib.Tally
import Caflow.Text

set_option linter.all false

namespace Caflow.Payroll
open IncomeTax Tally

/-- The part of an arrear that relates to one earlier year, with the total income that year was
assessed on. -/
structure ArrearSlice where
  fy : String
  amountPaise : ℤ
  totalIncomeThatYearPaise : Option ℤ
  deriving DecidableEq

inductive ArrearGap
  | receiptYearNotHeld (fy : String)
  | yearNotHeld (fy : String)
  | incomeNotRecorded (fy : String)

inductive ReliefBlocked
  | noArrears
  | receiptYearNotHeld (fy : String)
  | cannotBeQuantified
  | form10eNotFiled (reliefPaise : ℤ)

structure YearRow where
  fy : String
  arrearPaise : ℤ
  taxBeforePaise : ℤ
  taxAfterPaise : ℤ
  additionalTaxPaise : ℤ

structure ReliefResult where
  reliefPaise : ℤ := 0
  taxOnReceiptYearWithArrearsPaise : ℤ := 0
  taxOnReceiptYearWithoutArrearsPaise : ℤ := 0
  differenceAPaise : ℤ := 0
  differenceBPaise : ℤ := 0
  available : Bool := false
  blockedReason : Option ReliefBlocked := none
  gaps : List ArrearGap := []
  perYear : List YearRow := []

def ratesByFy : List (String × FYTaxRates) := [("2025-26", fy2025_26), ("2026-27", fy2026_27)]

/-- Whether the registry holds the year, rather than falling back. -/
def ratesExistFor (fy : String) : Bool := ratesByFy.any fun entry => entry.1 == fy

section
variable (currentFy : String)

/-- Tax on a total income for one year, at that year's rates. -/
def taxOf (incomePaise : ℤ) (fy : String) (useNewRegime : Bool) : ℤ :=
  otherIncomeTaxPaise currentFy (some fy) useNewRegime (max 0 incomePaise)

/-- The loop's body: an earlier year with and without its slice, or the gap it leaves. -/
def readSlice (useNewRegime : Bool) (slice : ArrearSlice) : Except ArrearGap YearRow :=
  if !ratesExistFor slice.fy then .error (.yearNotHeld slice.fy)
  else
    match slice.totalIncomeThatYearPaise with
    | none => .error (.incomeNotRecorded slice.fy)
    | some income =>
      let base := max 0 income
      let before := taxOf currentFy base slice.fy useNewRegime
      let after := taxOf currentFy (base + max 0 slice.amountPaise) slice.fy useNewRegime
      .ok ⟨slice.fy, max 0 slice.amountPaise, before, after, max 0 (after - before)⟩

def gapOf (useNewRegime : Bool) (slice : ArrearSlice) : Option ArrearGap :=
  match readSlice currentFy useNewRegime slice with
  | .error gap => some gap
  | .ok _ => none

def rowOf (useNewRegime : Bool) (slice : ArrearSlice) : Option YearRow :=
  (readSlice currentFy useNewRegime slice).toOption

/-- Relief on salary arrears. The receipt year's income includes them. -/
def computeRelief (receiptFy : String) (totalIncomeReceiptYearPaise : ℤ)
    (arrears : List ArrearSlice) (useNewRegime : Bool) (form10eAcknowledgement : Option String) :
    ReliefResult :=
  let totalArrears := (arrears.map fun a => max 0 a.amountPaise).sum
  if totalArrears ≤ 0 then { blockedReason := some .noArrears }
  else if !ratesExistFor receiptFy then
    { blockedReason := some (.receiptYearNotHeld receiptFy)
      gaps := [.receiptYearNotHeld receiptFy] }
  else
    let withArrears := taxOf currentFy totalIncomeReceiptYearPaise receiptFy useNewRegime
    let without := taxOf currentFy (max 0 (totalIncomeReceiptYearPaise - totalArrears)) receiptFy
      useNewRegime
    let perYear := arrears.filterMap (rowOf currentFy useNewRegime)
    let out : ReliefResult :=
      { taxOnReceiptYearWithArrearsPaise := withArrears
        taxOnReceiptYearWithoutArrearsPaise := without
        differenceAPaise := max 0 (withArrears - without)
        differenceBPaise := (perYear.map (·.additionalTaxPaise)).sum
        gaps := arrears.filterMap (gapOf currentFy useNewRegime)
        perYear }
    if out.gaps ≠ [] then { out with blockedReason := some .cannotBeQuantified }
    else
      let relief := max 0 (out.differenceAPaise - out.differenceBPaise)
      if Text.strip (form10eAcknowledgement.getD "") = "" then
        { out with reliefPaise := relief, blockedReason := some (.form10eNotFiled relief) }
      else { out with reliefPaise := relief, available := true }

end

/-- The arrears of one year, however they are cut. -/
def arrearOf (arrears : List ArrearSlice) (fy : String) : ℤ :=
  tally (arrears.map fun s => (s.fy, max 0 s.amountPaise)) fy

/-- The additional tax a result has for one year. -/
def additionalOf (r : ReliefResult) (fy : String) : ℤ :=
  tally (r.perYear.map fun row => (row.fy, row.additionalTaxPaise)) fy

/-- Slices of years the registry holds, each with that year's assessed income. -/
def Assessed (incomeOf : String → ℤ) (arrears : List ArrearSlice) : Prop :=
  ∀ s ∈ arrears, ratesExistFor s.fy = true ∧ s.totalIncomeThatYearPaise = some (incomeOf s.fy)

instance : Decidable (Assessed incomeOf arrears) :=
  inferInstanceAs (Decidable (∀ s ∈ arrears, _ ∧ _))

/-- The slices permuted, or those of one year replaced by others with the same total. -/
inductive Resliced : List ArrearSlice → List ArrearSlice → Prop
  | permuted (h : before.Perm after) : Resliced before after
  | year (fy : String) (hrest : before.filter (·.fy ≠ fy) = after.filter (·.fy ≠ fy))
      (htotal : arrearOf before fy = arrearOf after fy) : Resliced before after

/-- A charge on what is added to a base grows evenly up to an amount, and does not end below where
it began. -/
def Straight (charge : ℤ → ℤ) (base amount : ℤ) : Prop :=
  charge base ≤ charge (base + amount) ∧ ∀ n, 0 ≤ n → n ≤ amount →
    max 0 (charge (base + n) - charge base) = n * max 0 (charge (base + 1) - charge base)

/-- A sum does not depend on how an amount is cut exactly when each part counts in proportion. -/
theorem sum_alike_iff {f : ℤ → ℤ} (hzero : f 0 = 0) (ht : 0 ≤ t) :
    (∀ xs : List ℤ, (∀ x ∈ xs, 0 ≤ x) → xs.sum = t → (xs.map f).sum = g) ↔
      g = t * f 1 ∧ ∀ n, 0 ≤ n → n ≤ t → f n = n * f 1 := by
  constructor
  · intro h
    have hcut : ∀ n, 0 ≤ n → n ≤ t → f n + (t - n) * f 1 = g := by
      intro n hn hnt
      obtain ⟨m, hm⟩ := Int.eq_ofNat_of_zero_le (sub_nonneg.mpr hnt)
      have hones := h (n :: List.replicate m 1) ?_ ?_
      · rw [List.map_cons, List.sum_cons, List.map_replicate, List.sum_replicate, nsmul_eq_mul]
          at hones
        rw [hm]
        exact hones
      · intro x hx
        rcases List.mem_cons.mp hx with rfl | hx
        · exact hn
        · rw [List.eq_of_mem_replicate hx]
          decide
      · rw [List.sum_cons, List.sum_replicate, nsmul_eq_mul, mul_one]
        omega
    have hall := hcut 0 le_rfl ht
    rw [hzero] at hall
    refine ⟨by linarith, fun n hn hnt => ?_⟩
    linarith [hcut n hn hnt]
  · rintro ⟨hg, hf⟩ xs hxs hsum
    have heven : xs.map f = xs.map fun x => x * f 1 := by
      apply List.map_congr_left
      intro x hx
      exact hf x (hxs x hx) (hsum ▸ List.single_le_sum hxs x hx)
    rw [heven, List.sum_map_mul_right, List.map_id', hsum, hg]

theorem Resliced.arrear_eq (h : Resliced before after) (fy : String) :
    arrearOf before fy = arrearOf after fy := by
  unfold arrearOf tally
  cases h with
  | permuted h => exact ((((h.map _).filter _).map _).sum_eq)
  | year fy' hrest htotal =>
    by_cases hfy : fy = fy'
    · subst hfy
      exact htotal
    · have hcut : ∀ xs : List ArrearSlice,
          (xs.map fun s => (s.fy, max 0 s.amountPaise)).filter (fun p => p.1 = fy) =
          ((xs.filter (·.fy ≠ fy')).map fun s => (s.fy, max 0 s.amountPaise)).filter
            (fun p => p.1 = fy) := by
        intro xs
        rw [List.filter_map, List.filter_map, List.filter_filter]
        congr 1
        apply List.filter_congr
        intro s _
        simp only [Function.comp_apply, ← Bool.decide_and, decide_eq_decide]
        constructor
        · rintro rfl
          exact ⟨rfl, hfy⟩
        · exact And.left
      rw [hcut before, hcut after, hrest]

section
variable {currentFy receiptFy : String} {useNewRegime : Bool} {incomeOf : String → ℤ}

/-- The additional tax of one slice of a year, taken on its own. -/
def sliceTax (currentFy : String) (useNewRegime : Bool) (incomeOf : String → ℤ) (fy : String)
    (amount : ℤ) : ℤ :=
  max 0 (taxOf currentFy (max 0 (incomeOf fy) + amount) fy useNewRegime -
    taxOf currentFy (max 0 (incomeOf fy)) fy useNewRegime)

/-- The tax on a year's income and all its arrears less the tax on its income. -/
def yearTax (currentFy : String) (useNewRegime : Bool) (incomeOf : String → ℤ)
    (arrears : List ArrearSlice) (fy : String) : ℤ :=
  taxOf currentFy (max 0 (incomeOf fy) + arrearOf arrears fy) fy useNewRegime -
    taxOf currentFy (max 0 (incomeOf fy)) fy useNewRegime

variable (currentFy useNewRegime) in
theorem read_assessed (hrates : ratesExistFor s.fy = true)
    (hincome : s.totalIncomeThatYearPaise = some (incomeOf s.fy)) :
    ∃ row, readSlice currentFy useNewRegime s = .ok row ∧ row.fy = s.fy ∧
      row.additionalTaxPaise =
        sliceTax currentFy useNewRegime incomeOf s.fy (max 0 s.amountPaise) := by
  have hread : readSlice currentFy useNewRegime s = .ok ⟨s.fy, max 0 s.amountPaise,
      taxOf currentFy (max 0 (incomeOf s.fy)) s.fy useNewRegime,
      taxOf currentFy (max 0 (incomeOf s.fy) + max 0 s.amountPaise) s.fy useNewRegime,
      sliceTax currentFy useNewRegime incomeOf s.fy (max 0 s.amountPaise)⟩ := by
    rw [readSlice, hrates, hincome]
    rfl
  exact ⟨_, hread, rfl, rfl⟩

variable (currentFy useNewRegime) in
theorem Assessed.no_gaps (h : Assessed incomeOf arrears) :
    arrears.filterMap (gapOf currentFy useNewRegime) = [] := by
  rw [List.filterMap_eq_nil_iff]
  intro s hs
  obtain ⟨row, hread, -⟩ := read_assessed currentFy useNewRegime (h s hs).1 (h s hs).2
  rw [gapOf, hread]

variable (currentFy useNewRegime) in
/-- One row a slice, with the slice's year and its own additional tax. -/
theorem Assessed.rows (h : Assessed incomeOf arrears) :
    (arrears.filterMap (rowOf currentFy useNewRegime)).map
        (fun row => (row.fy, row.additionalTaxPaise)) =
      arrears.map fun s =>
        (s.fy, sliceTax currentFy useNewRegime incomeOf s.fy (max 0 s.amountPaise)) := by
  induction arrears with
  | nil => rfl
  | cons s arrears ih =>
    obtain ⟨hfirst, hrest⟩ := List.forall_mem_cons.mp h
    obtain ⟨row, hread, hfy, htax⟩ := read_assessed currentFy useNewRegime hfirst.1 hfirst.2
    have hrow : rowOf currentFy useNewRegime s = some row := by
      rw [rowOf, hread]
      rfl
    rw [List.filterMap_cons_some hrow, List.map_cons, List.map_cons, ih hrest, hfy, htax]

theorem slice_tax_zero : sliceTax currentFy useNewRegime incomeOf fy 0 = 0 := by
  rw [sliceTax, add_zero, sub_self, max_self]

section
variable (currentFy : String) (income : ℤ) (useNewRegime : Bool) (form : Option String)

/-- What an unblocked computation holds of the relief and of the years. -/
theorem relief_held (h : Assessed incomeOf arrears) (hheld : ratesExistFor receiptFy = true)
    (hpos : 0 < (arrears.map fun a => max 0 a.amountPaise).sum) :
    let r := computeRelief currentFy receiptFy income arrears useNewRegime form
    r.perYear = arrears.filterMap (rowOf currentFy useNewRegime) ∧
      r.reliefPaise = max 0 (max 0 (taxOf currentFy income receiptFy useNewRegime -
        taxOf currentFy (max 0 (income - (arrears.map fun a => max 0 a.amountPaise).sum)) receiptFy
          useNewRegime) -
        (arrears.map fun s =>
          sliceTax currentFy useNewRegime incomeOf s.fy (max 0 s.amountPaise)).sum) := by
  have hsum : ((arrears.filterMap (rowOf currentFy useNewRegime)).map (·.additionalTaxPaise)).sum =
      (arrears.map fun s =>
        sliceTax currentFy useNewRegime incomeOf s.fy (max 0 s.amountPaise)).sum := by
    have hrows := congrArg (fun pairs => (pairs.map Prod.snd).sum) (h.rows currentFy useNewRegime)
    simp only [List.map_map] at hrows
    exact hrows
  have hgaps := h.no_gaps currentFy useNewRegime
  dsimp only
  rw [computeRelief, if_neg (not_le.mpr hpos), hheld]
  simp only [Bool.not_true, Bool.false_eq_true, ↓reduceIte, hgaps, ne_eq, not_true_eq_false]
  rw [← hsum]
  split_ifs <;> exact ⟨rfl, rfl⟩

variable (receiptFy) in
theorem relief_nothing (hnone : (arrears.map fun a => max 0 a.amountPaise).sum ≤ 0) :
    let r := computeRelief currentFy receiptFy income arrears useNewRegime form
    r.perYear = [] ∧ r.reliefPaise = 0 := by
  dsimp only
  rw [computeRelief, if_pos hnone]
  exact ⟨rfl, rfl⟩

variable (arrears) in
theorem relief_unheld (hheld : ratesExistFor receiptFy = false) :
    let r := computeRelief currentFy receiptFy income arrears useNewRegime form
    r.perYear = [] ∧ r.reliefPaise = 0 := by
  rcases le_or_gt (arrears.map fun a => max 0 a.amountPaise).sum 0 with hnone | hpos
  · exact relief_nothing receiptFy currentFy income useNewRegime form hnone
  · dsimp only
    rw [computeRelief, if_neg (not_le.mpr hpos), if_pos (by rw [hheld]; rfl)]
    exact ⟨rfl, rfl⟩

end

theorem total_arrears_eq (h : Resliced before after) :
    (before.map fun a => max 0 a.amountPaise).sum = (after.map fun a => max 0 a.amountPaise).sum := by
  have hcover : ∀ xs : List ArrearSlice, xs ⊆ before ++ after →
      (xs.map fun a => max 0 a.amountPaise).sum =
        (((before ++ after).map (·.fy)).dedup.map (arrearOf xs)).sum := by
    intro xs hxs
    have hshare := @sum_tally _ _ _ _ _ (xs.map fun s => (s.fy, max 0 s.amountPaise))
      (List.nodup_dedup ((before ++ after).map (·.fy))) ?_
    · rw [List.map_map] at hshare
      exact hshare.symm
    · intro p hp
      obtain ⟨s, hs, rfl⟩ := List.mem_map.mp hp
      exact List.mem_dedup.mpr (List.mem_map_of_mem (hxs hs))
  rw [hcover before (List.subset_append_left _ _), hcover after (List.subset_append_right _ _)]
  congr 2
  exact funext h.arrear_eq

theorem tally_slices (arrears : List ArrearSlice) (fy : String) :
    tally (arrears.map fun s =>
        (s.fy, sliceTax currentFy useNewRegime incomeOf s.fy (max 0 s.amountPaise))) fy =
      (((arrears.filter (·.fy = fy)).map fun s => max 0 s.amountPaise).map
        (sliceTax currentFy useNewRegime incomeOf fy)).sum := by
  rw [tally, List.filter_map, List.map_map, List.map_map]
  congr 1
  apply List.map_congr_left
  intro s hs
  have hfy : s.fy = fy := by simpa using (List.mem_filter.mp hs).2
  simp only [Function.comp_apply, hfy]

variable (currentFy useNewRegime) in
/-- What a result has for a year is the sum over that year's slices. -/
theorem additional_eq (income : ℤ) (form : Option String) (h : Assessed incomeOf arrears) (hheld : ratesExistFor receiptFy = true)
    (hpos : 0 < (arrears.map fun a => max 0 a.amountPaise).sum) (fy : String) :
    additionalOf (computeRelief currentFy receiptFy income arrears useNewRegime form) fy =
      (((arrears.filter (·.fy = fy)).map fun s => max 0 s.amountPaise).map
        (sliceTax currentFy useNewRegime incomeOf fy)).sum := by
  have hrows := (relief_held currentFy income useNewRegime form h hheld hpos).1
  rw [additionalOf, hrows, h.rows currentFy useNewRegime, tally_slices]

theorem arrear_eq_sum (arrears : List ArrearSlice) (fy : String) :
    arrearOf arrears fy = ((arrears.filter (·.fy = fy)).map fun s => max 0 s.amountPaise).sum := by
  rw [arrearOf, tally, List.filter_map, List.map_map]
  rfl

theorem arrear_nonneg (arrears : List ArrearSlice) (fy : String) : 0 ≤ arrearOf arrears fy := by
  rw [arrear_eq_sum]
  apply List.sum_nonneg
  intro x hx
  obtain ⟨s, -, rfl⟩ := List.mem_map.mp hx
  exact le_max_left _ _

/-- Straight growth is what makes every cut of the year's arrears cost what they cost together. -/
theorem straight_iff (arrears : List ArrearSlice) (fy : String) :
    Straight (fun income => taxOf currentFy income fy useNewRegime) (max 0 (incomeOf fy))
        (arrearOf arrears fy) ↔
      ∀ xs : List ℤ, (∀ x ∈ xs, 0 ≤ x) → xs.sum = arrearOf arrears fy →
        (xs.map (sliceTax currentFy useNewRegime incomeOf fy)).sum =
          yearTax currentFy useNewRegime incomeOf arrears fy := by
  have hn := arrear_nonneg arrears fy
  rw [sum_alike_iff slice_tax_zero hn, Straight]
  have hlast : sliceTax currentFy useNewRegime incomeOf fy (arrearOf arrears fy) =
      max 0 (yearTax currentFy useNewRegime incomeOf arrears fy) := rfl
  have hone : 0 ≤ arrearOf arrears fy * sliceTax currentFy useNewRegime incomeOf fy 1 :=
    mul_nonneg hn (le_max_left _ _)
  constructor
  · rintro ⟨hle, heven⟩
    have hrise : 0 ≤ yearTax currentFy useNewRegime incomeOf arrears fy := sub_nonneg.mpr hle
    refine ⟨?_, heven⟩
    rw [← max_eq_right hrise, ← hlast]
    exact heven _ hn le_rfl
  · rintro ⟨hyear, heven⟩
    refine ⟨?_, heven⟩
    rw [← hyear] at hone
    exact sub_nonneg.mp hone

theorem straight_zero (charge : ℤ → ℤ) (base : ℤ) : Straight charge base 0 := by
  refine ⟨by rw [add_zero], fun n hn hn' => ?_⟩
  obtain rfl : n = 0 := le_antisymm hn' hn
  rw [add_zero, sub_self, max_self, zero_mul]

theorem arrear_absent (h : ∀ s ∈ arrears, s.fy ≠ fy) : arrearOf arrears fy = 0 := by
  apply tally_absent
  intro p hp
  obtain ⟨s, hs, rfl⟩ := List.mem_map.mp hp
  exact h s hs

theorem arrear_le_total (arrears : List ArrearSlice) (fy : String) :
    arrearOf arrears fy ≤ (arrears.map fun a => max 0 a.amountPaise).sum := by
  rw [arrear_eq_sum]
  apply (List.filter_sublist.map _).sum_le_sum
  intro x hx
  obtain ⟨s, -, rfl⟩ := List.mem_map.mp hx
  exact le_max_left _ _

/-- Where the years are straight, the slices of any cut cost what the year's arrears do. -/
theorem year_sum (h : ∀ s ∈ before, Straight (fun income => taxOf currentFy income s.fy useNewRegime)
      (max 0 (incomeOf s.fy)) (arrearOf before s.fy)) (hcut : Resliced before after) (fy : String) :
    (((after.filter (·.fy = fy)).map fun s => max 0 s.amountPaise).map
        (sliceTax currentFy useNewRegime incomeOf fy)).sum =
      yearTax currentFy useNewRegime incomeOf before fy := by
  have hstraight : Straight (fun income => taxOf currentFy income fy useNewRegime)
      (max 0 (incomeOf fy)) (arrearOf before fy) := by
    by_cases hfy : ∃ s ∈ before, s.fy = fy
    · obtain ⟨s, hs, rfl⟩ := hfy
      exact h s hs
    · push Not at hfy
      rw [arrear_absent hfy]
      exact straight_zero _ _
  apply (straight_iff before fy).mp hstraight
  · intro x hx
    obtain ⟨s, -, rfl⟩ := List.mem_map.mp hx
    exact le_max_left _ _
  · rw [← arrear_eq_sum, hcut.arrear_eq]

/-- The additional tax of all slices, year by year. -/
theorem slices_sum (h : ∀ s ∈ before, Straight (fun income => taxOf currentFy income s.fy useNewRegime)
      (max 0 (incomeOf s.fy)) (arrearOf before s.fy)) (hcut : Resliced before after)
    {years : List String} (hyears : years.Nodup) (hcover : ∀ s ∈ after, s.fy ∈ years) :
    (after.map fun s =>
        sliceTax currentFy useNewRegime incomeOf s.fy (max 0 s.amountPaise)).sum =
      (years.map (yearTax currentFy useNewRegime incomeOf before)).sum := by
  have hshare := @sum_tally _ _ _ _ _ (after.map fun s =>
    (s.fy, sliceTax currentFy useNewRegime incomeOf s.fy (max 0 s.amountPaise))) hyears ?_
  · rw [List.map_map] at hshare
    rw [← funext fun fy => (tally_slices after fy).trans (year_sum h hcut fy)]
    exact hshare.symm
  · intro p hp
    obtain ⟨s, hs, rfl⟩ := List.mem_map.mp hp
    exact hcover s hs

end

/-- Every other cut of the arrears leaves the relief as it is, and each year is charged the tax on
its income and all its arrears less the tax on its income. -/
def SlicingIrrelevant (currentFy receiptFy : String) (income : ℤ) (useNewRegime : Bool)
    (form : Option String) (incomeOf : String → ℤ) (arrears : List ArrearSlice) : Prop :=
  ∀ after, Assessed incomeOf after → Resliced arrears after →
    let r := computeRelief currentFy receiptFy income arrears useNewRegime form
    let r' := computeRelief currentFy receiptFy income after useNewRegime form
    r'.reliefPaise = r.reliefPaise ∧ ∀ row ∈ r'.perYear,
      additionalOf r' row.fy = yearTax currentFy useNewRegime incomeOf arrears row.fy

theorem straight_of_irrelevant {incomeOf : String → ℤ} {useNewRegime : Bool}
    (h : Assessed incomeOf arrears) (hheld : ratesExistFor receiptFy = true)
    (hirr : SlicingIrrelevant currentFy receiptFy income useNewRegime form incomeOf arrears)
    (hs : s ∈ arrears) :
    Straight (fun income => taxOf currentFy income s.fy useNewRegime) (max 0 (incomeOf s.fy))
      (arrearOf arrears s.fy) := by
  obtain ⟨fy, hfy⟩ : ∃ fy, s.fy = fy := ⟨_, rfl⟩
  rw [hfy]
  rcases (arrear_nonneg arrears fy).eq_or_lt with hnone | hpos
  · rw [← hnone]
    exact straight_zero _ _
  rw [straight_iff]
  intro xs hxs hsum
  let slice : ℤ → ArrearSlice := fun x => ⟨fy, x, some (incomeOf fy)⟩
  set after := arrears.filter (·.fy ≠ fy) ++ xs.map slice with hafter
  have hthis : after.filter (·.fy = fy) = xs.map slice := by
    rw [hafter, List.filter_append, List.filter_eq_nil_iff.mpr, List.filter_eq_self.mpr]
    · rfl
    · intro s hs
      obtain ⟨x, -, rfl⟩ := List.mem_map.mp hs
      exact decide_eq_true rfl
    · intro s hs
      simpa using (List.mem_filter.mp hs).2
  have hamounts : (after.filter (·.fy = fy)).map (fun s => max 0 s.amountPaise) = xs := by
    rw [hthis, List.map_map]
    refine (List.map_congr_left fun x hx => ?_).trans xs.map_id
    exact max_eq_right (hxs x hx)
  have htotal : arrearOf after fy = arrearOf arrears fy := by
    rw [arrear_eq_sum, hamounts, hsum]
  have hothers : arrears.filter (·.fy ≠ fy) = after.filter (·.fy ≠ fy) := by
    have hnone : (xs.map slice).filter (·.fy ≠ fy) = [] := by
      rw [List.filter_eq_nil_iff]
      intro s hs
      obtain ⟨x, -, rfl⟩ := List.mem_map.mp hs
      simp [slice]
    rw [hafter, List.filter_append, hnone, List.append_nil, List.filter_filter]
    simp
  have hassessed : Assessed incomeOf after := by
    intro s' hs'
    rcases List.mem_append.mp hs' with hs' | hs'
    · exact h s' (List.mem_of_mem_filter hs')
    · obtain ⟨x, -, rfl⟩ := List.mem_map.mp hs'
      have hyear := (h s hs).1
      rw [hfy] at hyear
      exact ⟨hyear, rfl⟩
  have hafterpos : 0 < (after.map fun a => max 0 a.amountPaise).sum :=
    (htotal ▸ hpos).trans_le (arrear_le_total after fy)
  have hcost := (hirr after hassessed (.year fy hothers htotal.symm)).2
  have hadd := additional_eq currentFy useNewRegime income form hassessed hheld hafterpos fy
  rw [hamounts] at hadd
  rw [← hadd]
  -- the year keeps a slice, so it keeps a row
  obtain ⟨x, hx⟩ : ∃ x, x ∈ xs := List.exists_mem_of_ne_nil xs (by
    rintro rfl
    exact hpos.ne hsum)
  have hrow : (fy, sliceTax currentFy useNewRegime incomeOf fy (max 0 x)) ∈
      after.map fun s => (s.fy, sliceTax currentFy useNewRegime incomeOf s.fy
        (max 0 s.amountPaise)) :=
    List.mem_map.mpr ⟨slice x, List.mem_append_right _ (List.mem_map_of_mem hx), rfl⟩
  rw [← hassessed.rows, List.mem_map] at hrow
  obtain ⟨row, hrow, heq⟩ := hrow
  have hrowfy : row.fy = fy := congrArg Prod.fst heq
  rw [← (relief_held currentFy income useNewRegime form hassessed hheld hafterpos).1] at hrow
  have := hcost row hrow
  rwa [hrowfy] at this

theorem slicing_irrelevant_iff (currentFy receiptFy : String) (income : ℤ) (useNewRegime : Bool)
    (form : Option String) (incomeOf : String → ℤ) (arrears : List ArrearSlice)
    (h : Assessed incomeOf arrears) :
    SlicingIrrelevant currentFy receiptFy income useNewRegime form incomeOf arrears ↔
      (ratesExistFor receiptFy = true → ∀ s ∈ arrears,
        Straight (fun income => taxOf currentFy income s.fy useNewRegime) (max 0 (incomeOf s.fy))
          (arrearOf arrears s.fy)) := by
  refine ⟨fun hirr hheld s hs => straight_of_irrelevant h hheld hirr hs, ?_⟩
  intro hstraight after hafter hcut
  dsimp only
  cases hheld : ratesExistFor receiptFy with
  | false =>
    obtain ⟨-, hrelief⟩ := relief_unheld currentFy income useNewRegime form arrears hheld
    obtain ⟨hrows', hrelief'⟩ := relief_unheld currentFy income useNewRegime form after hheld
    rw [hrows', hrelief, hrelief']
    exact ⟨rfl, nofun⟩
  | true =>
    have htotal := total_arrears_eq hcut
    rcases le_or_gt (arrears.map fun a => max 0 a.amountPaise).sum 0 with hnone | hpos
    · obtain ⟨-, hrelief⟩ := relief_nothing receiptFy currentFy income useNewRegime form hnone
      obtain ⟨hrows', hrelief'⟩ := relief_nothing receiptFy currentFy income useNewRegime form
        (htotal ▸ hnone)
      rw [hrows', hrelief, hrelief']
      exact ⟨rfl, nofun⟩
    · have hpos' := htotal ▸ hpos
      have hkept := relief_held currentFy income useNewRegime form h hheld hpos
      have hkept' := relief_held currentFy income useNewRegime form hafter hheld hpos'
      have hyears := List.nodup_dedup ((arrears ++ after).map (·.fy))
      have hsame := slices_sum (hstraight hheld) (.permuted (.refl _)) hyears
        (fun s hs => List.mem_dedup.mpr (List.mem_map_of_mem (List.mem_append_left _ hs)))
      have hsame' := slices_sum (hstraight hheld) hcut hyears
        (fun s hs => List.mem_dedup.mpr (List.mem_map_of_mem (List.mem_append_right _ hs)))
      refine ⟨?_, fun row _ => ?_⟩
      · rw [hkept.2, hkept'.2, hsame, hsame', htotal]
      · rw [additional_eq currentFy useNewRegime income form hafter hheld hpos',
          year_sum (hstraight hheld) hcut]

/-- Up to four lakh the new regime charges nothing. -/
theorem nil_band (hx : income ≤ 40000000) : taxOf currentFy income "2025-26" true = 0 := by
  have hy : max 0 income ≤ 40000000 := max_le (by decide) hx
  have htax : slabTaxPaise (max 0 income) fy2025_26.newRegimeSlabs = 0 := by
    rw [slabTaxPaise]
    split_ifs
    · rfl
    · rw [fy2025_26, slabTaxFrom_cons _ (by decide), slabTaxFrom_below hy]
      simp [MarginalRelief.percent]
  have hbracket : (resolveSurchargeBracket (max 0 income) fy2025_26.surchargeBrackets (some 25)).1 =
      0 := by
    have hsort : fy2025_26.surchargeBrackets.Pairwise (fun a b => a.abovePaise ≤ b.abovePaise) := by
      decide
    have hnone : ∀ b ∈ fy2025_26.surchargeBrackets, ¬ b.abovePaise < max 0 income := by
      intro b hb
      have : 500000000 ≤ b.abovePaise := by
        revert b
        decide
      omega
    unfold resolveSurchargeBracket
    rw [List.Pairwise.insertionSort_eq hsort, fold_last, List.filter_eq_nil_iff.mpr]
    · rfl
    · intro b hb
      simpa using hnone b hb
  unfold taxOf otherIncomeTaxPaise
  have hrates : ratesFor currentFy (some "2025-26") = fy2025_26 := rfl
  have hsame : max 0 (max 0 income) = max 0 income := max_eq_right (le_max_left _ _)
  have hcap : fy2025_26.newRegimeSurchargeCapPercent = 25 := rfl
  have hrebate : applyRebate87a (max 0 income) 0
      (rebatesFor currentFy (some "2025-26")).newRegimeRebate = 0 := by
    have hlow : max 0 income ≤ 120000000 := hy.trans (by decide)
    exact if_pos hlow
  simp only [hrates, slabsFor, ↓reduceIte, hsame, htax, hrebate, sub_self, max_self, hcap,
    applySurchargeWithMarginalRelief, hbracket, add_zero]
  rfl

theorem nil_band_straight (hn : 0 ≤ amount) (h : base + amount ≤ 40000000) :
    Straight (fun income => taxOf currentFy income "2025-26" true) base amount := by
  have hnil : ∀ n, n ≤ amount → taxOf currentFy (base + n) "2025-26" true = 0 := fun n hna =>
    nil_band (by omega)
  have hbase := hnil 0 hn
  rw [add_zero] at hbase
  refine ⟨(hbase.trans (hnil amount le_rfl).symm).le, fun n hn hna => ?_⟩
  dsimp only
  rcases hn.eq_or_lt with rfl | hpos
  · rw [add_zero, sub_self, max_self, zero_mul]
  · rw [hbase, hnil n hna, hnil 1 (by omega), sub_self, max_self, mul_zero]

/-- Two arrears of one year, inside the nil band of an employee with no other income. -/
def smallArrears : List ArrearSlice :=
  [⟨"2025-26", 10000000, some 0⟩, ⟨"2025-26", 20000000, some 0⟩]

theorem small_arrears_irrelevant :
    SlicingIrrelevant "2026-27" "2026-27" 400000000 true none (fun _ => 0) smallArrears := by
  have hassessed : Assessed (fun _ => 0) smallArrears := by decide
  refine (slicing_irrelevant_iff _ _ _ _ _ _ _ hassessed).mpr fun _ s hs => ?_
  have hfy : s.fy = "2025-26" := by
    revert s
    decide
  rw [hfy]
  exact nil_band_straight (by decide) (by decide)

/-- Ten lakh of arrears on twelve lakh: in one slice they are taxed past the rebate once, in two
slices twice from its edge, and the relief is less. -/
theorem slicing_lowers_relief :
    ¬ ∀ (currentFy receiptFy : String) (income : ℤ) (useNewRegime : Bool) (form : Option String)
        (incomeOf : String → ℤ) (arrears : List ArrearSlice), Assessed incomeOf arrears →
      SlicingIrrelevant currentFy receiptFy income useNewRegime form incomeOf arrears := by
  intro h
  have hrelief := (h "2026-27" "2026-27" 400000000 true none (fun _ => 120000000)
    [⟨"2025-26", 100000000, some 120000000⟩] (by decide)
    [⟨"2025-26", 50000000, some 120000000⟩, ⟨"2025-26", 50000000, some 120000000⟩] (by decide)
    (.year "2025-26" (by decide) (by decide))).1
  revert hrelief
  decide +kernel

end Caflow.Payroll
