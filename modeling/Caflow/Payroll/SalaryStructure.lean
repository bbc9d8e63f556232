import Caflow.Lib.Rounding

namespace Caflow.Payroll
open Rounding

/-- A named structure: percentages of gross, and a fixed medical allowance. -/
structure SalaryStructure where
  basicPercent : ℚ
  hraPercent : ℚ
  daPercent : ℚ
  ltaPercent : ℚ
  medicalPaise : ℤ

/-- One head of pay: what the structure asked for, and what will be paid. -/
structure Component where
  name : String
  paise : ℤ
  intendedPaise : ℤ
  deriving DecidableEq

structure Application where
  monthlyGrossPaise : ℤ
  basicPaise : ℤ
  hraPercentOfBasic : ℚ
  daPercentOfBasic : ℚ
  ltaPaise : ℤ
  medicalPaise : ℤ
  specialAllowancePaise : ℤ
  components : List Component
  deriving DecidableEq

inductive Refusal
  | grossRequired
  | negativePercent (name : String)
  | basicZero
  | overWhole (stated : ℚ)
  | negativeMedical
  | medicalDoesNotFit (medical already gross : ℤ)
  deriving DecidableEq

def percentOf (basePaise : ℤ) (percent : ℚ) : ℤ := halfUp (basePaise * percent / 100)

/-- The percentage of basic, to two decimals, that comes nearest an amount. -/
def asPercentOfBasic (amountPaise basicPaise : ℤ) : ℚ :=
  if basicPaise ≤ 0 then 0 else halfUp (amountPaise * 100 / basicPaise * 100) / 100

/-- What the heads come to at a gross, the special allowance whatever is left of it. -/
def headsAt (s : SalaryStructure) (gross : ℤ) : Application :=
  let basic := percentOf gross s.basicPercent
  let hraIntended := percentOf gross s.hraPercent
  let daIntended := percentOf gross s.daPercent
  let lta := percentOf gross s.ltaPercent
  let hraStoredPct := asPercentOfBasic hraIntended basic
  let daStoredPct := asPercentOfBasic daIntended basic
  let hraActual := percentOf basic hraStoredPct
  let daActual := percentOf basic daStoredPct
  -- the remainder in paise of what will be paid, not of what was asked for
  let special := gross - basic - hraActual - daActual - lta - s.medicalPaise
  { monthlyGrossPaise := gross
    basicPaise := basic
    hraPercentOfBasic := hraStoredPct
    daPercentOfBasic := daStoredPct
    ltaPaise := lta
    medicalPaise := s.medicalPaise
    specialAllowancePaise := special
    components :=
      [⟨"Basic", basic, basic⟩, ⟨"HRA", hraActual, hraIntended⟩, ⟨"DA", daActual, daIntended⟩,
        ⟨"LTA", lta, lta⟩, ⟨"Medical", s.medicalPaise, s.medicalPaise⟩,
        ⟨"Special allowance", special, special⟩] }

/-- One employee's heads of pay at a stated gross. -/
def applyStructure (s : SalaryStructure) (gross : ℤ) : Except Refusal Application :=
  if gross ≤ 0 then .error .grossRequired
  else if s.basicPercent < 0 then .error (.negativePercent "basic")
  else if s.hraPercent < 0 then .error (.negativePercent "HRA")
  else if s.daPercent < 0 then .error (.negativePercent "DA")
  else if s.ltaPercent < 0 then .error (.negativePercent "LTA")
  else if s.basicPercent ≤ 0 then .error .basicZero
  else
    let stated := s.basicPercent + s.hraPercent + s.daPercent + s.ltaPercent
    if 100 < stated then .error (.overWhole stated)
    else if s.medicalPaise < 0 then .error .negativeMedical
    else
      let app := headsAt s gross
      if app.specialAllowancePaise < 0 then
        .error (.medicalDoesNotFit s.medicalPaise
          (gross - s.medicalPaise - app.specialAllowancePaise) gross)
      else .ok app

/-- A percentage of the gross before any rounding. -/
def share (gross : ℤ) (percent : ℚ) : ℚ := gross * percent / 100

/-- What an amount becomes once it is kept as a percentage of basic. -/
def throughBasic (amount basic : ℤ) : ℤ := percentOf basic (asPercentOfBasic amount basic)

/-- What the exact percentages and the medical allowance leave of the gross. -/
def unused (s : SalaryStructure) (gross : ℤ) : ℚ :=
  gross - share gross (s.basicPercent + s.hraPercent + s.daPercent + s.ltaPercent) - s.medicalPaise

/-- What rounding adds to the four heads together. -/
def roundingGain (s : SalaryStructure) (gross : ℤ) : ℚ :=
  let basic := halfUp (share gross s.basicPercent)
  (basic - share gross s.basicPercent) +
    (throughBasic (halfUp (share gross s.hraPercent)) basic - share gross s.hraPercent) +
    (throughBasic (halfUp (share gross s.daPercent)) basic - share gross s.daPercent) +
    (halfUp (share gross s.ltaPercent) - share gross s.ltaPercent)

/-- A structure that fits in a gross. -/
structure Fits (s : SalaryStructure) (gross : ℤ) : Prop where
  gross_pos : 0 < gross
  basic_pos : 0 < s.basicPercent
  hra_nonneg : 0 ≤ s.hraPercent
  da_nonneg : 0 ≤ s.daPercent
  lta_nonneg : 0 ≤ s.ltaPercent
  medical_nonneg : 0 ≤ s.medicalPaise
  fits : share gross (s.basicPercent + s.hraPercent + s.daPercent + s.ltaPercent) +
    s.medicalPaise ≤ gross

theorem Fits.stated_le (h : Fits s gross) :
    s.basicPercent + s.hraPercent + s.daPercent + s.ltaPercent ≤ 100 := by
  have hgross : (0 : ℚ) < gross := by exact_mod_cast h.gross_pos
  have hmedical : (0 : ℚ) ≤ s.medicalPaise := by exact_mod_cast h.medical_nonneg
  have hfits := h.fits
  unfold share at hfits
  have hscaled : gross * (s.basicPercent + s.hraPercent + s.daPercent + s.ltaPercent) ≤
      (gross * 100 : ℚ) := by linarith
  exact le_of_mul_le_mul_left hscaled hgross

theorem percent_of_nonneg (hb : 0 ≤ base) (hp : 0 ≤ percent) : 0 ≤ percentOf base percent := by
  have hbase : (0 : ℚ) ≤ base := by exact_mod_cast hb
  apply half_up_nonneg
  positivity

theorem as_percent_nonneg (hn : 0 ≤ amount) : 0 ≤ asPercentOfBasic amount basic := by
  unfold asPercentOfBasic
  split_ifs with hb
  · exact le_rfl
  · have hamount : (0 : ℚ) ≤ amount := by exact_mod_cast hn
    have hbasic : (0 : ℚ) < basic := by exact_mod_cast not_le.mp hb
    have hround : 0 ≤ halfUp (amount * 100 / basic * 100 : ℚ) := half_up_nonneg (by positivity)
    have hround' : (0 : ℚ) ≤ halfUp (amount * 100 / basic * 100 : ℚ) := by exact_mod_cast hround
    positivity

theorem through_basic_nonneg (hn : 0 ≤ amount) (hb : 0 ≤ basic) : 0 ≤ throughBasic amount basic :=
  percent_of_nonneg hb (as_percent_nonneg hn)

/-- Kept as a percentage of basic an amount moves by no more than a hundredth of a percent of basic:
below that every paisa has its own percentage. -/
theorem through_basic_within (amount : ℤ) (hb : 0 < basic) :
    |(throughBasic amount basic - amount : ℚ)| ≤ basic / 10000 := by
  have hbasic : (0 : ℚ) < basic := by exact_mod_cast hb
  obtain ⟨hlow, hhigh⟩ := half_up_within (amount * 100 / basic * 100 : ℚ)
  set stored := halfUp (amount * 100 / basic * 100 : ℚ) with hstored
  have hpaid : throughBasic amount basic = halfUp (basic * stored / 10000 : ℚ) := by
    unfold throughBasic percentOf asPercentOfBasic
    rw [if_neg (not_le.mpr hb), ← hstored]
    congr 1
    ring
  have hback : (basic * (amount * 100 / basic * 100) / 10000 : ℚ) = amount := by
    field_simp
    ring
  have hlow' : (amount - basic / 20000 : ℚ) ≤ basic * stored / 10000 := by
    have := mul_le_mul_of_nonneg_left hlow hbasic.le
    linarith
  have hhigh' : (basic * stored / 10000 : ℚ) ≤ amount + basic / 20000 := by
    have := mul_le_mul_of_nonneg_left hhigh hbasic.le
    linarith
  rw [hpaid]
  rcases lt_or_ge basic 10000 with hsmall | hlarge
  · have hsmall' : (basic : ℚ) < 10000 := by exact_mod_cast hsmall
    rw [half_up_eq (n := amount) (by linarith) (by linarith), sub_self, abs_zero]
    positivity
  · have hlarge' : (10000 : ℚ) ≤ basic := by exact_mod_cast hlarge
    obtain ⟨hdown, hup⟩ := half_up_within (basic * stored / 10000 : ℚ)
    rw [abs_le]
    constructor <;> linarith

theorem through_nothing (amount : ℤ) : throughBasic amount 0 = 0 := by
  unfold throughBasic percentOf
  simp

/-- The special allowance: what is unused, less what rounding added to the heads. -/
theorem special_eq (s : SalaryStructure) (gross : ℤ) :
    ((headsAt s gross).specialAllowancePaise : ℚ) = unused s gross - roundingGain s gross := by
  unfold headsAt unused roundingGain throughBasic share percentOf
  push_cast
  ring

theorem special_nonneg_iff (s : SalaryStructure) (gross : ℤ) :
    0 ≤ (headsAt s gross).specialAllowancePaise ↔ roundingGain s gross ≤ unused s gross := by
  rw [← sub_nonneg (b := roundingGain s gross), ← special_eq]
  exact_mod_cast Iff.rfl

/-- A structure that fits passes every check but the last. -/
theorem apply_of_fits (h : Fits s gross) :
    applyStructure s gross =
      if (headsAt s gross).specialAllowancePaise < 0 then
        .error (.medicalDoesNotFit s.medicalPaise
          (gross - s.medicalPaise - (headsAt s gross).specialAllowancePaise) gross)
      else .ok (headsAt s gross) := by
  unfold applyStructure
  rw [if_neg (not_le.mpr h.gross_pos), if_neg (not_lt.mpr h.basic_pos.le),
    if_neg (not_lt.mpr h.hra_nonneg), if_neg (not_lt.mpr h.da_nonneg),
    if_neg (not_lt.mpr h.lta_nonneg), if_neg (not_le.mpr h.basic_pos)]
  dsimp only
  rw [if_neg (not_lt.mpr h.stated_le), if_neg (not_lt.mpr h.medical_nonneg)]

theorem apply_ok_iff (h : Fits s gross) :
    applyStructure s gross = .ok app ↔
      app = headsAt s gross ∧ roundingGain s gross ≤ unused s gross := by
  rw [apply_of_fits h, ← special_nonneg_iff]
  split_ifs with hneg
  · simp [hneg]
  · rw [Except.ok.injEq, eq_comm, and_iff_left (not_lt.mp hneg)]

theorem percent_nonneg_of_fits (h : Fits s gross) (hp : 0 ≤ percent) : 0 ≤ percentOf gross percent :=
  percent_of_nonneg h.gross_pos.le hp

theorem heads_nonneg (h : Fits s gross) (hspecial : 0 ≤ (headsAt s gross).specialAllowancePaise) :
    ∀ c ∈ (headsAt s gross).components, 0 ≤ c.paise := by
  have hbasic := percent_nonneg_of_fits h h.basic_pos.le
  intro c hc
  simp only [headsAt, List.mem_cons, List.not_mem_nil, or_false] at hc
  rcases hc with rfl | rfl | rfl | rfl | rfl | rfl
  · exact hbasic
  · exact through_basic_nonneg (percent_nonneg_of_fits h h.hra_nonneg) hbasic
  · exact through_basic_nonneg (percent_nonneg_of_fits h h.da_nonneg) hbasic
  · exact percent_nonneg_of_fits h h.lta_nonneg
  · exact h.medical_nonneg
  · exact hspecial

theorem heads_sum (s : SalaryStructure) (gross : ℤ) :
    ((headsAt s gross).components.map (·.paise)).sum = gross := by
  simp only [headsAt, List.map_cons, List.map_nil, List.sum_cons, List.sum_nil]
  ring

/-- Every head that is kept through basic drifts by no more than a hundredth of a percent of it. -/
def DriftsWithin (app : Application) : Prop :=
  ∀ c ∈ app.components, |(c.paise - c.intendedPaise : ℚ)| ≤ app.basicPaise / 10000

/-- Where basic comes to a paisa the drift is bounded. Where it comes to nothing so does what is kept
through it, and only amounts under half a paisa lose nothing. -/
theorem drifts_within_iff (h : Fits s gross) :
    DriftsWithin (headsAt s gross) ↔ 1 / 2 ≤ share gross s.basicPercent ∨
      (share gross s.hraPercent < 1 / 2 ∧ share gross s.daPercent < 1 / 2) := by
  have hbasic := percent_nonneg_of_fits h h.basic_pos.le
  have hnone : ∀ percent, 0 ≤ percent → (percentOf gross percent = 0 ↔
      share gross percent < 1 / 2) := by
    intro percent hp
    have hnonneg := percent_nonneg_of_fits h hp
    have hle := half_up_le_iff (x := share gross percent) (le_refl 0)
    rw [Int.cast_zero, zero_add] at hle
    rw [← hle]
    exact ⟨fun heq => heq.le, fun hle => le_antisymm hle hnonneg⟩
  have hcomponents : DriftsWithin (headsAt s gross) ↔
      |(throughBasic (percentOf gross s.hraPercent) (percentOf gross s.basicPercent) -
          percentOf gross s.hraPercent : ℚ)| ≤ percentOf gross s.basicPercent / 10000 ∧
      |(throughBasic (percentOf gross s.daPercent) (percentOf gross s.basicPercent) -
          percentOf gross s.daPercent : ℚ)| ≤ percentOf gross s.basicPercent / 10000 := by
    have hbound : (0 : ℚ) ≤ percentOf gross s.basicPercent / 10000 := by
      have : (0 : ℚ) ≤ percentOf gross s.basicPercent := by exact_mod_cast hbasic
      positivity
    unfold DriftsWithin headsAt
    simp [hbound, throughBasic]
  rw [hcomponents]
  rcases hbasic.lt_or_eq with hpos | hzero
  · have hhalf : 1 / 2 ≤ share gross s.basicPercent := by
      by_contra hlt
      exact hpos.ne' ((hnone _ h.basic_pos.le).mpr (not_le.mp hlt))
    exact iff_of_true ⟨through_basic_within _ hpos, through_basic_within _ hpos⟩ (.inl hhalf)
  · have hhalf : ¬ 1 / 2 ≤ share gross s.basicPercent :=
      not_le.mpr ((hnone _ h.basic_pos.le).mp hzero.symm)
    rw [← hzero, through_nothing, through_nothing, or_iff_right hhalf, ← hnone _ h.hra_nonneg,
      ← hnone _ h.da_nonneg]
    simp

/-- A structure that fits is applied and adds up, every head what it should be to the drift of basic's
hundredth of a percent, exactly where rounding adds no more to the heads than the structure leaves
unused, and basic comes to a paisa or nothing is kept through it. -/
theorem structure_applied_iff (s : SalaryStructure) (gross : ℤ) (h : Fits s gross) :
    (∃ app, applyStructure s gross = .ok app ∧ (∀ c ∈ app.components, 0 ≤ c.paise) ∧
      (app.components.map (·.paise)).sum = gross ∧ DriftsWithin app) ↔
    roundingGain s gross ≤ unused s gross ∧
      (1 / 2 ≤ share gross s.basicPercent ∨
        (share gross s.hraPercent < 1 / 2 ∧ share gross s.daPercent < 1 / 2)) := by
  constructor
  · rintro ⟨app, hok, -, -, hdrift⟩
    obtain ⟨rfl, hfit⟩ := (apply_ok_iff h).mp hok
    exact ⟨hfit, (drifts_within_iff h).mp hdrift⟩
  · rintro ⟨hfit, hdrift⟩
    exact ⟨headsAt s gross, (apply_ok_iff h).mpr ⟨rfl, hfit⟩,
      heads_nonneg h ((special_nonneg_iff s gross).mpr hfit), heads_sum s gross,
      (drifts_within_iff h).mpr hdrift⟩

def halfAndHalf : SalaryStructure := ⟨50, 50, 0, 0, 0⟩

theorem half_and_half_fits (gross : ℤ) (h : 0 < gross) : Fits halfAndHalf gross where
  gross_pos := h
  basic_pos := by norm_num [halfAndHalf]
  hra_nonneg := by norm_num [halfAndHalf]
  da_nonneg := le_rfl
  lta_nonneg := le_rfl
  medical_nonneg := le_rfl
  fits := by
    unfold share halfAndHalf
    push_cast
    linarith

theorem even_gross_applied :
    ∃ app, applyStructure halfAndHalf 5000000 = .ok app ∧ (∀ c ∈ app.components, 0 ≤ c.paise) ∧
      (app.components.map (·.paise)).sum = 5000000 ∧ DriftsWithin app :=
  (structure_applied_iff halfAndHalf 5000000 (half_and_half_fits _ (by decide))).mpr
    ⟨by decide +kernel, .inl (by decide +kernel)⟩

/-- Half of Rs 50,000.01 is rounded up twice, and the one paisa too many refuses the structure for a
medical allowance it does not have. -/
theorem odd_gross_refused :
    ¬ ∀ (s : SalaryStructure) (gross : ℤ), Fits s gross →
      ∃ app, applyStructure s gross = .ok app ∧ (∀ c ∈ app.components, 0 ≤ c.paise) ∧
        (app.components.map (·.paise)).sum = gross ∧ DriftsWithin app := by
  intro h
  obtain ⟨app, hok, -⟩ := h halfAndHalf 5000001 (half_and_half_fits _ (by decide))
  have hrefused : applyStructure halfAndHalf 5000001 =
      .error (.medicalDoesNotFit 0 5000002 5000001) := by decide +kernel
  rw [hrefused] at hok
  cases hok

end Caflow.Payroll
