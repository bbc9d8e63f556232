import Caflow.IncomeTax.EntityRates

set_option linter.all false

namespace Caflow.IncomeTax
open MarginalRelief

theorem entityRatesFor_cases (currentFy : String) (fy : Option String) :
    entityRatesFor currentFy fy = entityFy2025_26 ∨ entityRatesFor currentFy fy = entityFy2026_27 := by
  unfold entityRatesFor
  split
  · exact .inr rfl
  · exact .inl rfl

theorem ratesFor_cases (currentFy : String) (fy : Option String) :
    ratesFor currentFy fy = fy2025_26 ∨ ratesFor currentFy fy = fy2026_27 := by
  unfold ratesFor
  split
  · exact .inr rfl
  · exact .inl rfl

theorem firm_sound : Sound (percent · 30) [⟨1 * crorePaise, 12⟩] none := by
  refine flat_sound (by decide) (by decide) (by decide) (by decide) ?_
  intro p hp s hs hlt
  simp only [ladderOf, List.map_cons, List.map_nil, List.mem_singleton] at hp hs
  subst hp hs
  exact absurd hlt (lt_irrefl _)

/-- By ten crore the relief at one crore has long run out, at either company rate. -/
theorem company_sound (hr : rate = 25 ∨ rate = 30) :
    Sound (percent · rate) [⟨1 * crorePaise, 7⟩, ⟨10 * crorePaise, 12⟩] none := by
  refine flat_sound (by omega) (by omega) (by decide) (by decide) ?_
  intro p hp s hs hlt a hpa has hband
  simp only [ladderOf, List.map_cons, List.map_nil, List.mem_cons, List.not_mem_nil, or_false,
    Option.elim_none, crorePaise] at hp hs
  unfold percent at hband ⊢
  rcases hr with rfl | rfl <;> rcases hp with rfl | rfl <;> rcases hs with rfl | rfl <;>
    dsimp only at * <;> omega

/-- A firm's basis, a company's at either rate, or a flat surcharge. -/
theorem basisOf_cases (currentFy : String) (fy : Option String) (entity : EntityKind)
    (regime : CompanyRegime) (turnover : Option ℤ) :
    let basis := basisOf (entityRatesFor currentFy fy) entity regime turnover
    basis = ⟨30, [⟨1 * crorePaise, 12⟩], none⟩ ∨
      (∃ rate, (rate = 25 ∨ rate = 30) ∧
        basis = ⟨rate, [⟨1 * crorePaise, 7⟩, ⟨10 * crorePaise, 12⟩], none⟩) ∨
      ∃ rate, (rate = 15 ∨ rate = 22) ∧ basis = ⟨rate, [], some 10⟩ := by
  rcases entityRatesFor_cases currentFy fy with he | he <;> rw [he] <;>
  · cases entity with
    | firm => exact .inl rfl
    | llp => exact .inl rfl
    | domesticCompany =>
      cases regime with
      | s115BAA => exact .inr (.inr ⟨22, .inr rfl, rfl⟩)
      | s115BAB => exact .inr (.inr ⟨15, .inl rfl, rfl⟩)
      | normal =>
        cases turnover with
        | none => exact .inr (.inl ⟨30, .inr rfl, rfl⟩)
        | some turnover =>
          simp only [basisOf]
          split
          · exact .inr (.inl ⟨25, .inl rfl, rfl⟩)
          · exact .inr (.inl ⟨30, .inr rfl, rfl⟩)

/-- Brackets that marginal relief is meant for, or a flat surcharge. -/
theorem basisOf_sound (currentFy : String) (fy : Option String) (entity : EntityKind)
    (regime : CompanyRegime) (turnover : Option ℤ) :
    let basis := basisOf (entityRatesFor currentFy fy) entity regime turnover
    (∃ rate brackets, 0 ≤ rate ∧ Sound (percent · rate) brackets none ∧
        basis = ⟨rate, brackets, none⟩) ∨
      ∃ rate, 0 ≤ rate ∧ basis = ⟨rate, [], some 10⟩ := by
  rcases basisOf_cases currentFy fy entity regime turnover with h | ⟨rate, hr, h⟩ | ⟨rate, hr, h⟩
  · exact .inl ⟨30, _, by decide, firm_sound, h⟩
  · exact .inl ⟨rate, _, by omega, company_sound hr, h⟩
  · exact .inr ⟨rate, by omega, h⟩

/-- By fifty lakh every slab table is in its last bracket, at thirty per cent. -/
theorem slabsFor_top (useNewRegime senior verySenior : Bool) :
    ((topSlabFrom 0 0 (slabsFor fy2025_26 useNewRegime senior verySenior)).any fun top =>
      10000000 ≤ top.below ∧ top.below ≤ 30000000 ∧
        100000000 ≤ top.ends ∧ top.ends ≤ 240000000 ∧ top.rate = 30) = true := by
  cases useNewRegime <;> cases senior <;> cases verySenior <;> rfl

theorem slabsFor_ascends (useNewRegime senior verySenior : Bool) :
    Ascends 0 (slabsFor fy2025_26 useNewRegime senior verySenior) := by
  cases useNewRegime <;> cases senior <;> cases verySenior <;>
    simp [slabsFor, Ascends, fy2025_26]

/-- The reliefs of the surcharge brackets end well before the next bracket begins. -/
theorem top_separate {charge : ℤ → ℤ} (hcap : cap = none ∨ cap = some 25)
    (hbelow : 10000000 ≤ below ∧ below ≤ 30000000) (hends : 100000000 ≤ ends ∧ ends ≤ 240000000)
    (htop : ∀ x, 500000000 ≤ x → charge x = below + percent (x - ends) 30) :
    Separate charge (ladderOf fy2025_26.surchargeBrackets cap) := by
  have hladder : ∃ last, ladderOf fy2025_26.surchargeBrackets cap =
      [⟨500000000, 10⟩, ⟨1000000000, 15⟩, ⟨2000000000, 25⟩, ⟨5000000000, last⟩] := by
    rcases hcap with rfl | rfl
    · exact ⟨37, rfl⟩
    · exact ⟨25, rfl⟩
  obtain ⟨last, heq⟩ := hladder
  rw [heq]
  intro p hp s hs hlt a hpa has hband
  simp only [List.mem_cons, List.not_mem_nil, or_false] at hp hs
  have hlow : 500000000 ≤ p.above := by
    rcases hp with rfl | rfl | rfl | rfl <;> norm_num
  rw [htop a (by omega), htop p.above hlow] at hband
  rw [htop a (by omega), htop s.above (by omega)]
  unfold percent at hband ⊢
  rcases hp with rfl | rfl | rfl | rfl <;> rcases hs with rfl | rfl | rfl | rfl <;>
    dsimp only at * <;> omega

theorem slab_sound (useNewRegime senior verySenior : Bool) :
    Sound (slabTaxPaise · (slabsFor fy2025_26 useNewRegime senior verySenior))
      fy2025_26.surchargeBrackets
      (if useNewRegime then some fy2025_26.newRegimeSurchargeCapPercent else none) := by
  have hasc := slabsFor_ascends useNewRegime senior verySenior
  obtain ⟨top, htop, hwithin⟩ :=
    (Option.any_eq_true _ _).mp (slabsFor_top useNewRegime senior verySenior)
  obtain ⟨hb, hb', he, he', hrate⟩ := of_decide_eq_true hwithin
  have hcap : (if useNewRegime then some fy2025_26.newRegimeSurchargeCapPercent else none) = none ∨
      (if useNewRegime then some fy2025_26.newRegimeSurchargeCapPercent else none) = some 25 := by
    cases useNewRegime
    · exact .inl rfl
    · exact .inr rfl
  refine ⟨slabTaxPaise_steady hasc, ?_, ?_, ?_, top_separate hcap ⟨hb, hb'⟩ ⟨he, he'⟩ ?_⟩
  · rcases hcap with h | h <;> rw [h] <;> decide
  · rcases hcap with h | h <;> rw [h] <;> decide
  · rcases hcap with h | h <;> rw [h] <;> decide
  · intro x hx
    have hpast := slabTaxFrom_past hasc htop (show top.ends ≤ x by omega)
    rw [zero_add, hrate] at hpast
    rw [slabTaxPaise, if_neg (by omega), hpast]

theorem slab_tax_nonneg (h : Ascends 0 slabs) (income : ℤ) : 0 ≤ slabTaxPaise income slabs := by
  have hzero : slabTaxPaise (min income 0) slabs = 0 := by
    rw [slabTaxPaise, if_pos (min_le_right _ _)]
  have hrise := (slabTaxPaise_steady h (min income 0) income (min_le_left _ _)).1
  dsimp only at hrise
  omega

theorem cess_percent_nonneg (currentFy : String) (fy : Option String) :
    0 ≤ (ratesFor currentFy fy).cessPercent := by
  rcases ratesFor_cases currentFy fy with h | h <;> rw [h] <;> decide

/-- The total an entity pays rises from one income to a higher one exactly when its surcharge is
flat or none of it is dropped. -/
theorem entity_total_le_iff (currentFy : String) (fy : Option String) (entity : EntityKind)
    (regime : CompanyRegime) (turnover : Option ℤ) (hab : a ≤ b) :
    ∃ lower higher,
      computeEntityTax currentFy a entity fy regime turnover = .ok lower ∧
      computeEntityTax currentFy b entity fy regime turnover = .ok higher ∧
      let basis := basisOf (entityRatesFor currentFy fy) entity regime turnover
      (lower.totalTaxPaise ≤ higher.totalTaxPaise ↔
        basis.flatSurcharge ≠ none ∨
          SurchargeKept (fun income => income * basis.ratePercent / 100) basis.brackets none
            (max 0 a) (max 0 b)) := by
  obtain ⟨lower, hlower, htotal⟩ := computeEntityTax_total currentFy a entity fy regime turnover
  obtain ⟨higher, hhigher, htotal'⟩ := computeEntityTax_total currentFy b entity fy regime turnover
  refine ⟨lower, higher, hlower, hhigher, ?_⟩
  have hab' : max 0 a ≤ max 0 b := max_le_max_left 0 hab
  have hcases := basisOf_sound currentFy fy entity regime turnover
  have hcess : ∀ label, 0 ≤ (ratesFor currentFy label).cessPercent := cess_percent_nonneg currentFy
  dsimp only at htotal htotal' hcases ⊢
  rw [htotal, htotal']
  generalize basisOf (entityRatesFor currentFy fy) entity regime turnover = basis at hcases ⊢
  rcases hcases with ⟨rate, brackets, hr, hsound, hb⟩ | ⟨rate, hr, hb⟩
  · subst hb
    have hpaid := hsound.payable_le_iff (hcess (some (entityRatesFor currentFy fy).fy)) hab'
      (percent_nonneg (le_max_left 0 a) hr)
    simp only [ne_eq, not_true_eq_false, false_or]
    exact hpaid
  · subst hb
    refine iff_of_true ?_ (.inl (by simp))
    rw [with_cess_le_iff (hcess _)]
    have htax := percent_mono hr hab'
    exact add_le_add htax (percent_mono (by decide) htax)

theorem slab_total_le_iff (currentFy : String) (fy : Option String)
    (useNewRegime senior verySenior : Bool) (hab : a ≤ b) :
    let rates := ratesFor currentFy fy
    let slabs := slabsFor rates useNewRegime senior verySenior
    let newCap := if useNewRegime then some rates.newRegimeSurchargeCapPercent else none
    (slabIncomeTaxPaise rates useNewRegime senior verySenior a ≤
        slabIncomeTaxPaise rates useNewRegime senior verySenior b ↔
      SurchargeKept (slabTaxPaise · slabs) rates.surchargeBrackets newCap a b) := by
  have hsound := slab_sound useNewRegime senior verySenior
  have hn := slab_tax_nonneg (slabsFor_ascends useNewRegime senior verySenior) a
  rcases ratesFor_cases currentFy fy with h | h <;> rw [h] <;>
    exact hsound.payable_le_iff (by decide) hab hn

/-- Tax rises with income, for every entity and every individual with slab income only, exactly
where no surcharge already due is dropped at the next threshold. -/
theorem tax_rises_iff (currentFy : String) (fy : Option String) (hab : a ≤ b) :
    (∀ entity regime turnover, ∃ lower higher,
      computeEntityTax currentFy a entity fy regime turnover = .ok lower ∧
      computeEntityTax currentFy b entity fy regime turnover = .ok higher ∧
      let basis := basisOf (entityRatesFor currentFy fy) entity regime turnover
      (lower.totalTaxPaise ≤ higher.totalTaxPaise ↔
        basis.flatSurcharge ≠ none ∨
          SurchargeKept (fun income => income * basis.ratePercent / 100) basis.brackets none
            (max 0 a) (max 0 b))) ∧
    ∀ useNewRegime senior verySenior,
      let rates := ratesFor currentFy fy
      let slabs := slabsFor rates useNewRegime senior verySenior
      let newCap := if useNewRegime then some rates.newRegimeSurchargeCapPercent else none
      (slabIncomeTaxPaise rates useNewRegime senior verySenior a ≤
          slabIncomeTaxPaise rates useNewRegime senior verySenior b ↔
        SurchargeKept (slabTaxPaise · slabs) rates.surchargeBrackets newCap a b) :=
  ⟨fun entity regime turnover => entity_total_le_iff currentFy fy entity regime turnover hab,
    fun useNewRegime senior verySenior =>
      slab_total_le_iff currentFy fy useNewRegime senior verySenior hab⟩

theorem tax_rises_into_first_surcharge :
    slabIncomeTaxPaise (ratesFor "2025-26" none) true false false 500000000 ≤
      slabIncomeTaxPaise (ratesFor "2025-26" none) true false false 500000100 :=
  ((tax_rises_iff "2025-26" none (by norm_num)).2 true false false).mpr (by decide +kernel)

/-- A company at ten crore bears the seven per cent surcharge. One rupee more is relieved to the
bare tax at ten crore and a rupee. -/
theorem tax_falls_past_ten_crore :
    ¬ ∀ a b, a ≤ b → ∀ lower higher,
      computeEntityTax "2025-26" a .domesticCompany none .normal none = .ok lower →
      computeEntityTax "2025-26" b .domesticCompany none .normal none = .ok higher →
      lower.totalTaxPaise ≤ higher.totalTaxPaise := by
  intro h
  have hle := h 10000000000 10000000100 (by norm_num) _ _ rfl rfl
  revert hle
  decide +kernel

/-- An individual at one crore loses the ten per cent surcharge in the same way. -/
example : slabIncomeTaxPaise fy2025_26 true false false 1000000100 <
    slabIncomeTaxPaise fy2025_26 true false false 1000000000 := by decide +kernel

end Caflow.IncomeTax
