import Caflow.FixedAssets.Posted

namespace Caflow.FixedAssets

theorem fy_eq (month : ℤ) : fyOf month = (month - 3) / 12 := by
  unfold fyOf
  split_ifs <;> omega

/-- The place of a month in its financial year, April the first. -/
def monthOfFy (month : ℤ) : ℤ := (month - 3) % 12 + 1

theorem month_of_fy_next {m : ℤ} (h : fyOf (m + 1) = fyOf m) : monthOfFy (m + 1) = monthOfFy m + 1 := by
  rw [fy_eq, fy_eq] at h
  unfold monthOfFy
  omega

theorem month_of_fy_bounds (m : ℤ) : 1 ≤ monthOfFy m ∧ monthOfFy m ≤ 12 := by
  unfold monthOfFy
  omega

namespace Asset

variable (asset : Asset)

def lifeYears : Option ℕ :=
  (asset.usefulLifeYears.filter (· ≠ 0)).or (defaultLife asset.categoryOrOther)

def ratePercent : Option ℚ := asset.wdvRatePercent.or (defaultWdvRate asset.categoryOrOther)

/-- What the carrying value stops at: the salvage value and, on a reducing balance, the residual that
the rate and the life imply where that is the larger. -/
def floorPaise : ℤ :=
  if asset.method = .sl then asset.salvageValuePaise
  else asset.ratePercent.elim asset.salvageValuePaise fun rate =>
    max asset.salvageValuePaise (asset.wdvResidualAtEndOfLife rate)

/-- A full year's figure of the method from an opening balance, before it is held to the floor. -/
def yearFigure (accum : ℤ) : ℤ :=
  if asset.method = .sl then
    asset.lifeYears.elim 0 fun life => (asset.purchaseCostPaise - asset.salvageValuePaise) / life
  else
    asset.ratePercent.elim 0 fun rate => ⌊((asset.purchaseCostPaise - accum : ℤ) : ℚ) * rate / 100⌋

def carryingPaise : ℤ := asset.purchaseCostPaise - asset.register.accumulatedPaise

/-- An asset in use that has something to be depreciated by, and what the form checks of it. -/
structure Depreciable : Prop where
  cost : 0 ≤ asset.purchaseCostPaise
  salvage : asset.salvageValuePaise ≤ asset.purchaseCostPaise
  purchaseDay : 1 ≤ asset.purchaseDate.day
  live : asset.isDisposed = false
  category : ¬ notDepreciable asset.categoryOrOther
  life : asset.method = .sl → asset.lifeYears ≠ none
  rate : asset.method = .wdv → asset.ratePercent ≠ none

variable {asset}

/-- A year's charge is the method's figure, held to what is left above the floor. -/
theorem compute_eq (h : asset.Depreciable) (accum : ℤ) :
    asset.computeAnnualDepreciation accum =
      .ok (if asset.purchaseCostPaise - accum ≤ asset.floorPaise then 0
        else min (asset.yearFigure accum) (asset.purchaseCostPaise - accum - asset.floorPaise)) := by
  unfold computeAnnualDepreciation floorPaise yearFigure
  dsimp only
  rw [if_neg h.category]
  cases hm : asset.method with
  | sl =>
    obtain ⟨life, hlife⟩ := Option.ne_none_iff_exists'.mp (h.life hm)
    simp only [if_true, hlife, Option.elim_some]
    unfold lifeYears at hlife
    simp only [hlife]
    split_ifs <;> rfl
  | wdv =>
    obtain ⟨rate, hrate⟩ := Option.ne_none_iff_exists'.mp (h.rate hm)
    simp only [reduceCtorEq, if_false, hrate, Option.elim_some]
    unfold ratePercent at hrate
    simp only [hrate]
    split_ifs <;> rfl

theorem reduce_le (hrate : 0 < rate) (hwdv : 0 ≤ wdv) : reduce rate wdv ≤ wdv := by
  have hcharge : 0 ≤ ⌊(wdv : ℚ) * rate / 100⌋ := by
    apply Int.floor_nonneg.mpr
    have hwdv' : (0 : ℚ) ≤ wdv := by exact_mod_cast hwdv
    positivity
  unfold reduce
  omega

theorem chain_le (hrate : 0 < rate) (years : ℕ) (hwdv : 0 ≤ wdv) : wdvChain rate years wdv ≤ wdv := by
  induction years generalizing wdv with
  | zero => exact le_rfl
  | succ years ih =>
    rw [wdvChain]
    split_ifs with hspent
    · exact hwdv
    · exact (ih (not_le.mp hspent).le).trans (reduce_le hrate hwdv)

theorem residual_le (h : asset.Depreciable) (rate : ℚ) :
    asset.wdvResidualAtEndOfLife rate ≤ asset.purchaseCostPaise := by
  have hcost := h.cost
  unfold wdvResidualAtEndOfLife
  dsimp only
  split_ifs with hnone hrate hall
  · exact hcost
  · exact le_rfl
  · exact hcost
  · exact chain_le (not_le.mp hrate) _ hcost

theorem floor_le_cost (h : asset.Depreciable) : asset.floorPaise ≤ asset.purchaseCostPaise := by
  unfold floorPaise
  split_ifs
  · exact h.salvage
  · cases asset.ratePercent with
    | none => exact h.salvage
    | some rate => exact max_le h.salvage (residual_le h rate)

/-- A month's charge is at most a twelfth of the year's. -/
theorem monthly_le (h : asset.Depreciable) {annual : ℤ} (hannual : 0 ≤ annual) (period : ℤ) :
    asset.monthlyCharge annual period ≤ annual / 12 := by
  have hday := h.purchaseDay
  have hmonthly : 0 ≤ annual / 12 := by omega
  unfold monthlyCharge proratePurchaseMonth
  dsimp only
  split_ifs with hfirst
  · rcases Nat.eq_zero_or_pos (daysIn asset.purchaseDate.month) with hnone | hdays
    · rw [hnone]
      simpa using hmonthly
    · apply Int.ediv_le_of_le_mul (by exact_mod_cast hdays)
      apply mul_le_mul_of_nonneg_left _ hmonthly
      omega
  · exact le_rfl

theorem charge_for_ok (h : asset.Depreciable) (opening period : ℤ) :
    ∃ c, asset.chargeFor opening period = .ok c := by
  rw [chargeFor, compute_eq h]
  exact ⟨_, rfl⟩

/-- A month that is charged takes at most a twelfth of a year's charge worked out from the opening
balance, and the year's charge leaves the floor. -/
theorem charge_bounds (h : asset.Depreciable) (hcharge : asset.chargeFor opening period = .ok c)
    (hpos : 0 < c) : ∃ annual, asset.computeAnnualDepreciation opening = .ok annual ∧ c ≤ annual / 12 ∧
      annual ≤ asset.purchaseCostPaise - opening - asset.floorPaise := by
  unfold chargeFor at hcharge
  rw [compute_eq h, Except.map] at hcharge
  have hc := Except.ok.inj hcharge
  refine ⟨_, compute_eq h opening, ?_, ?_⟩
  · split_ifs at hc ⊢ with hleft hannual hannual
    · omega
    · omega
    · omega
    · rw [← hc]
      exact monthly_le h (not_le.mp hannual).le period
  · split_ifs at hc ⊢ with hleft hannual hannual
    · omega
    · omega
    · exact min_le_right _ _
    · exact min_le_right _ _

/-- A month other than the purchase month with no charge has a year's charge below twelve paise. -/
theorem no_charge (h : asset.Depreciable) (hcharge : asset.chargeFor opening period = .ok c)
    (hnone : c ≤ 0) (hother : period ≠ asset.purchaseDate.month) :
    asset.purchaseCostPaise - opening - asset.floorPaise < 12 ∨ asset.yearFigure opening < 12 := by
  unfold chargeFor at hcharge
  rw [compute_eq h, Except.map] at hcharge
  have hc := Except.ok.inj hcharge
  unfold monthlyCharge at hc
  rw [if_neg hother] at hc
  by_cases hleft : asset.purchaseCostPaise - opening ≤ asset.floorPaise
  · left
    omega
  · rw [if_neg hleft] at hc
    have hsmall : min (asset.yearFigure opening)
        (asset.purchaseCostPaise - opening - asset.floorPaise) < 12 := by
      split_ifs at hc <;> omega
    exact (min_lt_iff.mp hsmall).symm

end Asset

/-- The book after a month is offered for posting; a refusal leaves it as it was. -/
def offer (book : Book) (period : ℤ) : Book :=
  match postOneMonth .accepting book period with
  | .ok (_, book') => book'
  | .error _ => book

/-- The book after so many months are offered in order. -/
def offered (book : Book) (first : ℤ) : ℕ → Book
  | 0 => book
  | n + 1 => offer (offered book first n) (first + n)

/-- A month offered is charged, or leaves the book as it was. -/
theorem offer_cases (book : Book) (period : ℤ) :
    offer book period = book ∨ ∃ c, 0 < c ∧ Ready book.asset period ∧
      book.asset.chargeFor (book.asset.openingUsed period) period = .ok c ∧
      offer book period = book.charge period c := by
  cases hpost : postOneMonth .accepting book period with
  | error refusal => exact .inl (by simp [offer, hpost])
  | ok result =>
    obtain ⟨out, book'⟩ := result
    have hoffer : offer book period = book' := by simp [offer, hpost]
    obtain ⟨hready, c, hcharge, ⟨-, hsame, -⟩ | ⟨hpos, hnew, -⟩⟩ := post_cases hpost
    · exact .inl (hoffer.trans hsame)
    · exact .inr ⟨c, hpos, hready, hcharge, hoffer.trans hnew⟩

/-- A row that nothing has been posted on, whatever was accumulated before it was taken on. -/
structure Fresh (asset : Asset) : Prop where
  posted : asset.register.postedThrough = none
  fy : asset.register.fy = none

section
variable {book : Book} {first : ℤ}

theorem offered_same (book : Book) (first : ℤ) (n : ℕ) :
    (offered book first n).asset =
      { book.asset with register := (offered book first n).asset.register } := by
  induction n with
  | zero => rfl
  | succ n ih =>
    rcases offer_cases (offered book first n) (first + n) with h | ⟨c, -, -, -, h⟩
    · rw [offered, h]
      exact ih
    · rw [offered, h, Book.charge]
      dsimp only
      rw [ih]

theorem offered_charge (book : Book) (first : ℤ) (n : ℕ) (opening period : ℤ) :
    (offered book first n).asset.chargeFor opening period = book.asset.chargeFor opening period := by
  rw [offered_same]
  rfl

theorem offered_carrying (book : Book) (first : ℤ) (n : ℕ) :
    (offered book first n).asset.carryingPaise =
      book.asset.purchaseCostPaise - (offered book first n).asset.register.accumulatedPaise := by
  rw [offered_same]
  rfl

/-- A month that is offered moves the register as its charge does, or not at all. -/
theorem offered_step (book : Book) (first : ℤ) (n : ℕ) :
    offered book first (n + 1) = offered book first n ∨ ∃ c, 0 < c ∧
      Ready (offered book first n).asset (first + n) ∧
      book.asset.chargeFor ((offered book first n).asset.openingUsed (first + n)) (first + n) = .ok c ∧
      (offered book first (n + 1)).asset.register =
        ⟨(offered book first n).asset.register.accumulatedPaise + c,
          book.asset.purchaseCostPaise - ((offered book first n).asset.register.accumulatedPaise + c),
          some (periodEndDate (first + n)), some (fyOf (first + n)),
          some ((offered book first n).asset.openingUsed (first + n))⟩ := by
  rcases offer_cases (offered book first n) (first + n) with h | ⟨c, hpos, hready, hcharge, h⟩
  · exact .inl h
  · refine .inr ⟨c, hpos, hready, offered_charge book first n _ _ ▸ hcharge, ?_⟩
    have hcost : (offered book first n).asset.purchaseCostPaise = book.asset.purchaseCostPaise := by
      rw [offered_same]
    rw [offered, h, ← hcost]
    rfl

/-- The year held on the row is that of a month already offered. -/
theorem fy_offered (hfresh : Fresh book.asset) (n : ℕ) {y : ℤ}
    (hy : (offered book first n).asset.register.fy = some y) : ∃ m : ℕ, m < n ∧ y = fyOf (first + m) := by
  induction n with
  | zero => exact absurd (hfresh.fy.symm.trans hy) (by simp)
  | succ n ih =>
    rcases offered_step book first n with h | ⟨c, -, -, -, hregister⟩
    · obtain ⟨m, hm, rfl⟩ := ih (h ▸ hy)
      exact ⟨m, by omega, rfl⟩
    · rw [hregister] at hy
      exact ⟨n, by omega, (Option.some.inj hy).symm⟩

/-- The opening balance of a year: what is accumulated when its first month comes up. -/
def openingOfYear (book : Book) (first fy : ℤ) : ℤ :=
  (offered book first (12 * fy + 3 - first).toNat).asset.register.accumulatedPaise

/-- The year's opening balance is what every month of the year is charged from. -/
theorem opening_offered (hfresh : Fresh book.asset) (n : ℕ) :
    (offered book first n).asset.openingUsed (first + n) =
      openingOfYear book first (fyOf (first + n)) := by
  have hnew : ∀ n : ℕ, (12 * fyOf (first + n) + 3 - first).toNat = n →
      (∀ m : ℕ, m < n → fyOf (first + m) ≠ fyOf (first + n)) →
      (offered book first n).asset.openingUsed (first + n) =
        openingOfYear book first (fyOf (first + n)) := by
    intro n hfirst hbefore
    have hother : (offered book first n).asset.register.fy ≠ some (fyOf (first + n)) := by
      intro hy
      obtain ⟨m, hm, he⟩ := fy_offered hfresh n hy
      exact hbefore m hm he.symm
    rw [Asset.openingUsed, if_neg hother, openingOfYear, hfirst]
  induction n with
  | zero => exact hnew 0 (by rw [fy_eq]; omega) fun m hm => absurd hm (Nat.not_lt_zero m)
  | succ n ih =>
    by_cases hsame : fyOf (first + (n + 1 : ℕ)) = fyOf (first + n)
    · rw [hsame, ← ih]
      rcases offered_step book first n with h | ⟨c, -, -, -, hregister⟩
      · rw [h, Asset.openingUsed, Asset.openingUsed, hsame]
      · rw [Asset.openingUsed, hregister, hsame, if_pos rfl, Option.getD_some]
    · -- a month of another year than the one before it is the first of its year
      rw [fy_eq, fy_eq] at hsame
      refine hnew (n + 1) ?_ fun m hm he => hsame ?_
      · rw [fy_eq]
        push_cast at hsame ⊢
        omega
      · rw [fy_eq, fy_eq] at he
        push_cast at he ⊢
        omega

/-- The year a row's last posted month is in: its charge, and what of it has been posted. -/
structure YearHeld (asset : Asset) (register : Register) (posted opening annual : ℤ) : Prop where
  figure : asset.computeAnnualDepreciation opening = .ok annual
  twelfth : 0 < annual / 12
  left : annual ≤ asset.purchaseCostPaise - opening - asset.floorPaise
  mark : register.postedThrough = some (periodEndDate posted)
  fy : register.fy = some (fyOf posted)
  start : register.fyStartAccumPaise = some opening
  accumulated : register.accumulatedPaise ≤ opening + monthOfFy posted * (annual / 12)

/-- A year opens with what is accumulated, and its first charge is at most a month's. -/
theorem YearHeld.opened {asset : Asset} {register : Register} {opening period c : ℤ}
    (hdep : asset.Depreciable) (hcharge : asset.chargeFor opening period = .ok c) (hpos : 0 < c)
    (haccum : register.accumulatedPaise = opening + c)
    (hmark : register.postedThrough = some (periodEndDate period))
    (hfy : register.fy = some (fyOf period)) (hstart : register.fyStartAccumPaise = some opening) :
    ∃ annual, YearHeld asset register period opening annual := by
  obtain ⟨annual, hannual, htwelfth, hleft⟩ := Asset.charge_bounds hdep hcharge hpos
  refine ⟨annual, hannual, by omega, hleft, hmark, hfy, hstart, ?_⟩
  have hmonths := (month_of_fy_bounds period).1
  have hone : annual / 12 ≤ monthOfFy period * (annual / 12) :=
    le_mul_of_one_le_left (by omega) hmonths
  omega

theorem YearHeld.floor_le {asset : Asset} {register : Register} {posted opening annual : ℤ}
    (h : YearHeld asset register posted opening annual) :
    asset.floorPaise ≤ asset.purchaseCostPaise - register.accumulatedPaise := by
  have hleft := h.left
  have haccum := h.accumulated
  have htwelfth := h.twelfth
  have htwelve : monthOfFy posted * (annual / 12) ≤ 12 * (annual / 12) :=
    mul_le_mul_of_nonneg_right (month_of_fy_bounds posted).2 htwelfth.le
  omega

/-- Nothing has been posted, or the row holds the year that its last month is in. -/
theorem year_held (first : ℤ) (hdep : book.asset.Depreciable) (hfresh : Fresh book.asset)
    (n : ℕ) :
    (offered book first n).asset.register = book.asset.register ∨
      ∃ posted opening annual,
        YearHeld book.asset (offered book first n).asset.register posted opening annual := by
  induction n with
  | zero => exact .inl rfl
  | succ n ih =>
    rcases offered_step book first n with h | ⟨c, hpos, hready, hcharge, hregister⟩
    · rw [h]
      exact ih
    · right
      by_cases hused : (offered book first n).asset.openingUsed (first + n) =
          (offered book first n).asset.register.accumulatedPaise
      · rw [hused] at hcharge
        have hopened : ∃ annual, YearHeld book.asset (offered book first (n + 1)).asset.register
            (first + n) (offered book first n).asset.register.accumulatedPaise annual :=
          YearHeld.opened hdep hcharge hpos (by rw [hregister]) (by rw [hregister])
            (by rw [hregister]) (by rw [hregister, hused])
        obtain ⟨annual, hheld⟩ := hopened
        exact ⟨_, _, annual, hheld⟩
      · -- the year goes on: the month takes one more twelfth of the same figure
        rcases ih with hnone | ⟨posted, opening, annual, hheld⟩
        · refine absurd ?_ hused
          rw [Asset.openingUsed, hnone, if_neg (by simp [hfresh.fy])]
        · have hyear : fyOf posted = fyOf (first + n) := by
            by_contra hne
            refine hused ?_
            rw [Asset.openingUsed, hheld.fy, if_neg (by simpa using hne)]
          have hopening : (offered book first n).asset.openingUsed (first + n) = opening := by
            rw [Asset.openingUsed, hheld.fy, hheld.start, if_pos (by rw [hyear]), Option.getD_some]
          have hnext : first + n = posted + 1 :=
            hready.next posted (by simp [Asset.postedMonth, hheld.mark, periodEndDate])
          rw [hopening] at hcharge
          obtain ⟨annual', hannual, hc, -⟩ := Asset.charge_bounds hdep hcharge hpos
          obtain rfl : annual = annual' := Except.ok.inj (hheld.figure.symm.trans hannual)
          refine ⟨first + n, opening, annual, hannual, hheld.twelfth, hheld.left, by rw [hregister],
            by rw [hregister], by rw [hregister, hopening], ?_⟩
          have hmonth : monthOfFy (first + n) = monthOfFy posted + 1 := by
            rw [hnext]
            exact month_of_fy_next (by rw [← hnext, hyear])
          have haccum := hheld.accumulated
          rw [hregister, hmonth, add_mul, one_mul]
          dsimp only
          omega

theorem carrying_bounded (first : ℤ) (hdep : book.asset.Depreciable) (hfresh : Fresh book.asset)
    (n : ℕ) :
    min book.asset.floorPaise book.asset.carryingPaise ≤ (offered book first n).asset.carryingPaise := by
  rw [offered_carrying]
  rcases year_held first hdep hfresh n with hnone | ⟨posted, opening, annual, hheld⟩
  · rw [hnone]
    exact min_le_right _ _
  · exact (min_le_left _ _).trans hheld.floor_le

theorem carrying_antitone (book : Book) (first : ℤ) :
    Antitone fun n => (offered book first n).asset.carryingPaise := by
  refine antitone_nat_of_succ_le fun n => ?_
  rw [offered_carrying, offered_carrying]
  rcases offered_step book first n with h | ⟨c, hpos, -, -, hregister⟩
  · rw [h]
  · rw [hregister]
    dsimp only
    omega

/-- The books come to a stand: what is left above the bound goes down with every charge. -/
theorem comes_to_stand (first : ℤ) (hdep : book.asset.Depreciable) (hfresh : Fresh book.asset) :
    ∃ N, ∀ n, N ≤ n → offered book first n = offered book first N := by
  have hanti : Antitone fun n => ((offered book first n).asset.carryingPaise -
      min book.asset.floorPaise book.asset.carryingPaise).toNat := by
    intro m n hmn
    have := carrying_antitone book first hmn
    dsimp only at this ⊢
    omega
  obtain ⟨N, hN⟩ := WellFoundedLT.antitone_chain_condition hanti
  refine ⟨N, fun n hn => ?_⟩
  induction n, hn using Nat.le_induction with
  | base => rfl
  | succ n hn ih =>
    rcases offered_step book first n with h | ⟨c, hpos, -, -, hregister⟩
    · exact h.trans ih
    · have hsame := (hN n hn).symm.trans (hN (n + 1) (by omega))
      have hlow := carrying_bounded first hdep hfresh n
      have hlow' := carrying_bounded first hdep hfresh (n + 1)
      rw [offered_carrying] at hlow hlow'
      rw [offered_carrying, offered_carrying] at hsame
      rw [hregister] at hsame hlow'
      dsimp only at hsame hlow'
      omega

/-- A month that could be posted and leaves the book as it was has no charge. -/
theorem none_charged (hdep : book.asset.Depreciable) {n : ℕ}
    (hsame : offered book first (n + 1) = offered book first n)
    (hready : Ready (offered book first n).asset (first + n)) :
    ∃ c, book.asset.chargeFor ((offered book first n).asset.openingUsed (first + n)) (first + n) = .ok c ∧
      c ≤ 0 := by
  obtain ⟨c, hcharge⟩ := Asset.charge_for_ok hdep
    ((offered book first n).asset.openingUsed (first + n)) (first + n)
  refine ⟨c, hcharge, not_lt.mp fun hpos => ?_⟩
  obtain ⟨foreclosed, hpost⟩ := post_ready hready ((offered_charge book first n _ _).trans hcharge) hpos
  have hbook : offered book first (n + 1) = (offered book first n).charge (first + n) c := by
    rw [offered, offer, hpost]
  have haccum := congrArg (fun b => b.asset.register.accumulatedPaise) (hbook.symm.trans hsame)
  simp only [Book.charge] at haccum
  omega

/-- Where the books stand, less than twelve paise are left above the floor, or a full year's figure is
itself less than twelve. -/
theorem stands_below_twelve (first : ℤ) (hdep : book.asset.Depreciable) (hfresh : Fresh book.asset) :
    ∃ N, (∀ n, N ≤ n → offered book first n = offered book first N) ∧
      ((offered book first N).asset.carryingPaise - book.asset.floorPaise < 12 ∨
        book.asset.yearFigure (offered book first N).asset.register.accumulatedPaise < 12) := by
  classical
  have hstand := comes_to_stand first hdep hfresh
  have hN := Nat.find_spec hstand
  refine ⟨Nat.find hstand, hN, ?_⟩
  rw [offered_carrying]
  have hlive : ∀ n, (offered book first n).asset.isDisposed = false := fun n => by
    rw [offered_same]
    exact hdep.live
  have hheld : ∀ n, (offered book first n).asset.purchaseDate = book.asset.purchaseDate := fun n => by
    rw [offered_same]
  cases hfind : Nat.find hstand with
  | zero =>
    -- nothing was ever posted: a month after the purchase month has no charge
    rw [hfind] at hN
    have hstill : ∀ n, offered book first n = book := fun n => hN n (Nat.zero_le n)
    set n := (book.asset.purchaseDate.month + 1 - first).toNat with hn
    have hready : Ready (offered book first n).asset (first + n) := by
      refine ⟨hlive n, fun posted hposted => ?_, ?_⟩
      · rw [hstill, Asset.postedMonth, hfresh.posted] at hposted
        cases hposted
      · rw [hheld]
        omega
    obtain ⟨c, hcharge, hnone⟩ := none_charged hdep (by rw [hstill, hstill]) hready
    have hused : (offered book first n).asset.openingUsed (first + n) =
        book.asset.register.accumulatedPaise := by
      rw [hstill, Asset.openingUsed, if_neg (by simp [hfresh.fy])]
    rw [hused] at hcharge
    exact Asset.no_charge hdep hcharge hnone (by omega)
  | succ k =>
    rw [hfind] at hN
    have hmoved : offered book first (k + 1) ≠ offered book first k := by
      intro hsame
      refine Nat.find_min hstand (m := k) (by omega) fun n hn => ?_
      rcases Nat.eq_or_lt_of_le hn with rfl | hlt
      · rfl
      · exact (hN n hlt).trans hsame
    obtain ⟨c, -, hbefore, -, hregister⟩ := (offered_step book first k).resolve_left hmoved
    have hpurchase := hbefore.held
    rw [hheld] at hpurchase
    have hready : Ready (offered book first (k + 1)).asset (first + (k + 1 : ℕ)) := by
      refine ⟨hlive (k + 1), fun posted hposted => ?_, ?_⟩
      · rw [Asset.postedMonth, hregister] at hposted
        have hposted := Option.some.inj hposted
        simp only [periodEndDate] at hposted
        push_cast
        omega
      · rw [hheld]
        push_cast
        omega
    obtain ⟨c', hcharge, hnone⟩ := none_charged hdep (hN (k + 2) (by omega)) hready
    have hother : first + (k + 1 : ℕ) ≠ book.asset.purchaseDate.month := by
      push_cast
      omega
    by_cases hused : (offered book first (k + 1)).asset.openingUsed (first + (k + 1 : ℕ)) =
        (offered book first (k + 1)).asset.register.accumulatedPaise
    · rw [hused] at hcharge
      exact Asset.no_charge hdep hcharge hnone hother
    · -- in the year of the month just posted there is a charge still
      exfalso
      rcases year_held first hdep hfresh (k + 1) with hnothing | ⟨posted, opening, annual, h⟩
      · refine hused ?_
        rw [Asset.openingUsed, hnothing, if_neg (by simp [hfresh.fy])]
      · have hopening : (offered book first (k + 1)).asset.openingUsed (first + (k + 1 : ℕ)) = opening := by
          by_cases hyear : fyOf posted = fyOf (first + (k + 1 : ℕ))
          · rw [Asset.openingUsed, h.fy, h.start, if_pos (by rw [hyear]), Option.getD_some]
          · refine absurd ?_ hused
            rw [Asset.openingUsed, h.fy, if_neg (by simpa using hyear)]
        have htwelfth := h.twelfth
        rw [hopening, Asset.chargeFor, h.figure, Except.map, if_neg (by omega), Asset.monthlyCharge,
          if_neg hother] at hcharge
        obtain rfl := Except.ok.inj hcharge
        omega

end

/-- An asset's months offered in order, from any month: every charge is at most a twelfth of the figure
that its year opened with, the carrying value does not come below the floor, and after so many months
no further charge is made, when less than twelve paise are left above the floor or a full year's
figure is itself less than that. -/
theorem depreciation_within (book : Book) (first : ℤ) (hdep : book.asset.Depreciable)
    (hfresh : Fresh book.asset) :
    (∀ n c foreclosed book', postOneMonth .accepting (offered book first n) (first + n) =
        .ok (.posted c foreclosed, book') →
      0 < c ∧ ∃ annual, book.asset.computeAnnualDepreciation
        (openingOfYear book first (fyOf (first + n))) = .ok annual ∧ 12 * c ≤ annual) ∧
    (book.asset.register.accumulatedPaise = 0 → book.asset.floorPaise ≤ book.asset.carryingPaise) ∧
    (∀ n, min book.asset.floorPaise book.asset.carryingPaise ≤
      (offered book first n).asset.carryingPaise) ∧
    ∃ N, (∀ n, N ≤ n → offered book first n = offered book first N) ∧
      ((offered book first N).asset.carryingPaise - book.asset.floorPaise < 12 ∨
        book.asset.yearFigure (offered book first N).asset.register.accumulatedPaise < 12) := by
  refine ⟨fun n c foreclosed book' hpost => ?_, fun hzero => ?_, carrying_bounded first hdep hfresh,
    stands_below_twelve first hdep hfresh⟩
  · obtain ⟨-, c', hcharge, ⟨-, -, message, hnothing⟩ | ⟨hpos, -, foreclosed', hposted⟩⟩ :=
      post_cases hpost
    · cases hnothing
    · obtain ⟨rfl, -⟩ := Outcome.posted.inj hposted
      rw [offered_charge, opening_offered hfresh] at hcharge
      obtain ⟨annual, hannual, htwelfth, -⟩ := Asset.charge_bounds hdep hcharge hpos
      exact ⟨hpos, annual, hannual, by omega⟩
  · have hfloor := Asset.floor_le_cost hdep
    rw [Asset.carryingPaise, hzero, sub_zero]
    exact hfloor

/-- A desk bought on a tenth of April, with nothing posted yet. -/
def deskBook (costPaise : ℤ) : Book :=
  ⟨⟨"Furniture & Fixtures", ⟨24303, 10⟩, costPaise, 0, .sl, some 10, none, false, none,
    ⟨0, costPaise, none, none, none⟩⟩, []⟩

theorem desk_depreciable (hcost : 0 ≤ costPaise) : (deskBook costPaise).asset.Depreciable where
  cost := hcost
  salvage := hcost
  purchaseDay := by simp [deskBook]
  live := rfl
  category := by
    change ¬ notDepreciable "Furniture & Fixtures"
    decide
  life := by simp [deskBook, Asset.lifeYears]
  rate := by simp [deskBook]

theorem desk_fresh (costPaise : ℤ) : Fresh (deskBook costPaise).asset := ⟨rfl, rfl⟩

theorem desk_within :
    ∃ N, (∀ n, N ≤ n → offered (deskBook 1000000) 24303 n = offered (deskBook 1000000) 24303 N) ∧
      ((offered (deskBook 1000000) 24303 N).asset.carryingPaise -
          (deskBook 1000000).asset.floorPaise < 12 ∨
        (deskBook 1000000).asset.yearFigure
          (offered (deskBook 1000000) 24303 N).asset.register.accumulatedPaise < 12) :=
  (depreciation_within (deskBook 1000000) 24303 (desk_depreciable (by decide))
    (desk_fresh 1000000)).2.2.2

/-- A rupee over ten years is ten paise a year and nothing a month: it is never charged. -/
theorem desk_of_a_rupee : (deskBook 100).asset.Depreciable ∧ Fresh (deskBook 100).asset ∧
    ∀ first n, ¬ (offered (deskBook 100) first n).asset.carryingPaise -
      (deskBook 100).asset.floorPaise < 12 := by
  refine ⟨desk_depreciable (by decide), desk_fresh 100, fun first n => ?_⟩
  have hstill : ∀ period, offer (deskBook 100) period = deskBook 100 := by
    intro period
    rcases offer_cases (deskBook 100) period with h | ⟨c, hpos, -, hcharge, -⟩
    · exact h
    · exfalso
      have hannual : (deskBook 100).asset.computeAnnualDepreciation
          ((deskBook 100).asset.openingUsed period) = .ok 10 := by
        rw [Asset.compute_eq (desk_depreciable (by decide))]
        rfl
      rw [Asset.chargeFor, hannual, Except.map] at hcharge
      have hc := Except.ok.inj hcharge
      simp [Asset.monthlyCharge, Asset.proratePurchaseMonth] at hc
      omega
  have hbook : offered (deskBook 100) first n = deskBook 100 := by
    induction n with
    | zero => rfl
    | succ n ih => rw [offered, ih, hstill]
  rw [hbook]
  decide

end Caflow.FixedAssets
