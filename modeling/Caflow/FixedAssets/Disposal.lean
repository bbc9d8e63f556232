import Caflow.FixedAssets.Posted

namespace Caflow.FixedAssets

/-- Months offered for posting one after another, each posted or answered as having nothing to
post, whatever the locks, the ledger and the claim on the row answer. -/
inductive Offered : Book → List ℤ → Book → Prop
  | nil {b} : Offered b [] b
  | cons {answers b out b₁ period periods b'} :
      postOneMonth answers b period = .ok (out, b₁) → Offered b₁ periods b' →
        Offered b (period :: periods) b'

/-- From the first month not posted to the one before the disposal. -/
def unpostedMonths (asset : Asset) (disposalDate : Day) : List ℤ :=
  monthsMissingBefore (asset.postedMonth.getD (asset.purchaseDate.month - 1)) disposalDate.month

theorem missing_eq_nil (h : period ≤ posted + 1) : monthsMissingBefore posted period = [] := by
  refine List.eq_nil_iff_forall_not_mem.mpr fun month hmonth => ?_
  have := mem_months_missing.mp hmonth
  omega

theorem missing_cons (h : posted + 1 < period) :
    monthsMissingBefore posted period = (posted + 1) :: monthsMissingBefore (posted + 1) period := by
  unfold monthsMissingBefore
  obtain ⟨n, hn⟩ : ∃ n : ℕ, (period - posted - 1).toNat = n + 1 :=
    ⟨(period - posted - 2).toNat, by omega⟩
  have hrest : (period - (posted + 1) - 1).toNat = n := by omega
  rw [hn, hrest, List.range_succ_eq_map, List.map_cons, List.map_map]
  refine congrArg₂ List.cons (by simp) (List.map_congr_left fun i _ => ?_)
  simp only [Function.comp_apply]
  push_cast
  ring

theorem missing_concat (h : posted + 1 < period) :
    monthsMissingBefore posted period = monthsMissingBefore posted (period - 1) ++ [period - 1] := by
  unfold monthsMissingBefore
  obtain ⟨n, hn⟩ : ∃ n : ℕ, (period - posted - 1).toNat = n + 1 :=
    ⟨(period - posted - 2).toNat, by omega⟩
  have hrest : (period - 1 - posted - 1).toNat = n := by omega
  rw [hn, hrest, List.range_succ, List.map_append, List.map_singleton]
  congr 2
  omega

/-- What `dispose_asset` finds unposted is what there is to offer. -/
theorem outstanding_eq (asset : Asset) (disposalDate : Day) :
    depreciationMonthsOutstanding asset disposalDate = unpostedMonths asset disposalDate := by
  unfold depreciationMonthsOutstanding unpostedMonths
  cases asset.postedMonth with
  | none =>
    simp only [Option.getD_none]
    split
    · rw [missing_eq_nil (by omega)]
    · have hfirst : asset.purchaseDate.month - 1 + 1 < disposalDate.month := by omega
      rw [missing_cons hfirst, sub_add_cancel]
  | some posted =>
    simp only [Option.getD_some]
    split
    · rw [missing_eq_nil (by omega)]
    · rfl

theorem not_refused_iff : unpostedRefusal asset disposalDate = none ↔
    unpostedMonths asset disposalDate = [] := by
  unfold unpostedRefusal
  rw [outstanding_eq]
  dsimp only
  split
  · exact iff_of_true rfl ‹_›
  · exact iff_of_false (by simp) ‹_›

namespace Offered

theorem concat (h : Offered b (months ++ [last]) b') :
    ∃ b₁ answers out, Offered b months b₁ ∧ postOneMonth answers b₁ last = .ok (out, b') := by
  induction months generalizing b with
  | nil =>
    obtain ⟨⟩ | ⟨hpost, hrest⟩ := h
    cases hrest
    exact ⟨b, _, _, .nil, hpost⟩
  | cons month months ih =>
    obtain ⟨⟩ | ⟨hpost, hrest⟩ := h
    obtain ⟨b₁, answers, out, hoffered, hlast⟩ := ih hrest
    exact ⟨b₁, answers, out, .cons hpost hoffered, hlast⟩

/-- The answers of others decide whether a month is accepted, not what it does. -/
theorem deterministic (h : Offered b months b₁) (h' : Offered b months b₂) : b₁ = b₂ := by
  induction h with
  | nil => cases h'; rfl
  | cons hpost _ ih =>
    obtain ⟨⟩ | ⟨hpost', hrest⟩ := h'
    obtain ⟨-, c, hcharge, hone⟩ := post_cases hpost
    obtain ⟨-, c', hcharge', hother⟩ := post_cases hpost'
    obtain rfl := Except.ok.inj (hcharge.symm.trans hcharge')
    rcases hone with ⟨hnone, rfl, -⟩ | ⟨hpos, rfl, -⟩ <;>
      rcases hother with ⟨hnone', rfl, -⟩ | ⟨hpos', rfl, -⟩
    · exact ih hrest
    · omega
    · omega
    · exact ih hrest

end Offered

/-- The month before the disposal is unposted after it was offered exactly if it had no charge. -/
theorem last_posted_iff (hpost : postOneMonth answers b₁ (d.month - 1) = .ok (out, b')) :
    unpostedMonths b'.asset d = [] ↔
      ∃ c, b₁.asset.chargeFor (b₁.asset.openingUsed (d.month - 1)) (d.month - 1) = .ok c ∧ 0 < c := by
  obtain ⟨hready, c, hcharge, ⟨hnone, rfl, -⟩ | ⟨hpos, rfl, -⟩⟩ := post_cases hpost
  · refine iff_of_false (fun hempty => ?_) ?_
    · -- the mark has not moved, so the month offered is still missing
      have hmissing : d.month - 1 ∈ unpostedMonths b'.asset d := by
        refine mem_months_missing.mpr ⟨?_, by omega⟩
        cases hposted : b'.asset.postedMonth with
        | none =>
          have := hready.held
          rw [Option.getD_none]
          omega
        | some posted =>
          have := hready.next posted hposted
          rw [Option.getD_some]
          omega
      rw [hempty] at hmissing
      cases hmissing
    · rintro ⟨c', hcharge', hpos⟩
      obtain rfl := Except.ok.inj (hcharge.symm.trans hcharge')
      omega
  · refine iff_of_true (missing_eq_nil ?_) ⟨c, hcharge, hpos⟩
    simp [Book.charge, Asset.postedMonth, periodEndDate]

/-- Once every month from the first unposted one to the one before a disposal has been offered, the
disposal is not refused for unposted months exactly if the last of them had a charge. -/
theorem disposal_not_blocked_iff (h : Offered b (unpostedMonths b.asset d) b') :
    unpostedRefusal b'.asset d = none ↔
      ∀ months last, unpostedMonths b.asset d = months ++ [last] →
        ∃ b₁ c, Offered b months b₁ ∧
          b₁.asset.chargeFor (b₁.asset.openingUsed last) last = .ok c ∧ 0 < c := by
  rw [not_refused_iff]
  by_cases hlast : b.asset.postedMonth.getD (b.asset.purchaseDate.month - 1) + 1 < d.month
  · have hmonths := missing_concat hlast
    unfold unpostedMonths at h
    rw [hmonths] at h
    obtain ⟨b₁, answers, out, hoffered, hpost⟩ := h.concat
    rw [last_posted_iff hpost]
    constructor
    · rintro ⟨c, hcharge, hpos⟩ months last hsplit
      obtain ⟨rfl, hsame⟩ := List.append_inj' (hmonths.symm.trans hsplit) rfl
      obtain rfl := List.singleton_inj.mp hsame
      exact ⟨b₁, c, hoffered, hcharge, hpos⟩
    · intro hall
      obtain ⟨b₂, c, hoffered', hcharge, hpos⟩ := hall _ _ hmonths
      obtain rfl := hoffered.deterministic hoffered'
      exact ⟨c, hcharge, hpos⟩
  · have hnone : unpostedMonths b.asset d = [] := missing_eq_nil (by omega)
    rw [hnone] at h
    cases h
    exact iff_of_true hnone fun months last hsplit => by simp [hnone] at hsplit

/-- A printer bought on 10 June 2025, written off in equal parts. -/
def printer : Asset :=
  { category := "Office Equipment", purchaseDate := ⟨24305, 10⟩, purchaseCostPaise := 1200000,
    salvageValuePaise := 0, method := .sl, usefulLifeYears := none, wdvRatePercent := none,
    isDisposed := false, openingPositionDate := none,
    register := ⟨0, 1200000, none, none, none⟩ }

theorem printer_disposed : ∃ b', Offered ⟨printer, []⟩ [24305, 24306] b' ∧
    unpostedRefusal b'.asset ⟨24307, 15⟩ = none := by
  let june := bookOf printer [⟨24305, 14000⟩] (some 2025) (some 0)
  let july := bookOf printer [⟨24305, 14000⟩, ⟨24306, 20000⟩] (some 2025) (some 0)
  have hjune : postOneMonth .accepting ⟨printer, []⟩ 24305 = .ok (.posted 14000 [], june) := by
    decide +kernel
  have hjuly : postOneMonth .accepting june 24306 = .ok (.posted 20000 [], july) := by
    decide +kernel
  have hoffered : Offered ⟨printer, []⟩ (unpostedMonths printer ⟨24307, 15⟩) july :=
    .cons hjune (.cons hjuly .nil)
  refine ⟨july, hoffered, (disposal_not_blocked_iff hoffered).mpr fun months last hsplit => ?_⟩
  have hmonths : unpostedMonths printer ⟨24307, 15⟩ = [24305] ++ [24306] := by decide
  obtain ⟨rfl, hlast⟩ := List.append_inj' (hmonths.symm.trans hsplit) rfl
  obtain rfl := List.singleton_inj.mp hlast
  exact ⟨june, 20000, .cons hjune .nil, by decide +kernel, by decide⟩

/-- A plot of land, bought on 10 June 2025. -/
def plot : Asset := { printer with category := "Land" }

/-- June, July and August have nothing to post, and the sale in September is refused for them. -/
theorem land_cannot_be_sold :
    Offered ⟨plot, []⟩ (unpostedMonths plot ⟨24308, 15⟩) ⟨plot, []⟩ ∧
      unpostedRefusal plot ⟨24308, 15⟩ ≠ none := by
  have hnothing : ∀ period ∈ [24305, 24306, 24307], postOneMonth .accepting ⟨plot, []⟩ period =
      .ok (.nothing "Asset fully depreciated", ⟨plot, []⟩) := by
    decide +kernel
  have hoffered : Offered ⟨plot, []⟩ [24305, 24306, 24307] ⟨plot, []⟩ :=
    .cons (hnothing _ (by simp)) (.cons (hnothing _ (by simp)) (.cons (hnothing _ (by simp)) .nil))
  exact ⟨hoffered, by decide +kernel⟩

end Caflow.FixedAssets
