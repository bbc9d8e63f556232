import Caflow.FixedAssets.Depreciation

namespace Caflow.FixedAssets

namespace Asset

/-- The balance that a month's charge is worked out from. -/
def openingUsed (asset : Asset) (period : ℤ) : ℤ :=
  if asset.register.fy = some (fyOf period) then
    asset.register.fyStartAccumPaise.getD asset.register.accumulatedPaise
  else asset.register.accumulatedPaise

/-- A month's charge from an opening balance; nothing is posted where it is not positive. -/
def chargeFor (asset : Asset) (opening period : ℤ) : Except String ℤ :=
  (asset.computeAnnualDepreciation opening).map fun annual =>
    if annual ≤ 0 then 0 else asset.monthlyCharge annual period

theorem annual_eq (asset : Asset) (period : ℤ) :
    asset.annualDepreciationForPeriod period =
      (asset.computeAnnualDepreciation (asset.openingUsed period)).map
        fun annual => (annual, fyOf period, asset.openingUsed period) := rfl

/-- The columns a month's depreciation moves have no say in what is charged from a given balance. -/
@[simp] theorem charge_register (asset : Asset) (register : Register) (opening period : ℤ) :
    ({ asset with register := register }).chargeFor opening period =
      asset.chargeFor opening period := rfl

end Asset

/-- Nothing but the answers of others and the charge itself keeps a month from being posted. -/
structure Ready (asset : Asset) (period : ℤ) : Prop where
  live : asset.isDisposed = false
  next : ∀ posted, asset.postedMonth = some posted → period = posted + 1
  held : asset.purchaseDate.month ≤ period

/-- The book with one more month charged. -/
def Book.charge (book : Book) (period chargePaise : ℤ) : Book :=
  let newAccum := book.asset.register.accumulatedPaise + chargePaise
  ⟨{ book.asset with register :=
      ⟨newAccum, book.asset.purchaseCostPaise - newAccum, some (periodEndDate period),
        some (fyOf period), some (book.asset.openingUsed period)⟩ },
    if book.entries.any (fun e => e.period = period) then book.entries
    else book.entries ++ [⟨period, chargePaise⟩]⟩

theorem ready_iff (asset : Asset) (period : ℤ) :
    Ready asset period ↔ asset.isDisposed = false ∧ asset.postedMonth.filter (period ≤ ·) = none ∧
      asset.postedMonth.elim [] (fun posted => monthsMissingBefore posted period) = [] ∧
      asset.purchaseDate.month ≤ period := by
  cases hp : asset.postedMonth with
  | none =>
    simp only [Option.filter_none, Option.elim_none, true_and]
    exact ⟨fun h => ⟨h.live, h.held⟩, fun h => ⟨h.1, by simp [hp], h.2⟩⟩
  | some posted =>
    simp only [Option.elim_some, Option.filter_eq_none_iff, Option.some.injEq, forall_eq',
      decide_eq_true_eq, not_le]
    constructor
    · intro h
      have hnext := h.next posted hp
      exact ⟨h.live, by omega, (none_missing (by omega)).mpr hnext, h.held⟩
    · rintro ⟨hlive, hlater, hmissing, hheld⟩
      refine ⟨hlive, fun p hpost => ?_, hheld⟩
      obtain rfl := Option.some.inj (hp.symm.trans hpost)
      exact (none_missing hlater).mp hmissing

/-- A month that is answered without a refusal was ready, and is either charged or has no charge. -/
theorem post_cases (h : postOneMonth answers book period = .ok (out, book')) :
    Ready book.asset period ∧ ∃ c,
      book.asset.chargeFor (book.asset.openingUsed period) period = .ok c ∧
      ((c ≤ 0 ∧ book' = book ∧ ∃ message, out = .nothing message) ∨
        (0 < c ∧ book' = book.charge period c ∧ ∃ foreclosed, out = .posted c foreclosed)) := by
  unfold postOneMonth at h
  dsimp only at h
  split at h
  · cases h
  · rename_i hlive
    split at h
    · cases h
    · rename_i hlater
      split at h
      · cases h
      · rename_i hmissing
        split at h
        · cases h
        · rename_i hheld
          refine ⟨(ready_iff _ _).mpr ⟨by simpa using hlive, hlater, by simpa using hmissing,
            by simpa using hheld⟩, ?_⟩
          rw [Asset.annual_eq] at h
          unfold Asset.chargeFor
          cases hannual : book.asset.computeAnnualDepreciation (book.asset.openingUsed period) with
          | error text =>
            rw [hannual] at h
            cases hlock : answers.lock <;> simp [hlock, Except.map] at h
          | ok annual =>
            rw [hannual] at h
            cases hlock : answers.lock with
            | some refusal => simp [hlock] at h
            | none =>
              simp only [hlock, Except.map] at h
              refine ⟨_, rfl, ?_⟩
              dsimp only
              split at h
              · rename_i hnone
                obtain ⟨rfl, rfl⟩ := Prod.mk.inj (Except.ok.inj h)
                exact .inl ⟨by rw [if_pos hnone], rfl, _, rfl⟩
              · rename_i hsome
                rw [if_neg hsome]
                split at h
                · rename_i hnone
                  obtain ⟨rfl, rfl⟩ := Prod.mk.inj (Except.ok.inj h)
                  exact .inl ⟨hnone, rfl, _, rfl⟩
                · rename_i hpos
                  split at h
                  · cases h
                  · obtain ⟨rfl, rfl⟩ := Prod.mk.inj (Except.ok.inj h)
                    exact .inr ⟨by omega, rfl, _, rfl⟩

/-- With nobody refusing, a month that is ready and has a charge is posted. -/
theorem post_ready (hready : Ready book.asset period)
    (hcharge : book.asset.chargeFor (book.asset.openingUsed period) period = .ok c) (hpos : 0 < c) :
    ∃ foreclosed,
      postOneMonth .accepting book period = .ok (.posted c foreclosed, book.charge period c) := by
  obtain ⟨hlive, hlater, hmissing, hheld⟩ := (ready_iff _ _).mp hready
  unfold Asset.chargeFor at hcharge
  cases hannual : book.asset.computeAnnualDepreciation (book.asset.openingUsed period) with
  | error text => simp [hannual, Except.map] at hcharge
  | ok annual =>
    rw [hannual] at hcharge
    have hc := Except.ok.inj hcharge
    dsimp only at hc
    split at hc
    · omega
    · rename_i hsome
      unfold postOneMonth
      dsimp only
      rw [if_neg (by simp [hlive]), hlater]
      dsimp only
      rw [if_neg (by simp [hmissing]), if_neg (by omega), Asset.annual_eq, hannual]
      simp only [Answers.accepting, Except.map]
      rw [if_neg hsome, if_neg (by omega), hc]
      exact ⟨_, rfl⟩

/-- What the opening balance and the live entries come to. -/
def balance (opened : Asset) (entries : List Entry) : ℤ :=
  opened.register.accumulatedPaise + (entries.map Entry.chargePaise).sum

/-- The last live month's end, or where none is live the stated opening position. -/
def markOf (opened : Asset) (entries : List Entry) : Option Day :=
  (entries.getLast?.map fun e => periodEndDate e.period).or opened.openingPositionDate

/-- Charged months that follow one another, from the purchase or the stated position on. -/
structure Consecutive (opened : Asset) (entries : List Entry) : Prop where
  chain : entries.IsChain fun e e' => e'.period = e.period + 1
  first : ∀ d, opened.openingPositionDate = some d → ∀ e, entries.head? = some e →
    e.period = d.month + 1
  held : ∀ e ∈ entries, opened.purchaseDate.month ≤ e.period
  charged : ∀ e ∈ entries, 0 < e.chargePaise
  live : entries ≠ [] → opened.isDisposed = false

@[simp] theorem mark_concat (opened : Asset) (entries : List Entry) (e : Entry) :
    markOf opened (entries ++ [e]) = some (periodEndDate e.period) := by
  simp [markOf]

@[simp] theorem balance_concat (opened : Asset) (entries : List Entry) (e : Entry) :
    balance opened (entries ++ [e]) = balance opened entries + e.chargePaise := by
  simp [balance, add_assoc]

namespace Consecutive

variable {opened : Asset} {e : Entry}

theorem nil : Consecutive opened [] :=
  ⟨.nil, by simp, by simp, by simp, by simp⟩

theorem dropLast (h : Consecutive opened (entries ++ [e])) : Consecutive opened entries := by
  refine ⟨(List.isChain_append.mp h.chain).1, fun d hd x hx => h.first d hd x ?_,
    fun x hx => h.held x (List.mem_append_left _ hx),
    fun x hx => h.charged x (List.mem_append_left _ hx), fun _ => h.live (by simp)⟩
  cases entries with
  | nil => simp at hx
  | cons y ys => simpa using hx

/-- Every live month comes before the last. -/
theorem before_last (h : Consecutive opened (entries ++ [e])) : ∀ x ∈ entries, x.period < e.period := by
  induction entries using List.reverseRecOn generalizing e with
  | nil => simp
  | append_singleton entries y ih =>
    intro x hx
    have hlast : e.period = y.period + 1 := by
      have hpair := (List.isChain_append.mp h.chain).2.2
      exact hpair y (by simp) e (by simp)
    rcases List.mem_append.mp hx with hx | hx
    · have := ih h.dropLast x hx
      omega
    · obtain rfl := List.mem_singleton.mp hx
      omega

/-- The mark stands in the month before the one to be added. -/
theorem next_of_mark (h : Consecutive opened (entries ++ [e])) (hmark : markOf opened entries = some d) :
    e.period = d.month + 1 := by
  cases entries using List.reverseRecOn with
  | nil => exact h.first d (by simpa [markOf] using hmark) e (by simp)
  | append_singleton entries y =>
    rw [mark_concat] at hmark
    obtain rfl := Option.some.inj hmark
    have hpair := (List.isChain_append.mp h.chain).2.2
    exact hpair y (by simp) e (by simp)

theorem concat (h : Consecutive opened entries)
    (hnext : ∀ d, markOf opened entries = some d → e.period = d.month + 1)
    (hheld : opened.purchaseDate.month ≤ e.period) (hcharge : 0 < e.chargePaise)
    (hlive : opened.isDisposed = false) : Consecutive opened (entries ++ [e]) := by
  refine ⟨List.isChain_append.mpr ⟨h.chain, List.isChain_singleton e, ?_⟩, ?_, ?_, ?_,
    fun _ => hlive⟩
  · intro x hx y hy
    obtain rfl : y = e := by simpa [eq_comm] using hy
    have hmark : markOf opened entries = some (periodEndDate x.period) := by
      rw [markOf, Option.mem_def.mp hx]
      rfl
    exact hnext _ hmark
  · intro d hd x hx
    cases entries with
    | nil =>
      obtain rfl : e = x := by simpa using hx
      exact hnext d (by simpa [markOf] using hd)
    | cons y ys => exact h.first d hd x (by simpa using hx)
  · exact fun x hx => (List.mem_append.mp hx).elim (h.held x) fun hx =>
      List.mem_singleton.mp hx ▸ hheld
  · exact fun x hx => (List.mem_append.mp hx).elim (h.charged x) fun hx =>
      List.mem_singleton.mp hx ▸ hcharge

end Consecutive

variable {e : Entry}

/-- The book after some live entries, with the year and opening balance the row holds. -/
def bookOf (opened : Asset) (entries : List Entry) (fy : Option ℤ) (start : Option ℤ) : Book :=
  ⟨{ opened with register :=
      ⟨balance opened entries, opened.purchaseCostPaise - balance opened entries,
        markOf opened entries, fy, start⟩ }, entries⟩

/-- Posting the next month of a book. -/
theorem charge_book (fy start : Option ℤ) (h : Consecutive opened (entries ++ [e])) :
    (bookOf opened entries fy start).charge e.period e.chargePaise =
      bookOf opened (entries ++ [e]) (some (fyOf e.period))
        (some ((bookOf opened entries fy start).asset.openingUsed e.period)) := by
  have hfresh : entries.any (fun x => x.period = e.period) = false := by
    refine List.any_eq_false.mpr fun x hx => ?_
    have := h.before_last x hx
    simp
    omega
  unfold Book.charge
  simp only [bookOf, hfresh, balance_concat, mark_concat]
  rfl

theorem ready_book (h : Consecutive opened (entries ++ [e])) :
    Ready (bookOf opened entries fy start).asset e.period := by
  refine ⟨h.live (by simp), fun posted hposted => ?_, h.held e (by simp)⟩
  obtain ⟨d, hd, rfl⟩ := Option.map_eq_some_iff.mp hposted
  exact h.next_of_mark hd

/-- The year and opening balance that a row keeps when its mark goes back. -/
def keptCache (opened : Asset) (entries : List Entry) (fy start : Option ℤ) : Option ℤ × Option ℤ :=
  if (markOf opened entries).isSome ∧ (markOf opened entries).map (fyOf ·.month) = fy
  then (fy, start) else (none, none)

theorem find_last (h : Consecutive opened (entries ++ [e])) :
    (entries ++ [e]).find? (fun x => x.period = e.period) = some e := by
  refine List.find?_eq_some_iff_append.mpr ⟨by simp, entries, [], rfl, fun x hx => ?_⟩
  have := h.before_last x hx
  simp
  omega

theorem erase_last (h : Consecutive opened (entries ++ [e])) :
    (entries ++ [e]).erase e = entries := by
  have hnew : e ∉ entries := fun he => lt_irrefl _ (h.before_last e he)
  rw [List.erase_append_right _ hnew, List.erase_cons_head, List.append_nil]

/-- The month before has an entry, or is the stated position's, or nothing was there before. -/
theorem mark_goes_back (fy start : Option ℤ) (h : Consecutive opened (entries ++ [e])) :
    newPostedThrough (bookOf opened (entries ++ [e]) fy start) e.period = markOf opened entries := by
  unfold newPostedThrough bookOf
  dsimp only
  cases entries using List.reverseRecOn with
  | nil =>
    cases hd : opened.openingPositionDate with
    | none =>
      simp [markOf, hd]
      omega
    | some d =>
      have hfirst := h.first d hd e (by simp)
      simp [markOf, hd]
      omega
  | append_singleton entries y =>
    have hpair := (List.isChain_append.mp h.chain).2.2 y (by simp) e (by simp)
    have hprevious : y.period = e.period - 1 := by omega
    have hmark := mark_concat opened entries y
    rw [hprevious] at hmark
    rw [hmark, if_pos (by simp [hprevious]), Option.some_or]

/-- Reversing takes off the last month of a book and nothing else. -/
theorem reverse_book (h : Consecutive opened (entries ++ [e]))
    (hopening : 0 ≤ opened.register.accumulatedPaise) :
    reverseDepreciation answers (bookOf opened (entries ++ [e]) fy start) e.period =
      match answers.lock.or (answers.ledger.or answers.claim) with
      | some refusal => .error refusal
      | none => .ok (bookOf opened entries (keptCache opened entries fy start).1
          (keptCache opened entries fy start).2) := by
  have hlive := h.live (by simp)
  have hcharge := h.charged e (by simp)
  have hbalance : max 0 (balance opened (entries ++ [e]) - e.chargePaise) = balance opened entries := by
    have hsum : 0 ≤ (entries.map Entry.chargePaise).sum := by
      refine List.sum_nonneg fun c hc => ?_
      obtain ⟨x, hx, rfl⟩ := List.mem_map.mp hc
      exact (h.charged x (List.mem_append_left _ hx)).le
    rw [balance_concat, add_sub_cancel_right, max_eq_right]
    unfold balance
    omega
  have hposted : (bookOf opened (entries ++ [e]) fy start).asset.postedMonth = some e.period := by
    simp [Asset.postedMonth, bookOf, periodEndDate]
  unfold reverseDepreciation
  simp only [hposted]
  rw [if_neg (by simp), if_neg (by simp [bookOf, hlive])]
  have hfind : (bookOf opened (entries ++ [e]) fy start).entries.find?
      (fun x => x.period = e.period) = some e := find_last h
  rw [hfind]
  cases answers.lock with
  | some refusal => rfl
  | none =>
    simp only [Option.none_or]
    rw [if_neg (by omega)]
    cases answers.ledger.or answers.claim with
    | some refusal => rfl
    | none =>
      have hmark := mark_goes_back fy start h
      simp only [hmark]
      simp only [bookOf, erase_last h, hbalance, keptCache]
      by_cases hkept : (markOf opened entries).isSome ∧
          (markOf opened entries).map (fyOf ·.month) = fy
      · simp only [eq_true hkept, if_true]
      · simp only [hkept, if_false]

end Caflow.FixedAssets
