import Mathlib

namespace Caflow.MarginalRelief

/-- A whole percentage of an amount, rounded down. -/
def percent (amount rate : ℤ) : ℤ := amount * rate / 100

theorem percent_mono (hr : 0 ≤ r) (h : x ≤ y) : percent x r ≤ percent y r :=
  Int.ediv_le_ediv (by decide) (mul_le_mul_of_nonneg_right h hr)

theorem percent_rate_mono (hx : 0 ≤ x) (h : r ≤ s) : percent x r ≤ percent x s :=
  Int.ediv_le_ediv (by decide) (mul_le_mul_of_nonneg_left h hx)

theorem percent_nonneg (hx : 0 ≤ x) (hr : 0 ≤ r) : 0 ≤ percent x r :=
  Int.ediv_nonneg (mul_nonneg hx hr) (by decide)

/-- A percentage up to a hundred never grows faster than its amount. -/
theorem percent_slow (hr : r ≤ 100) (h : x ≤ y) : percent y r - percent x r ≤ y - x := by
  have hgrow : (y - x) * r ≤ (y - x) * 100 := mul_le_mul_of_nonneg_left hr (by omega)
  have hle : y * r ≤ x * r + (y - x) * 100 := by linarith [sub_mul y x r]
  have := Int.ediv_le_ediv (c := 100) (by decide) hle
  rw [Int.add_mul_ediv_right _ _ (by decide)] at this
  unfold percent
  omega

/-- A charge rises with income, and never by more than the income does. -/
def Steady (charge : ℤ → ℤ) : Prop :=
  ∀ x y, x ≤ y → 0 ≤ charge y - charge x ∧ charge y - charge x ≤ y - x

theorem percent_steady (hr : 0 ≤ r) (hr' : r ≤ 100) : Steady (percent · r) := fun _ _ h =>
  ⟨sub_nonneg.mpr (percent_mono hr h), percent_slow hr' h⟩

/-- A surcharge rate and the income above which it applies. -/
structure Step where
  above : ℤ
  rate : ℤ

/-- The last step of a ladder that an income has gone past. -/
def reached (ladder : List Step) (income : ℤ) : Option Step :=
  (ladder.filter (fun s => s.above < income)).getLast?

/-- The steps go up, and so do their rates. -/
def Climbs (ladder : List Step) : Prop :=
  ladder.Pairwise (fun p q => p.above < q.above ∧ p.rate ≤ q.rate)

instance (ladder : List Step) : Decidable (Climbs ladder) :=
  inferInstanceAs (Decidable (List.Pairwise _ ladder))

theorem reached_mem (h : reached ladder income = some s) : s ∈ ladder ∧ s.above < income := by
  have hm := List.mem_filter.mp (List.mem_of_getLast? h)
  exact ⟨hm.1, of_decide_eq_true hm.2⟩

/-- A higher income stands on the same step, or on a later one that the lower has not passed. -/
theorem reached_cases (hc : Climbs ladder) (h : a ≤ b) :
    reached ladder a = reached ladder b ∨
      ∃ s, reached ladder b = some s ∧ a ≤ s.above ∧
        ∀ p, reached ladder a = some p → p.above < s.above ∧ p.rate ≤ s.rate := by
  cases hb : reached ladder b with
  | none =>
    left
    have hnil : ladder.filter (fun s => s.above < b) = [] := List.getLast?_eq_none_iff.mp hb
    have hnone : ladder.filter (fun s => s.above < a) = [] := by
      rw [List.filter_eq_nil_iff] at hnil ⊢
      intro s hs hlt
      exact hnil s hs (by simp only [decide_eq_true_eq] at hlt ⊢; omega)
    rw [reached, hnone]
    rfl
  | some s =>
    obtain ⟨hs, hsb⟩ := reached_mem hb
    obtain ⟨before, after, rfl⟩ := List.append_of_mem hs
    obtain ⟨hbefore, hrest, hcross⟩ := List.pairwise_append.mp hc
    have hafter := (List.pairwise_cons.mp hrest).1
    have hpast : after.filter (fun s => s.above < b) = [] := by
      by_contra hne
      obtain ⟨q, hq⟩ := Option.isSome_iff_exists.mp (List.getLast?_isSome.mpr hne)
      have hlast : reached (before ++ s :: after) b = some q := by
        rw [reached, List.filter_append, List.filter_cons_of_pos (by simpa using hsb),
          List.getLast?_append, List.getLast?_cons, hq]
        rfl
      rw [hb] at hlast
      cases hlast
      exact absurd (hafter s (List.mem_of_mem_filter (List.mem_of_getLast? hq))).1 (lt_irrefl _)
    have hafter' : after.filter (fun s => s.above < a) = [] := by
      rw [List.filter_eq_nil_iff] at hpast ⊢
      intro q hq hlt
      exact hpast q hq (by simp only [decide_eq_true_eq] at hlt ⊢; omega)
    rcases lt_or_ge s.above a with hsa | hsa
    · left
      rw [reached, List.filter_append, List.filter_cons_of_pos (by simpa using hsa), hafter']
      simp
    · right
      refine ⟨s, rfl, hsa, fun p hp => ?_⟩
      obtain ⟨hpm, hpa⟩ := reached_mem hp
      rcases List.mem_append.mp hpm with hpm | hpm
      · exact hcross p hpm s (by simp)
      · rcases List.mem_cons.mp hpm with rfl | hpm
        · omega
        · have := (hafter p hpm).1
          omega

/-- Tax and surcharge, the surcharge relieved at its threshold: what is payable grows by no more
than the income over the threshold, counted from the bare tax at the threshold. -/
def relieved (charge : ℤ → ℤ) (ladder : List Step) (income : ℤ) : ℤ :=
  match reached ladder income with
  | none => charge income
  | some s => min (charge income + percent (charge income) s.rate)
      (charge s.above + (income - s.above))

section
variable {charge : ℤ → ℤ} {ladder : List Step} (hs : Steady charge) (hc : Climbs ladder)
variable (hr : ∀ s ∈ ladder, 0 ≤ s.rate)

include hs in
theorem relieved_le_full {p q : Step} (h : reached ladder a = some p) (hle : a ≤ b) (hn : 0 ≤ charge a)
    (hps : p.rate ≤ q.rate) (hq : 0 ≤ q.rate) :
    relieved charge ladder a ≤ charge b + percent (charge b) q.rate := by
  have hstep := hs a b hle
  have h₁ : percent (charge a) p.rate ≤ percent (charge a) q.rate := percent_rate_mono hn hps
  have h₂ : percent (charge a) q.rate ≤ percent (charge b) q.rate := percent_mono hq (by omega)
  have h₃ := min_le_left (charge a + percent (charge a) p.rate) (charge p.above + (a - p.above))
  rw [relieved, h]
  dsimp only
  omega

include hs hc hr in
/-- What is payable rises from one income to a higher one exactly when they stand on one step,
the lower stands on none, or the lower pays no more than the higher is relieved to. -/
theorem relieved_le_iff (hle : a ≤ b) (hn : 0 ≤ charge a) :
    relieved charge ladder a ≤ relieved charge ladder b ↔
      reached ladder a = reached ladder b ∨ reached ladder a = none ∨
        ∃ s, reached ladder b = some s ∧
          relieved charge ladder a ≤ charge s.above + (b - s.above) := by
  rcases reached_cases hc hle with hsame | ⟨s, hb, has, hlow⟩
  · refine iff_of_true ?_ (.inl hsame)
    cases ha : reached ladder a with
    | none =>
      rw [relieved, relieved, ← hsame, ha]
      have := hs a b hle
      dsimp only
      omega
    | some p =>
      have hp := hr p (reached_mem ha).1
      have hfull := relieved_le_full hs ha hle hn le_rfl hp
      have hrel := min_le_right (charge a + percent (charge a) p.rate)
        (charge p.above + (a - p.above))
      have hb : relieved charge ladder b = min (charge b + percent (charge b) p.rate)
          (charge p.above + (b - p.above)) := by
        rw [relieved, ← hsame, ha]
      rw [hb]
      refine le_min hfull ?_
      rw [relieved, ha]
      dsimp only
      omega
  · have hsr := hr s (reached_mem hb).1
    have hval : relieved charge ladder b = min (charge b + percent (charge b) s.rate)
        (charge s.above + (b - s.above)) := by
      rw [relieved, hb]
    cases ha : reached ladder a with
    | none =>
      refine iff_of_true ?_ (.inr (.inl rfl))
      have h₁ := hs a b hle
      have h₂ := hs a s.above has
      have h₃ := percent_nonneg (x := charge b) (by omega) hsr
      have h₄ := (reached_mem hb).2
      rw [hval, relieved, ha]
      refine le_min ?_ ?_ <;> dsimp only <;> omega
    | some p =>
      have hfull := relieved_le_full hs ha hle hn (hlow p ha).2 hsr
      rw [hval, le_min_iff]
      refine ⟨fun h => .inr (.inr ⟨s, hb, h.2⟩), fun h => ⟨hfull, ?_⟩⟩
      rcases h with h | h | ⟨s', hs', h⟩
      · rw [hb] at h
        cases h
        have := (hlow s ha).1
        omega
      · cases h
      · rw [hb] at hs'
        cases hs'
        exact h

/-- The relief at a step has run out before the tax at any later step is reached. -/
def Separate (charge : ℤ → ℤ) (ladder : List Step) : Prop :=
  ∀ p ∈ ladder, ∀ s ∈ ladder, p.above < s.above → ∀ a, p.above < a → a ≤ s.above →
    charge p.above + (a - p.above) < charge a + percent (charge a) p.rate →
      charge a + percent (charge a) p.rate ≤ charge s.above

include hs hc hr in
/-- On separate steps the lower income's own relief does not matter. -/
theorem relieved_le_iff_full (hsep : Separate charge ladder) (hle : a ≤ b) (hn : 0 ≤ charge a) :
    relieved charge ladder a ≤ relieved charge ladder b ↔
      reached ladder a = reached ladder b ∨ reached ladder a = none ∨
        ∃ p s, reached ladder a = some p ∧ reached ladder b = some s ∧
          charge a + percent (charge a) p.rate ≤ charge s.above + (b - s.above) := by
  rw [relieved_le_iff hs hc hr hle hn]
  rcases reached_cases hc hle with hsame | ⟨s, hb, has, hlow⟩
  · exact iff_of_true (.inl hsame) (.inl hsame)
  cases ha : reached ladder a with
  | none => exact iff_of_true (.inr (.inl rfl)) (.inr (.inl rfl))
  | some p =>
    obtain ⟨hp, hpa⟩ := reached_mem ha
    obtain ⟨hsm, hsb⟩ := reached_mem hb
    have hband := hsep p hp s hsm (hlow p ha).1 a hpa has
    have hmin : relieved charge ladder a = min (charge a + percent (charge a) p.rate)
        (charge p.above + (a - p.above)) := by
      rw [relieved, ha]
    refine or_congr Iff.rfl (or_congr Iff.rfl ⟨?_, ?_⟩)
    · rintro ⟨s', hs', h⟩
      rw [hb] at hs'
      cases hs'
      refine ⟨p, s, rfl, hb, ?_⟩
      rw [hmin, min_le_iff] at h
      omega
    · rintro ⟨p', s', hp', hs', h⟩
      cases hp'
      exact ⟨s', hs', hmin ▸ min_le_of_left_le h⟩

end

end Caflow.MarginalRelief
