import Caflow.Banking.Normalizer

namespace Caflow.Banking

variable {rows statement : List NormalizedTxn}

/-- The rows in the order they happened, each balance the one before and the row's movement. -/
def Consistent (rows : List NormalizedTxn) : Prop :=
  rows.IsChain fun a b => b.balancePaise = a.balancePaise + b.creditPaise - b.debitPaise

/-- The row with its debit and credit exchanged. -/
def NormalizedTxn.swapped (t : NormalizedTxn) : NormalizedTxn :=
  { t with debitPaise := t.creditPaise, creditPaise := t.debitPaise }

/-- The rows whose movement is compared, in the order the check accepts. -/
def checkedRows (statement : List NormalizedTxn) : List NormalizedTxn :=
  if disagreements (withBalance statement) = [] then (withBalance statement).tail
  else (withBalance statement).dropLast

/-- Every row moves the balance of the row before it. -/
def Forward (rows : List NormalizedTxn) : Prop :=
  rows.IsChain fun a b => b.movement = b.balancePaise - a.balancePaise

/-- Every row moves the balance of the row after it. -/
def Backward (rows : List NormalizedTxn) : Prop :=
  rows.IsChain fun a b => a.movement = a.balancePaise - b.balancePaise

theorem no_disagreements : disagreements rows = [] ↔ Forward rows := by
  induction rows with
  | nil => simp [disagreements, Forward]
  | cons a rows ih =>
    cases rows with
    | nil => simp [disagreements, Forward]
    | cons b rows =>
      unfold Forward at ih ⊢
      rw [List.isChain_cons_cons, ← ih, disagreements]
      by_cases h : b.movement = b.balancePaise - a.balancePaise <;> simp [h]

theorem forward_reverse : Forward rows.reverse ↔ Backward rows := List.isChain_reverse

theorem backward_reverse : Backward rows.reverse ↔ Forward rows := List.isChain_reverse

theorem check_cases (statement : List NormalizedTxn) :
    ((withBalance statement).length < 2 ∧ balanceAgreement statement = .unchecked) ∨
    (2 ≤ (withBalance statement).length ∧
      (Forward (withBalance statement) ∨ Backward (withBalance statement)) ∧
      (balanceAgreement statement).Agrees ∧ ¬ (balanceAgreement statement).Disagrees) ∨
    (2 ≤ (withBalance statement).length ∧
      ¬ (Forward (withBalance statement) ∨ Backward (withBalance statement)) ∧
      ¬ (balanceAgreement statement).Agrees ∧ (balanceAgreement statement).Disagrees) := by
  rw [← forward_reverse, ← no_disagreements, ← no_disagreements]
  unfold balanceAgreement
  by_cases hlen : (withBalance statement).length < 2
  · exact .inl ⟨hlen, if_pos hlen⟩
  · simp only [hlen, if_false]
    refine .inr ?_
    cases hforward : disagreements (withBalance statement) with
    | nil => exact .inl ⟨not_lt.mp hlen, .inl rfl, trivial, id⟩
    | cons d forward =>
      cases hreverse : disagreements (withBalance statement).reverse with
      | nil => exact .inl ⟨not_lt.mp hlen, .inr rfl, trivial, id⟩
      | cons d' reverse =>
        refine .inr ⟨not_lt.mp hlen, by simp, ?_⟩
        simp only
        split
        · exact ⟨id, trivial⟩
        · exact ⟨id, trivial⟩

theorem agrees_iff : (balanceAgreement statement).Agrees ↔
    2 ≤ (withBalance statement).length ∧
      (Forward (withBalance statement) ∨ Backward (withBalance statement)) := by
  obtain ⟨hshort, hnone⟩ | ⟨hlen, hchain, hyes, -⟩ | ⟨hlen, hchain, hno, -⟩ := check_cases statement
  · rw [hnone]
    exact ⟨nofun, fun h => absurd hshort (not_lt.mpr h.1)⟩
  · exact ⟨fun _ => ⟨hlen, hchain⟩, fun _ => hyes⟩
  · exact ⟨fun h => absurd h hno, fun h => absurd h.2 hchain⟩

theorem disagrees_iff : (balanceAgreement statement).Disagrees ↔
    2 ≤ (withBalance statement).length ∧
      ¬ (Forward (withBalance statement) ∨ Backward (withBalance statement)) := by
  obtain ⟨hshort, hnone⟩ | ⟨hlen, hchain, -, hno⟩ | ⟨hlen, hchain, -, hyes⟩ := check_cases statement
  · rw [hnone]
    exact ⟨nofun, fun h => absurd hshort (not_lt.mpr h.1)⟩
  · exact ⟨fun h => absurd h hno, fun h => absurd hchain h.2⟩
  · exact ⟨fun _ => ⟨hlen, hchain⟩, fun _ => hyes⟩

theorem with_balance_swapped (statement : List NormalizedTxn) :
    withBalance (statement.map (·.swapped)) = (withBalance statement).map (·.swapped) := by
  unfold withBalance
  rw [List.filter_map]
  rfl

theorem movement_swapped (t : NormalizedTxn) : t.swapped.movement = -t.movement := by
  unfold NormalizedTxn.movement NormalizedTxn.swapped
  simp

/-- A row after a zero balance that follows in turn has its own movement as its balance. -/
theorem balance_after_zero {a b : NormalizedTxn} {later : List NormalizedTxn}
    (h : Consistent (a :: rows)) (hzero : a.balancePaise = 0)
    (hfirst : withBalance rows = b :: later) : b.balancePaise = b.movement := by
  induction rows generalizing a with
  | nil => cases hfirst
  | cons c rows ih =>
    obtain ⟨hstep, hrest⟩ := List.isChain_cons_cons.mp h
    by_cases hc : c.balancePaise = 0
    · apply ih hrest hc
      simpa [withBalance, hc] using hfirst
    · have hcb : c = b := by
        simp only [withBalance, List.filter_cons, hc, ne_eq, not_false_eq_true, decide_true, if_true,
          List.cons.injEq] at hfirst
        exact hfirst.1
      subst hcb
      unfold NormalizedTxn.movement
      omega

theorem with_balance_leads {a : NormalizedTxn} (h : Consistent (a :: rows))
    (ha : a.balancePaise ≠ 0) (hforward : Forward (a :: withBalance rows)) :
    (a :: withBalance rows) <+: a :: rows := by
  induction rows generalizing a with
  | nil => exact List.prefix_rfl
  | cons c rows ih =>
    obtain ⟨hstep, hrest⟩ := List.isChain_cons_cons.mp h
    rw [List.prefix_cons_inj]
    by_cases hc : c.balancePaise = 0
    · have hskip : withBalance (c :: rows) = withBalance rows := by simp [withBalance, hc]
      rw [hskip] at hforward ⊢
      cases hlater : withBalance rows with
      | nil => exact List.nil_prefix
      | cons b later =>
        -- the row after the gap would have to start from nothing and from a at once
        rw [hlater] at hforward
        obtain ⟨hmoved, -⟩ := List.isChain_cons_cons.mp hforward
        have hfresh := balance_after_zero hrest hc hlater
        omega
    · have hkeep : withBalance (c :: rows) = c :: withBalance rows := by simp [withBalance, hc]
      rw [hkeep] at hforward ⊢
      exact ih hrest hc (List.isChain_cons_cons.mp hforward).2

/-- The rows of a consistent statement follow from each other once the zero balances are left out if
and only if no zero balance is left out between two of them. -/
theorem forward_iff_together (h : Consistent rows) :
    Forward (withBalance rows) ↔ withBalance rows <:+: rows := by
  constructor
  · intro hforward
    induction rows with
    | nil => exact List.infix_rfl
    | cons a rows ih =>
      have hrest : Consistent rows := List.IsChain.tail h
      by_cases ha : a.balancePaise = 0
      · have hskip : withBalance (a :: rows) = withBalance rows := by simp [withBalance, ha]
        rw [hskip] at hforward ⊢
        exact List.infix_cons (ih hrest hforward)
      · have hkeep : withBalance (a :: rows) = a :: withBalance rows := by simp [withBalance, ha]
        rw [hkeep] at hforward ⊢
        exact (with_balance_leads h ha hforward).isInfix
  · intro htogether
    have hchain := List.IsChain.infix h htogether
    apply List.IsChain.imp _ hchain
    intro a b hab
    unfold NormalizedTxn.movement
    omega

/-- All the rows move the balance by the same amount. -/
def EqualMovements (rows : List NormalizedTxn) : Prop := ∀ a ∈ rows, ∀ b ∈ rows, a.movement = b.movement

theorem chain_equal (h : rows.IsChain fun a b => a.movement = b.movement) : EqualMovements rows := by
  induction rows with
  | nil => nofun
  | cons a rows ih =>
    cases rows with
    | nil =>
      intro x hx y hy
      rw [List.mem_singleton.mp hx, List.mem_singleton.mp hy]
    | cons b rows =>
      obtain ⟨hab, hrest⟩ := List.isChain_cons_cons.mp h
      have hlater := ih hrest
      have hall : ∀ x ∈ a :: b :: rows, x.movement = b.movement := by
        intro x hx
        rcases List.mem_cons.mp hx with rfl | hx
        · exact hab
        · exact hlater x hx b List.mem_cons_self
      intro x hx y hy
      rw [hall x hx, hall y hy]

theorem equal_chain (h : EqualMovements rows) : rows.IsChain fun a b => a.movement = b.movement :=
  (List.pairwise_iff_forall_sublist.mpr fun {a b} hsub => by
    have ha : a ∈ rows := hsub.subset (by simp)
    have hb : b ∈ rows := hsub.subset (by simp)
    exact h a ha b hb).isChain

theorem tail_still (h : rows.IsChain fun _ b => b.movement = 0) : ∀ t ∈ rows.tail, t.movement = 0 := by
  induction rows with
  | nil => nofun
  | cons a rows ih =>
    cases rows with
    | nil => nofun
    | cons b rows =>
      obtain ⟨hb, hrest⟩ := List.isChain_cons_cons.mp h
      exact List.forall_mem_cons.mpr ⟨hb, ih hrest⟩

theorem init_still (h : rows.IsChain fun a _ => a.movement = 0) :
    ∀ t ∈ rows.dropLast, t.movement = 0 := by
  induction rows with
  | nil => nofun
  | cons a rows ih =>
    cases rows with
    | nil => nofun
    | cons b rows =>
      obtain ⟨ha, hrest⟩ := List.isChain_cons_cons.mp h
      rw [List.dropLast_cons_cons]
      exact List.forall_mem_cons.mpr ⟨ha, ih hrest⟩

/-- Two things that hold from row to row. -/
theorem chain_both {R S T : NormalizedTxn → NormalizedTxn → Prop} (hR : rows.IsChain R)
    (hS : rows.IsChain S) (h : ∀ a b, R a b → S a b → T a b) : rows.IsChain T := by
  induction rows with
  | nil => exact .nil
  | cons a rows ih =>
    cases rows with
    | nil => exact .singleton a
    | cons b rows =>
      obtain ⟨hRab, hRrest⟩ := List.isChain_cons_cons.mp hR
      obtain ⟨hSab, hSrest⟩ := List.isChain_cons_cons.mp hS
      exact List.isChain_cons_cons.mpr ⟨h a b hRab hSab, ih hRrest hSrest⟩

theorem forward_swapped : Forward (rows.map (·.swapped)) ↔
    rows.IsChain fun a b => -b.movement = b.balancePaise - a.balancePaise := by
  unfold Forward
  rw [List.isChain_map]
  simp only [movement_swapped]
  rfl

theorem backward_swapped : Backward (rows.map (·.swapped)) ↔
    rows.IsChain fun a b => -a.movement = a.balancePaise - b.balancePaise := by
  unfold Backward
  rw [List.isChain_map]
  simp only [movement_swapped]
  rfl

/-- Rows that agree and move the balance still agree with debit and credit exchanged only if they
all move it by the same amount. -/
theorem swapped_agrees
    (hagrees : Forward (withBalance statement) ∨ Backward (withBalance statement))
    (hmoves : ∃ t ∈ checkedRows statement, t.movement ≠ 0) :
    (Forward ((withBalance statement).map (·.swapped)) ∨
      Backward ((withBalance statement).map (·.swapped))) ↔
        EqualMovements (withBalance statement) := by
  rw [forward_swapped, backward_swapped]
  unfold checkedRows at hmoves
  obtain ⟨t, ht, hmove⟩ := hmoves
  constructor
  · rintro (hswapped | hswapped)
    · by_cases hforward : Forward (withBalance statement)
      · rw [if_pos (no_disagreements.mpr hforward)] at ht
        have hstill := tail_still (chain_both hforward hswapped fun a b h h' => by omega)
        exact absurd (hstill t ht) hmove
      · exact chain_equal (chain_both (hagrees.resolve_left hforward) hswapped
          fun a b h h' => by omega)
    · by_cases hforward : Forward (withBalance statement)
      · exact chain_equal (chain_both hforward hswapped fun a b h h' => by omega)
      · rw [if_neg (mt no_disagreements.mp hforward)] at ht
        have hstill := init_still (chain_both (hagrees.resolve_left hforward) hswapped
          fun a b h h' => by omega)
        exact absurd (hstill t ht) hmove
  · intro hequal
    have hchain := equal_chain hequal
    rcases hagrees with hforward | hbackward
    · exact .inr (chain_both hforward hchain fun a b h h' => by omega)
    · exact .inl (chain_both hbackward hchain fun a b h h' => by omega)

theorem checked_row (hlen : 2 ≤ (withBalance statement).length) :
    ∃ t, t ∈ checkedRows statement := by
  unfold checkedRows
  have hne : (withBalance statement).tail ≠ [] ∧ (withBalance statement).dropLast ≠ [] := by
    constructor
    · intro h
      have := congrArg List.length h
      simp at this
      omega
    · intro h
      have := congrArg List.length h
      simp at this
      omega
  split
  · exact List.exists_mem_of_ne_nil _ hne.1
  · exact List.exists_mem_of_ne_nil _ hne.2

theorem checked_mem {t : NormalizedTxn} (h : t ∈ checkedRows statement) : t ∈ withBalance statement := by
  unfold checkedRows at h
  split at h
  · exact List.mem_of_mem_tail h
  · exact List.mem_of_mem_dropLast h

/-- The rows that have a balance other than zero are two or more, stand together or fall in turn, and
do not all move the balance by one and the same amount. -/
structure Readable (rows : List NormalizedTxn) : Prop where
  two : 2 ≤ (withBalance rows).length
  together : withBalance rows <:+: rows ∨ Backward (withBalance rows)
  varied : EqualMovements (withBalance rows) → ∀ t ∈ withBalance rows, t.movement = 0

/-- A consistent statement, printed in either order, agrees and is told from the one with debit and
credit exchanged if and only if its rows are readable. -/
theorem balance_agreement_iff (hrows : Consistent rows)
    (hstatement : statement = rows ∨ statement = rows.reverse) :
    ((balanceAgreement statement).Agrees ∧
      ((∃ t ∈ checkedRows statement, t.movement ≠ 0) →
        (balanceAgreement (statement.map (·.swapped))).Disagrees)) ↔ Readable rows := by
  have hreverse : withBalance rows.reverse = (withBalance rows).reverse := List.filter_reverse
  have hlen : (withBalance statement).length = (withBalance rows).length := by
    rcases hstatement with rfl | rfl
    · rfl
    · rw [hreverse, List.length_reverse]
  have hmem : ∀ t, t ∈ withBalance statement ↔ t ∈ withBalance rows := by
    intro t
    rcases hstatement with rfl | rfl
    · exact Iff.rfl
    · rw [hreverse, List.mem_reverse]
  have hequal : EqualMovements (withBalance statement) ↔ EqualMovements (withBalance rows) := by
    unfold EqualMovements
    simp only [hmem]
  have hchain : (Forward (withBalance statement) ∨ Backward (withBalance statement)) ↔
      withBalance rows <:+: rows ∨ Backward (withBalance rows) := by
    rw [← forward_iff_together hrows]
    rcases hstatement with rfl | rfl
    · exact Iff.rfl
    · rw [hreverse, forward_reverse, backward_reverse]
      exact or_comm
  rw [agrees_iff, disagrees_iff, with_balance_swapped, List.length_map, hlen, hchain]
  constructor
  · rintro ⟨⟨htwo, htogether⟩, hswap⟩
    refine ⟨htwo, htogether, ?_⟩
    intro hall t ht
    by_contra hmove
    obtain ⟨t', ht'⟩ := checked_row (hlen ▸ htwo)
    have hmoves : ∃ t ∈ checkedRows statement, t.movement ≠ 0 := by
      refine ⟨t', ht', ?_⟩
      rw [hall t' ((hmem t').mp (checked_mem ht')) t ht]
      exact hmove
    have hsame := (swapped_agrees (hchain.mpr htogether) hmoves).mpr (hequal.mpr hall)
    exact (hswap hmoves).2 hsame
  · rintro ⟨htwo, htogether, hvaried⟩
    refine ⟨⟨htwo, htogether⟩, ?_⟩
    intro hmoves
    refine ⟨htwo, ?_⟩
    intro hsame
    have hall := (swapped_agrees (hchain.mpr htogether) hmoves).mp hsame
    obtain ⟨t, ht, hmove⟩ := hmoves
    exact hmove (hvaried (hequal.mp hall) t ((hmem t).mp (checked_mem ht)))

/-- A deposit of 500 and a payment of 200 from an account that held 1,000. -/
theorem balance_agreement_varied :
    let rows : List NormalizedTxn :=
      [⟨"2025-04-01", "Opening", none, 0, 0, 100000, false⟩,
       ⟨"2025-04-02", "NEFT", none, 0, 50000, 150000, false⟩,
       ⟨"2025-04-03", "Cheque", none, 20000, 0, 130000, false⟩]
    (balanceAgreement rows).Agrees ∧
      (balanceAgreement (rows.map (·.swapped))).Disagrees := by
  intro rows
  have hrows : Consistent rows := by
    unfold Consistent
    decide
  have hreadable : Readable rows := by
    refine ⟨by decide, .inl (by decide), ?_⟩
    intro hall
    have hsame := hall rows[0] (by decide) rows[1] (by decide)
    exact absurd hsame (by decide)
  obtain ⟨hagrees, hswap⟩ := (balance_agreement_iff hrows (.inl rfl)).mpr hreadable
  exact ⟨hagrees, hswap ⟨rows[1], by decide, by decide⟩⟩

/-- A balance that passes through zero is called wrong, and equal deposits read as payments are
called right. -/
theorem balance_agreement_misses :
    let emptied : List NormalizedTxn :=
      [⟨"2025-04-01", "NEFT", none, 0, 10000, 10000, false⟩,
       ⟨"2025-04-02", "Cheque", none, 10000, 0, 0, false⟩,
       ⟨"2025-04-03", "NEFT", none, 0, 5000, 5000, false⟩]
    let level : List NormalizedTxn :=
      [⟨"2025-04-01", "NEFT", none, 0, 10000, 10000, false⟩,
       ⟨"2025-04-02", "NEFT", none, 0, 10000, 20000, false⟩,
       ⟨"2025-04-03", "NEFT", none, 0, 10000, 30000, false⟩]
    (Consistent emptied ∧ ¬ (balanceAgreement emptied).Agrees) ∧
    (Consistent level ∧ (∃ t ∈ checkedRows level, t.movement ≠ 0) ∧
      ¬ (balanceAgreement (level.map (·.swapped))).Disagrees) := by
  intro emptied level
  have hemptied : Consistent emptied := by
    unfold Consistent
    decide
  have hlevel : Consistent level := by
    unfold Consistent
    decide
  exact ⟨⟨hemptied, by decide⟩, hlevel, by decide, by decide⟩

end Caflow.Banking
