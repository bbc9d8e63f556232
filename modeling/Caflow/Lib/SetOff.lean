import Mathlib

namespace Caflow.SetOff

/-- An amount of one source's credit used to pay what one sink owes. -/
structure Draw (ι κ : Type*) where
  source : ι
  sink : κ
  amount : ℤ

/-- What the sources hold, what the sinks owe, and the draws that led here. -/
structure Pools (ι κ : Type*) where
  credit : ι → ℤ
  due : κ → ℤ
  drawn : List (Draw ι κ)

variable {ι κ : Type*} [DecidableEq ι] [DecidableEq κ]
variable {credit : ι → ℤ} {due : κ → ℤ} {allowed : ι → κ → Prop}

def drawnFrom (ds : List (Draw ι κ)) (s : ι) : ℤ :=
  (ds.map fun d => if d.source = s then d.amount else 0).sum

def paidInto (ds : List (Draw ι κ)) (t : κ) : ℤ :=
  (ds.map fun d => if d.sink = t then d.amount else 0).sum

def total (ds : List (Draw ι κ)) : ℤ := (ds.map Draw.amount).sum

def Pools.draw (p : Pools ι κ) (s : ι) (t : κ) (amount : ℤ) : Pools ι κ where
  credit := Function.update p.credit s (p.credit s - amount)
  due := Function.update p.due t (p.due t - amount)
  drawn := p.drawn ++ [⟨s, t, amount⟩]

/-- Pay as much of a sink as a source can. -/
def Pools.settle (p : Pools ι κ) (s : ι) (t : κ) : Pools ι κ :=
  p.draw s t (min (p.credit s) (p.due t))

omit [DecidableEq κ] in
@[simp] theorem drawn_from_concat (ds : List (Draw ι κ)) (d : Draw ι κ) (s : ι) :
    drawnFrom (ds ++ [d]) s = drawnFrom ds s + if d.source = s then d.amount else 0 := by
  simp [drawnFrom]

omit [DecidableEq ι] in
@[simp] theorem paid_into_concat (ds : List (Draw ι κ)) (d : Draw ι κ) (t : κ) :
    paidInto (ds ++ [d]) t = paidInto ds t + if d.sink = t then d.amount else 0 := by
  simp [paidInto]

omit [DecidableEq κ] in
theorem sum_drawn_from (ds : List (Draw ι κ)) (S : Finset ι) :
    ∑ s ∈ S, drawnFrom ds s = (ds.map fun d => if d.source ∈ S then d.amount else 0).sum := by
  induction ds with
  | nil => simp [drawnFrom]
  | cons d ds ih =>
    have hcons : ∀ s, drawnFrom (d :: ds) s =
        (if d.source = s then d.amount else 0) + drawnFrom ds s := fun _ => rfl
    simp only [hcons, Finset.sum_add_distrib, ih, List.map_cons, List.sum_cons, Finset.sum_ite_eq]

omit [DecidableEq ι] in
theorem sum_paid_into (ds : List (Draw ι κ)) (T : Finset κ) :
    ∑ t ∈ T, paidInto ds t = (ds.map fun d => if d.sink ∈ T then d.amount else 0).sum := by
  induction ds with
  | nil => simp [paidInto]
  | cons d ds ih =>
    have hcons : ∀ t, paidInto (d :: ds) t =
        (if d.sink = t then d.amount else 0) + paidInto ds t := fun _ => rfl
    simp only [hcons, Finset.sum_add_distrib, ih, List.map_cons, List.sum_cons, Finset.sum_ite_eq]

omit [DecidableEq ι] [DecidableEq κ] in
@[simp] theorem total_concat (ds : List (Draw ι κ)) (d : Draw ι κ) :
    total (ds ++ [d]) = total ds + d.amount := by
  simp [total]

omit [DecidableEq ι] [DecidableEq κ] in
theorem total_filter (ds : List (Draw ι κ)) (K : κ → Prop) [DecidablePred K] :
    total (ds.filter (fun d => K d.sink)) = (ds.map fun d => if K d.sink then d.amount else 0).sum := by
  induction ds with
  | nil => rfl
  | cons d ds ih =>
    by_cases hk : K d.sink
    · rw [List.filter_cons_of_pos (by simpa using hk), List.map_cons, List.sum_cons, if_pos hk, ← ih]
      rfl
    · rw [List.filter_cons_of_neg (by simpa using hk), ih, List.map_cons, List.sum_cons, if_neg hk,
        zero_add]

/-- Over all sources, or over all sinks, the draws add up to the same total. -/
theorem sum_drawn_eq_sum_paid [Fintype ι] [Fintype κ] (ds : List (Draw ι κ)) :
    ∑ s, drawnFrom ds s = ∑ t, paidInto ds t := by
  rw [sum_drawn_from, sum_paid_into]
  simp only [Finset.mem_univ, ↓reduceIte]

/-- Draws that only go where they may and spend no more than is held or owed. -/
structure Feasible (allowed : ι → κ → Prop) (credit : ι → ℤ) (due : κ → ℤ)
    (ds : List (Draw ι κ)) : Prop where
  permitted : ∀ d ∈ ds, 0 ≤ d.amount ∧ allowed d.source d.sink
  within_credit : ∀ s, drawnFrom ds s ≤ credit s
  within_due : ∀ t, paidInto ds t ≤ due t

/-- No draws pay more than the sources and sinks that between them touch every permitted pair. -/
theorem Feasible.total_le (h : Feasible allowed credit due ds) (S : Finset ι) (T : Finset κ)
    (hcover : ∀ s t, allowed s t → s ∈ S ∨ t ∈ T) :
    total ds ≤ ∑ s ∈ S, credit s + ∑ t ∈ T, due t := by
  have hsplit : total ds ≤ (ds.map fun d => if d.source ∈ S then d.amount else 0).sum +
      (ds.map fun d => if d.sink ∈ T then d.amount else 0).sum := by
    unfold total
    rw [← List.sum_map_add]
    apply List.sum_le_sum
    intro d hd
    obtain ⟨hnn, hal⟩ := h.permitted d hd
    rcases hcover _ _ hal with hs | ht
    · rw [if_pos hs]
      split <;> omega
    · rw [if_pos ht]
      split <;> omega
  rw [← sum_drawn_from, ← sum_paid_into] at hsplit
  exact hsplit.trans (add_le_add (Finset.sum_le_sum fun s _ => h.within_credit s)
    (Finset.sum_le_sum fun t _ => h.within_due t))

/-- Pools that permitted draws lead to: nothing overdrawn, and nothing made or lost. -/
structure Settled (allowed : ι → κ → Prop) (credit : ι → ℤ) (due : κ → ℤ)
    (p : Pools ι κ) : Prop where
  credit_nonneg : ∀ s, 0 ≤ p.credit s
  due_nonneg : ∀ t, 0 ≤ p.due t
  permitted : ∀ d ∈ p.drawn, 0 ≤ d.amount ∧ allowed d.source d.sink
  credit_eq : ∀ s, drawnFrom p.drawn s + p.credit s = credit s
  due_eq : ∀ t, paidInto p.drawn t + p.due t = due t

theorem settled_start (hc : ∀ s, 0 ≤ credit s) (hd : ∀ t, 0 ≤ due t) :
    Settled allowed credit due ⟨credit, due, []⟩ :=
  ⟨hc, hd, fun _ h => absurd h (List.not_mem_nil), fun _ => zero_add _, fun _ => zero_add _⟩

theorem Settled.draw (h : Settled allowed credit due p) (hal : allowed s t) (hn : 0 ≤ amount)
    (hc : amount ≤ p.credit s) (hd : amount ≤ p.due t) :
    Settled allowed credit due (p.draw s t amount) := by
  refine ⟨fun i => ?_, fun j => ?_, ?_, fun i => ?_, fun j => ?_⟩
  · have := h.credit_nonneg i
    simp only [Pools.draw, Function.update_apply]
    split
    · omega
    · exact this
  · have := h.due_nonneg j
    simp only [Pools.draw, Function.update_apply]
    split
    · omega
    · exact this
  · intro d hmem
    rcases List.mem_append.mp hmem with hmem | hmem
    · exact h.permitted d hmem
    · rw [List.mem_singleton.mp hmem]
      exact ⟨hn, hal⟩
  · have := h.credit_eq i
    simp only [Pools.draw, Function.update_apply, drawn_from_concat, eq_comm (a := i)]
    split
    · subst i
      omega
    · omega
  · have := h.due_eq j
    simp only [Pools.draw, Function.update_apply, paid_into_concat, eq_comm (a := j)]
    split
    · subst j
      omega
    · omega

theorem Settled.settle (h : Settled allowed credit due p) (s : ι) (t : κ) (hal : allowed s t) :
    Settled allowed credit due (p.settle s t) :=
  h.draw hal (le_min (h.credit_nonneg s) (h.due_nonneg t)) (min_le_left _ _) (min_le_right _ _)

/-- After settling, the source is spent or the sink is paid. -/
theorem settle_spent_or_paid (p : Pools ι κ) (s : ι) (t : κ) :
    (p.settle s t).credit s = 0 ∨ (p.settle s t).due t = 0 := by
  simp only [Pools.settle, Pools.draw, Function.update_self]
  omega

theorem Settled.due_le (h : Settled allowed credit due p) (t : κ) : p.due t ≤ due t := by
  have hdue := h.due_eq t
  have hpaid : 0 ≤ paidInto p.drawn t := by
    apply List.sum_nonneg
    intro x hx
    obtain ⟨d, hd, rfl⟩ := List.mem_map.mp hx
    split
    · exact (h.permitted d hd).1
    · exact le_rfl
  omega

/-- What was held and is not left is what was owed and is not left. -/
theorem Settled.spent_eq_paid [Fintype ι] [Fintype κ] (h : Settled allowed credit due p) :
    ∑ s, credit s - ∑ s, p.credit s = ∑ t, due t - ∑ t, p.due t := by
  have hdrawn := sum_drawn_eq_sum_paid p.drawn
  simp only [← h.credit_eq, ← h.due_eq, Finset.sum_add_distrib]
  omega

/-- What draws have reached only falls: later pools hold and owe no more. -/
def Below (q p : Pools ι κ) : Prop := (∀ s, q.credit s ≤ p.credit s) ∧ ∀ t, q.due t ≤ p.due t

omit [DecidableEq ι] [DecidableEq κ] in
theorem Below.trans {p q r : Pools ι κ} (h : Below r q) (h' : Below q p) : Below r p :=
  ⟨fun s => (h.1 s).trans (h'.1 s), fun t => (h.2 t).trans (h'.2 t)⟩

theorem draw_below (p : Pools ι κ) (s : ι) (t : κ) (hn : 0 ≤ amount) :
    Below (p.draw s t amount) p := by
  refine ⟨fun i => ?_, fun j => ?_⟩
  · simp only [Pools.draw, Function.update_apply]
    split
    · subst i
      omega
    · exact le_rfl
  · simp only [Pools.draw, Function.update_apply]
    split
    · subst j
      omega
    · exact le_rfl

theorem Settled.settle_below (h : Settled allowed credit due p) (s : ι) (t : κ) :
    Below (p.settle s t) p :=
  draw_below p s t (le_min (h.credit_nonneg s) (h.due_nonneg t))

omit [DecidableEq ι] [DecidableEq κ] in
/-- Credit that is spent stays spent. -/
theorem Below.spent {p q : Pools ι κ} (h : Below q p) (hn : 0 ≤ q.credit s)
    (hs : p.credit s = 0) : q.credit s = 0 :=
  le_antisymm (hs ▸ h.1 s) hn

omit [DecidableEq ι] [DecidableEq κ] in
/-- What is paid stays paid. -/
theorem Below.paid {p q : Pools ι κ} (h : Below q p) (hn : 0 ≤ q.due t)
    (ht : p.due t = 0) : q.due t = 0 :=
  le_antisymm (ht ▸ h.2 t) hn

/-- A source that settles two sinks is spent, or has paid both. -/
theorem Settled.settle_both (h : Settled allowed credit due p) (s : ι) (t t' : κ)
    (hal : allowed s t) (hal' : allowed s t') :
    ((p.settle s t).settle s t').credit s = 0 ∨
      ((p.settle s t).settle s t').due t = 0 ∧ ((p.settle s t).settle s t').due t' = 0 := by
  have hfirst := h.settle s t hal
  have hlast := hfirst.settle s t' hal'
  have hbelow := hfirst.settle_below s t'
  rcases settle_spent_or_paid (p.settle s t) s t' with hspent | hpaid'
  · exact .inl hspent
  rcases settle_spent_or_paid p s t with hspent | hpaid
  · exact .inl (hbelow.spent (hlast.credit_nonneg s) hspent)
  · exact .inr ⟨hbelow.paid (hlast.due_nonneg t) hpaid, hpaid'⟩

/-- Draws into some of the sinks that empty a cover of their sources, each touching it once, cannot
be bettered. -/
theorem Settled.maximal (h : Settled allowed credit due p) (K : κ → Prop) [DecidablePred K]
    (S : Finset ι) (T : Finset κ) (hcover : ∀ s t, allowed s t → K t → s ∈ S ∨ t ∈ T)
    (hS : ∀ d ∈ p.drawn, d.source ∈ S → K d.sink) (hT : ∀ t ∈ T, K t)
    (hspent : ∀ s ∈ S, p.credit s = 0) (hpaid : ∀ t ∈ T, p.due t = 0)
    (honce : ∀ d ∈ p.drawn, d.source ∈ S → d.sink ∈ T → d.amount = 0)
    (ds : List (Draw ι κ)) (hds : Feasible (fun s t => allowed s t ∧ K t) credit due ds) :
    total ds ≤ total (p.drawn.filter (fun d => K d.sink)) := by
  have hcredit : ∑ s ∈ S, credit s = ∑ s ∈ S, drawnFrom p.drawn s :=
    Finset.sum_congr rfl fun s hs => by have := h.credit_eq s; have := hspent s hs; omega
  have hdue : ∑ t ∈ T, due t = ∑ t ∈ T, paidInto p.drawn t :=
    Finset.sum_congr rfl fun t ht => by have := h.due_eq t; have := hpaid t ht; omega
  refine (hds.total_le S T fun s t hst => hcover s t hst.1 hst.2).trans ?_
  rw [hcredit, hdue, sum_drawn_from, sum_paid_into, ← List.sum_map_add, total_filter]
  apply List.sum_le_sum
  intro d hd
  have hn := (h.permitted d hd).1
  by_cases hs : d.source ∈ S
  · have hk := hS d hd hs
    rw [if_pos hs, if_pos hk]
    split
    · rw [honce d hd hs ‹_›]
      omega
    · omega
  · rw [if_neg hs]
    split
    · rw [if_pos (hT d.sink ‹_›)]
      omega
    · split <;> omega

end Caflow.SetOff
