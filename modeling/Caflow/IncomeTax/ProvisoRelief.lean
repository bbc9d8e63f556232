import Caflow.IncomeTax.AdvanceTaxInterest

set_option linter.all false

namespace Caflow.IncomeTax.AdvanceTax
open Calendar (Day)

variable {fy : FinancialYear} {due : List Day} {payments payments' : List InstallmentPayment}
  {pool left : List Paid} {items : List UnforeseenIncome} {item : UnforeseenIncome}
  {lines lines' : List UnforeseenLine} {line : UnforeseenLine} {opens closes day : Day}
  {needed got : ℤ}

/-! ### What is drawn -/

def total (pool : List Paid) : ℤ := (pool.map (·.amount)).sum

/-- What the pool was paid between two days. -/
def paidWithin (opens closes : Day) (pool : List Paid) : ℤ :=
  (pool.map fun p => if opens ≤ p.paidOn ∧ p.paidOn ≤ closes then p.amount else 0).sum

/-- What is left of a payment after a draw on the days between two. -/
structure LeftOf (opens closes : Day) (p q : Paid) : Prop where
  paidOn : q.paidOn = p.paidOn
  nonneg : 0 ≤ q.amount
  within : q.amount ≤ p.amount
  dated : q.amount < p.amount → opens ≤ p.paidOn ∧ p.paidOn ≤ closes

theorem LeftOf.refl {p : Paid} (h : 0 ≤ p.amount) : LeftOf opens closes p p :=
  ⟨rfl, h, le_rfl, fun hlt => absurd hlt (lt_irrefl _)⟩

theorem left_of_refl (h : ∀ p ∈ pool, 0 ≤ p.amount) :
    List.Forall₂ (LeftOf opens closes) pool pool :=
  List.forall₂_same.mpr fun p hp => .refl (h p hp)

theorem paid_within_nonneg (h : ∀ p ∈ pool, 0 ≤ p.amount) : 0 ≤ paidWithin opens closes pool := by
  refine List.sum_nonneg (List.forall_mem_map.mpr fun p hp => ?_)
  split
  · exact h p hp
  · exact le_rfl

/-- A draw takes what was paid between the days, up to what is needed. -/
structure DrawsUpTo (opens closes : Day) (needed got : ℤ) (pool : List Paid) (drawn : ℤ × List Paid) :
    Prop where
  left : List.Forall₂ (LeftOf opens closes) pool drawn.2
  taken : drawn.1 + total drawn.2 = got + total pool
  upTo : drawn.1 = min needed (got + paidWithin opens closes pool)

theorem draw_up_to (h : ∀ p ∈ pool, 0 ≤ p.amount) (hgot : got ≤ needed) :
    DrawsUpTo opens closes needed got pool (draw opens closes needed got pool) := by
  induction pool generalizing got with
  | nil =>
    refine ⟨.nil, rfl, ?_⟩
    simp [draw, paidWithin, hgot]
  | cons p pool ih =>
    obtain ⟨hp, hpool⟩ := List.forall_mem_cons.mp h
    have hwithin : 0 ≤ paidWithin opens closes pool := paid_within_nonneg hpool
    rw [draw]
    split
    · rename_i hskip
      obtain ⟨hleft, htaken, hupto⟩ := ih hpool hgot
      dsimp only
      have hnothing : (if opens ≤ p.paidOn ∧ p.paidOn ≤ closes then p.amount else 0) = 0 := by
        split
        · rename_i hin
          rcases hskip with hzero | hbefore | hafter
          · omega
          · exact absurd hin.1 (not_le.mpr hbefore)
          · exact absurd hin.2 (not_le.mpr hafter)
        · rfl
      refine ⟨.cons (.refl hp) hleft, ?_, ?_⟩
      · simp only [total, List.map_cons, List.sum_cons] at htaken ⊢
        omega
      · rw [hupto]
        unfold paidWithin
        rw [List.map_cons, List.sum_cons, hnothing, zero_add]
    · rename_i hused
      obtain ⟨hpos, hin⟩ := not_or.mp hused
      obtain ⟨hfrom, huntil⟩ := not_or.mp hin
      have hcounted : paidWithin opens closes (p :: pool) =
          p.amount + paidWithin opens closes pool := by
        rw [paidWithin, List.map_cons, List.sum_cons, if_pos ⟨not_lt.mp hfrom, not_lt.mp huntil⟩]
        rfl
      have hdated : ∀ amount, 0 ≤ amount → amount ≤ p.amount →
          LeftOf opens closes p { p with amount := amount } := fun amount hnonneg hle =>
        ⟨rfl, hnonneg, hle, fun _ => ⟨not_lt.mp hfrom, not_lt.mp huntil⟩⟩
      dsimp only
      split
      · refine ⟨left_of_refl h, rfl, ?_⟩
        rw [hcounted]
        omega
      · split
        · refine ⟨.cons (hdated _ (by omega) (by omega)) (left_of_refl hpool), ?_, ?_⟩
          · simp only [total, List.map_cons, List.sum_cons]
            omega
          · rw [hcounted]
            dsimp only
            omega
        · have hmore : got + min p.amount (needed - got) ≤ needed := by omega
          obtain ⟨hleft, htaken, hupto⟩ := ih hpool hmore
          refine ⟨.cons (hdated _ (by omega) (by omega)) hleft, ?_, ?_⟩
          · simp only [total, List.map_cons, List.sum_cons] at htaken ⊢
            omega
          · rw [hupto, hcounted]
            congr 1
            omega

/-! ### The lines -/

/-- What a line says of its income. -/
structure Line (item : UnforeseenIncome) (line : UnforeseenLine) : Prop where
  aroseOn : line.aroseOn = item.aroseOn
  taxPaise : line.taxPaise = item.taxPaise

/-- An income is relieved of its tax where it is paid between the days, and takes that much. -/
structure Relieves (pool left : List Paid) (line : UnforeseenLine) : Prop where
  drawn : List.Forall₂ (LeftOf line.aroseOn line.settleBy) pool left
  taken : total pool - total left = if line.relief then line.taxPaise else 0

theorem relieve_line (fy : FinancialYear) (due : List Day) (pool : List Paid)
    (item : UnforeseenIncome) : Line item (relieve fy due pool item).1 := by
  unfold relieve
  dsimp only
  split
  · exact ⟨rfl, rfl⟩
  · split
    · exact ⟨rfl, rfl⟩
    · split
      · exact ⟨rfl, rfl⟩
      · exact ⟨rfl, rfl⟩

theorem relieve_relieves (h : ∀ p ∈ pool, 0 ≤ p.amount) (htax : 0 ≤ item.taxPaise) :
    Relieves pool (relieve fy due pool item).2 (relieve fy due pool item).1 := by
  have hdraw : DrawsUpTo item.aroseOn (settleBy fy due item.aroseOn) item.taxPaise 0 pool
      (draw item.aroseOn (settleBy fy due item.aroseOn) item.taxPaise 0 pool) := draw_up_to h htax
  have hnothing : total pool - total pool = 0 := sub_self _
  unfold relieve
  dsimp only
  split
  · exact ⟨left_of_refl h, hnothing⟩
  · split
    · exact ⟨left_of_refl h, hnothing⟩
    · split
      · rename_i hpaid
        refine ⟨hdraw.left, ?_⟩
        have htaken := hdraw.taken
        have hupto := hdraw.upTo
        dsimp only
        rw [if_pos rfl]
        omega
      · exact ⟨left_of_refl h, hnothing⟩

/-- An income is relieved where it arose after the first instalment and its tax, if any, was paid
in time. -/
theorem relieve_relief (h : ∀ p ∈ pool, 0 ≤ p.amount) (htax : 0 ≤ item.taxPaise) :
    (relieve fy due pool item).1.relief ↔ firstDue fy due < item.aroseOn ∧ item.taxPaise ≠ 0 ∧
      item.taxPaise ≤ paidWithin item.aroseOn (settleBy fy due item.aroseOn) pool := by
  have hdraw : DrawsUpTo item.aroseOn (settleBy fy due item.aroseOn) item.taxPaise 0 pool
      (draw item.aroseOn (settleBy fy due item.aroseOn) item.taxPaise 0 pool) := draw_up_to h htax
  have hupto := hdraw.upTo
  rw [zero_add] at hupto
  have hpaid : item.taxPaise ≤ (draw item.aroseOn (settleBy fy due item.aroseOn) item.taxPaise 0
      pool).1 ↔ item.taxPaise ≤ paidWithin item.aroseOn (settleBy fy due item.aroseOn) pool := by
    omega
  unfold relieve
  dsimp only
  rw [← hpaid]
  split
  · rename_i hforeseen
    exact iff_of_false Bool.false_ne_true fun hall => absurd hall.1 (not_lt.mpr hforeseen)
  · rename_i hlater
    split
    · rename_i hzero
      exact iff_of_false Bool.false_ne_true fun hall => hall.2.1 hzero
    · rename_i hsome
      split
      · rename_i henough
        exact iff_of_true rfl ⟨not_le.mp hlater, hsome, henough⟩
      · rename_i hshort
        exact iff_of_false Bool.false_ne_true fun hall => hshort hall.2.2

/-- The part of each payment that is counted against each income. -/
structure Backing (pool : List Paid) (lines : List UnforeseenLine) (share : ℕ → ℕ → ℤ) : Prop where
  nonneg : ∀ i j, 0 ≤ share i j
  whole : ∀ i line, lines[i]? = some line →
    ∑ j ∈ Finset.range pool.length, share i j = if line.relief then line.taxPaise else 0
  within : ∀ (j : ℕ) p, pool[j]? = some p → ∑ i ∈ Finset.range lines.length, share i j ≤ p.amount
  dated : ∀ (i j : ℕ) line p, lines[i]? = some line → pool[j]? = some p → 0 < share i j →
    line.aroseOn ≤ p.paidOn ∧ p.paidOn ≤ line.settleBy

/-- A figure of a list's members by their place. -/
def placed {α : Type} (f : α → ℤ) (l : List α) (i : ℕ) : ℤ := (l[i]?.map f).getD 0

theorem sum_placed {α : Type} (f : α → ℤ) (l : List α) :
    ∑ i ∈ Finset.range l.length, placed f l i = (l.map f).sum := by
  induction l with
  | nil => rfl
  | cons a l ih =>
    rw [List.length_cons, Finset.sum_range_succ', List.map_cons, List.sum_cons, add_comm]
    exact congrArg _ ih

theorem placed_at {α : Type} (f : α → ℤ) {l : List α} {i : ℕ} {a : α} (h : l[i]? = some a) :
    placed f l i = f a := by
  rw [placed, h]
  rfl

/-- The amount of a payment of a pool by its place. -/
def amountAt (pool : List Paid) (j : ℕ) : ℤ := placed (·.amount) pool j

theorem sum_amounts (pool : List Paid) :
    ∑ j ∈ Finset.range pool.length, amountAt pool j = total pool := sum_placed _ pool

theorem amount_left (h : List.Forall₂ (LeftOf opens closes) pool left) (j : ℕ) :
    amountAt left j ≤ amountAt pool j := by
  induction h generalizing j with
  | nil => exact le_rfl
  | cons hp _ ih =>
    cases j with
    | zero => exact hp.within
    | succ j => exact ih j

theorem left_at (h : List.Forall₂ (LeftOf opens closes) pool left) {j : ℕ} {p : Paid}
    (hp : pool[j]? = some p) : ∃ q, left[j]? = some q ∧ LeftOf opens closes p q := by
  induction h generalizing j with
  | nil => cases hp
  | @cons _ q _ _ hleft _ ih =>
    cases j with
    | zero =>
      cases hp
      exact ⟨q, rfl, hleft⟩
    | succ j => exact ih hp

theorem left_nonneg (h : List.Forall₂ (LeftOf opens closes) pool left) : ∀ q ∈ left, 0 ≤ q.amount := by
  induction h with
  | nil => exact fun q hq => absurd hq List.not_mem_nil
  | cons hp _ ih => exact List.forall_mem_cons.mpr ⟨hp.nonneg, ih⟩

/-- One more line takes its part before the others take theirs of what it leaves. -/
theorem Backing.cons {share : ℕ → ℕ → ℤ} (hone : Relieves pool left line)
    (h : Backing left lines share) :
    Backing pool (line :: lines) fun i j =>
      match i with
      | 0 => amountAt pool j - amountAt left j
      | i + 1 => share i j where
  nonneg := by
    intro i j
    cases i with
    | zero => exact sub_nonneg.mpr (amount_left hone.drawn j)
    | succ i => exact h.nonneg i j
  whole := by
    intro i line' hline'
    cases i with
    | zero =>
      cases hline'
      dsimp only
      rw [Finset.sum_sub_distrib, sum_amounts, hone.drawn.length_eq, sum_amounts]
      exact hone.taken
    | succ i =>
      rw [hone.drawn.length_eq]
      exact h.whole i line' hline'
  within := by
    intro j p hp
    obtain ⟨q, hq, hleft⟩ := left_at hone.drawn hp
    have hrest := h.within j q hq
    rw [List.length_cons, Finset.sum_range_succ']
    have hamount : amountAt pool j = p.amount := placed_at _ hp
    have hremains : amountAt left j = q.amount := placed_at _ hq
    dsimp only
    rw [hamount, hremains]
    omega
  dated := by
    intro i j line' p hline' hp hshare
    obtain ⟨q, hq, hleft⟩ := left_at hone.drawn hp
    cases i with
    | zero =>
      cases hline'
      have hamount : amountAt pool j = p.amount := placed_at _ hp
      have hremains : amountAt left j = q.amount := placed_at _ hq
      dsimp only at hshare
      rw [hamount, hremains] at hshare
      exact hleft.dated (sub_pos.mp hshare)
    | succ i =>
      have hdated := h.dated i j line' q hline' hq hshare
      rwa [hleft.paidOn] at hdated

theorem backing_none (h : ∀ p ∈ pool, 0 ≤ p.amount) : Backing pool [] fun _ _ => 0 where
  nonneg := fun _ _ => le_rfl
  whole := by
    intro i line hline
    cases hline
  within := fun j p hp => h p (List.mem_of_getElem? hp)
  dated := by
    intro i j line p hline
    cases hline

theorem relieve_all_backed (h : ∀ p ∈ pool, 0 ≤ p.amount)
    (htax : ∀ item ∈ items, 0 ≤ item.taxPaise) :
    ∃ share, Backing pool (relieveAll fy due pool items) share := by
  induction items generalizing pool with
  | nil => exact ⟨_, backing_none h⟩
  | cons item items ih =>
    obtain ⟨hitem, hitems⟩ := List.forall_mem_cons.mp htax
    have hone : Relieves pool (relieve fy due pool item).2 (relieve fy due pool item).1 :=
      relieve_relieves h hitem
    obtain ⟨share, hshare⟩ := ih (left_nonneg hone.drawn) hitems
    exact ⟨_, hshare.cons hone⟩

theorem sum_where {α : Type} (p : α → Bool) (f : α → ℤ) (l : List α) :
    ((l.filter p).map f).sum = (l.map fun a => if p a then f a else 0).sum := by
  simpa using Tally.sum_filter (fun a => p a = true) f l

def relievedTax (lines : List UnforeseenLine) : ℤ :=
  ((lines.filter (·.relief)).map (·.taxPaise)).sum

/-- No more tax is relieved than was paid toward it. -/
theorem Backing.relieved_le {share : ℕ → ℕ → ℤ} (h : Backing pool lines share) :
    relievedTax lines ≤ total pool := by
  have hlines : relievedTax lines =
      ∑ i ∈ Finset.range lines.length, ∑ j ∈ Finset.range pool.length, share i j := by
    rw [relievedTax, sum_where, ← sum_placed]
    refine Finset.sum_congr rfl fun i hi => ?_
    have hline := List.getElem?_eq_getElem (Finset.mem_range.mp hi)
    rw [placed_at _ hline, h.whole i _ hline]
  rw [hlines, Finset.sum_comm, ← sum_amounts]
  refine Finset.sum_le_sum fun j hj => ?_
  have hp := List.getElem?_eq_getElem (Finset.mem_range.mp hj)
  exact (h.within j _ hp).trans_eq (placed_at _ hp).symm

/-! ### The pool of some payments -/

/-- A payment of a pool is a dated payment of a positive amount. -/
theorem pool_nonneg (payments : List InstallmentPayment) : ∀ p ∈ poolOf payments, 0 ≤ p.amount := by
  intro p hp
  obtain ⟨payment, -, hdated⟩ := List.mem_filterMap.mp
    ((List.perm_insertionSort _ _).mem_iff.mp hp)
  obtain ⟨paidOn, -, hsome⟩ := Option.bind_eq_some_iff.mp hdated
  split at hsome
  · rename_i hpos
    cases hsome
    exact hpos.le
  · cases hsome

/-- What a payment puts into the pool between two days. -/
def paysWithin (opens closes : Day) (p : InstallmentPayment) : ℤ :=
  (dated p).elim 0 fun q => if opens ≤ q.paidOn ∧ q.paidOn ≤ closes then q.amount else 0

theorem pays_within_eq (opens closes : Day) (p : InstallmentPayment) :
    paysWithin opens closes p =
      if p.paidDate.any fun paidOn => opens ≤ paidOn ∧ paidOn ≤ closes then max 0 p.paidAmountPaise
      else 0 := by
  unfold paysWithin dated
  cases p.paidDate with
  | none => rfl
  | some paidOn =>
    simp only [Option.bind_some, Option.any_some, decide_eq_true_eq]
    by_cases hpos : 0 < p.paidAmountPaise
    · rw [if_pos hpos, max_eq_right hpos.le]
      rfl
    · rw [if_neg hpos, max_eq_left (not_lt.mp hpos), ite_self]
      rfl

theorem paid_within_pool (opens closes : Day) (payments : List InstallmentPayment) :
    paidWithin opens closes (poolOf payments) = (payments.map (paysWithin opens closes)).sum := by
  have hperm := List.perm_insertionSort (fun a b : Paid => a.paidOn ≤ b.paidOn)
    (payments.filterMap dated)
  unfold paidWithin poolOf
  rw [(hperm.map _).sum_eq, Tally.sum_filter_map dated]
  rfl

/-- A payment added, or one that is larger. -/
inductive Enlarged : List InstallmentPayment → List InstallmentPayment → Prop
  | added (before after : List InstallmentPayment) (p : InstallmentPayment)
      (h : 0 ≤ p.paidAmountPaise) : Enlarged (before ++ after) (before ++ p :: after)
  | enlarged (before after : List InstallmentPayment) (p : InstallmentPayment) (amount : ℤ)
      (h : p.paidAmountPaise ≤ amount) :
      Enlarged (before ++ p :: after) (before ++ { p with paidAmountPaise := amount } :: after)

/-- A figure that payments add to, more where they are larger. -/
theorem Enlarged.sum_le (h : Enlarged payments payments') {f : InstallmentPayment → ℤ}
    (hnonneg : ∀ p : InstallmentPayment, 0 ≤ p.paidAmountPaise → 0 ≤ f p)
    (hmono : ∀ (p : InstallmentPayment) amount, p.paidAmountPaise ≤ amount →
      f p ≤ f { p with paidAmountPaise := amount }) :
    (payments.map f).sum ≤ (payments'.map f).sum := by
  cases h with
  | added before after p hp =>
    have := hnonneg p hp
    simp only [List.map_append, List.map_cons, List.sum_append, List.sum_cons]
    omega
  | enlarged before after p amount hle =>
    have := hmono p amount hle
    simp only [List.map_append, List.map_cons, List.sum_append, List.sum_cons]
    omega

theorem Enlarged.paid_by (h : Enlarged payments payments') (day : Day) :
    paidBy payments day ≤ paidBy payments' day := by
  unfold paidBy
  rw [sum_where, sum_where]
  refine h.sum_le (fun p hp => ?_) fun p amount hle => ?_
  · split
    · exact hp
    · exact le_rfl
  · dsimp only
    split
    · exact hle
    · exact le_rfl

theorem Enlarged.paid_within (h : Enlarged payments payments') (opens closes : Day) :
    paidWithin opens closes (poolOf payments) ≤ paidWithin opens closes (poolOf payments') := by
  rw [paid_within_pool, paid_within_pool]
  refine h.sum_le (fun p hp => ?_) fun p amount hle => ?_
  · rw [pays_within_eq]
    split
    · exact le_max_left _ _
    · exact le_rfl
  · rw [pays_within_eq, pays_within_eq]
    dsimp only
    split
    · exact max_le_max_left 0 hle
    · exact le_rfl

end Caflow.IncomeTax.AdvanceTax
