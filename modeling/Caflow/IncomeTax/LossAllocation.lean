import Caflow.IncomeTax.LossSetOff

set_option linter.all false

namespace Caflow.IncomeTax
open SetOff

instance : Fintype IncomeHead :=
  ⟨{.business, .houseProperty, .stcg, .ltcg, .ltcgOther}, fun h => by cases h <;> decide⟩

section
variable (assessmentYear : Option String) (losses : List BroughtForwardLoss)

/-- The losses taken, as sources of relief: a loss by the place it is taken in. -/
def offeredAt (i : ℕ) : ℤ := (losses[i]?.map BroughtForwardLoss.offeredPaise).getD 0

/-- Where the loss taken in a place may go. -/
def mayReduce (i : ℕ) (h : IncomeHead) : Prop :=
  ∃ loss, losses[i]? = some loss ∧ h ∈ allowedHeads assessmentYear loss

/-- What is left of each loss while they are taken. -/
def leftAt (lines : List SetOffLine) (i : ℕ) : ℤ :=
  (lines[i]?.map SetOffLine.carriedForwardPaise).getD (offeredAt losses i)

def SetOffResult.pools (r : SetOffResult) : Pools ℕ IncomeHead :=
  ⟨leftAt losses r.lines, r.heads, r.used⟩

end

theorem left_at_concat (losses : List BroughtForwardLoss) (lines : List SetOffLine)
    (line : SetOffLine) :
    leftAt losses (lines ++ [line]) =
      Function.update (leftAt losses lines) lines.length line.carriedForwardPaise := by
  funext i
  unfold leftAt
  rw [Function.update_apply]
  rcases lt_trichotomy i lines.length with h | rfl | h
  · rw [if_neg h.ne, List.getElem?_append_left h]
  · simp
  · rw [if_neg h.ne', List.getElem?_append_right h.le, List.getElem?_eq_none (by simp; omega),
      List.getElem?_eq_none h.le]

/-- From one state to the next, what was offered of the loss whose line comes next has gone as far
as the heads it may reach allow, and these in their order. -/
structure SetAgainst (r r' : SetOffResult) (hs : List IncomeHead) (offered left : ℤ) : Prop where
  lines : r'.lines = r.lines
  total_kept : r'.totalSetOffPaise = r.totalSetOffPaise
  paid : total r'.used = total r.used + (offered - left)
  below : ∀ h, 0 ≤ r'.heads h ∧ r'.heads h ≤ r.heads h
  exhausted : left = 0 ∨ ∀ h ∈ hs, r'.heads h = 0
  in_order : ∀ d ∈ r'.used, d ∈ r.used ∨
    d.source = r.lines.length ∧ d.sink ∈ hs ∧ ∀ k, [k, d.sink].Sublist hs → r'.heads k = 0
  settled : ∀ (allowed : ℕ → IncomeHead → Prop) (credit : ℕ → ℤ) (due : IncomeHead → ℤ)
    (f : ℕ → ℤ), f r.lines.length = offered → (∀ h ∈ hs, allowed r.lines.length h) →
    Settled allowed credit due ⟨f, r.heads, r.used⟩ →
    Settled allowed credit due ⟨Function.update f r.lines.length left, r'.heads, r'.used⟩

theorem set_against_unmoved (r : SetOffResult) (hs : List IncomeHead) (hn : ∀ h, 0 ≤ r.heads h)
    (hnone : offered = 0 ∨ ∀ h ∈ hs, r.heads h = 0) : SetAgainst r r hs offered offered := by
  refine ⟨rfl, rfl, by omega, fun h => ⟨hn h, le_rfl⟩, hnone, fun d hd => .inl hd, ?_⟩
  intro allowed credit due f hf _ hsettled
  rwa [← hf, Function.update_eq_self]

theorem set_against_one (r : SetOffResult) (h : IncomeHead) (hn : ∀ h, 0 ≤ r.heads h)
    (ho : 0 ≤ offered) :
    SetAgainst r (r.spend h (min offered (r.heads h))) [h] offered
      (offered - min offered (r.heads h)) := by
  have hh := hn h
  refine ⟨rfl, rfl, ?_, fun k => ?_, ?_, fun d hd => ?_, ?_⟩
  · simp only [SetOffResult.spend, total_concat]
    omega
  · have hk := hn k
    simp only [SetOffResult.spend, Function.update_apply]
    split
    · subst k
      omega
    · omega
  · simp only [SetOffResult.spend, List.mem_singleton, forall_eq, Function.update_self]
    omega
  · rcases List.mem_append.mp hd with hd | hd
    · exact .inl hd
    · rw [List.mem_singleton.mp hd]
      refine .inr ⟨rfl, by simp, fun k hk => ?_⟩
      have := hk.length_le
      simp at this
  · intro allowed credit due f hf hal hsettled
    subst hf
    exact hsettled.settle r.lines.length h (hal h (by simp))

theorem use_up_done (r : SetOffResult) (hs : List IncomeHead) (h : remaining ≤ 0) :
    r.useUp remaining hs = (r, remaining, []) := by
  cases hs with
  | nil => rfl
  | cons k hs => rw [SetOffResult.useUp, if_pos h]

/-- A head that comes before another comes first in the list, or before it in the rest. -/
theorem before_cons (h : [k, x].Sublist (y :: ys)) : k = y ∧ x ∈ ys ∨ [k, x].Sublist ys := by
  cases h with
  | cons _ h => exact .inr h
  | cons_cons _ h => exact .inl ⟨rfl, List.singleton_sublist.mp h⟩

/-- One head and then the others, unless nothing is left for them. -/
theorem SetAgainst.andThen (h₁ : SetAgainst r r₁ [h] offered between)
    (h₂ : SetAgainst r₁ r₂ hs between left) (hfresh : h ∉ hs)
    (hnext : r₁.heads h = 0 ∨ r₂ = r₁ ∧ left = 0) : SetAgainst r r₂ (h :: hs) offered left where
  lines := h₂.lines.trans h₁.lines
  total_kept := h₂.total_kept.trans h₁.total_kept
  paid := by have := h₁.paid; have := h₂.paid; omega
  below k := ⟨(h₂.below k).1, (h₂.below k).2.trans (h₁.below k).2⟩
  exhausted := by
    rcases hnext with hzero | ⟨-, hleft⟩
    · rcases h₂.exhausted with hleft | hall
      · exact .inl hleft
      · refine .inr fun k hk => ?_
        rcases List.mem_cons.mp hk with rfl | hk
        · have := h₂.below k
          omega
        · exact hall k hk
    · exact .inl hleft
  in_order d hd := by
    -- a draw on the first head has no head before it
    have hfirst : d ∈ r₁.used → d ∈ r.used ∨ d.source = r.lines.length ∧ d.sink ∈ h :: hs ∧
        ∀ k, [k, d.sink].Sublist (h :: hs) → r₂.heads k = 0 := fun hd₁ => by
      rcases h₁.in_order d hd₁ with hold | ⟨hsource, hsink, -⟩
      · exact .inl hold
      · obtain hsink : d.sink = h := by simpa using hsink
        refine .inr ⟨hsource, by simp [hsink], fun k hk => ?_⟩
        rcases before_cons hk with ⟨-, hmem⟩ | hrest
        · exact absurd (hsink ▸ hmem) hfresh
        · have hmem : d.sink ∈ hs := hrest.subset (by simp)
          exact absurd (hsink ▸ hmem) hfresh
    rcases h₂.in_order d hd with hold | ⟨hsource, hsink, horder⟩
    · exact hfirst hold
    · rcases hnext with hzero | ⟨rfl, -⟩
      · refine .inr ⟨h₁.lines ▸ hsource, by simp [hsink], fun k hk => ?_⟩
        rcases before_cons hk with ⟨rfl, -⟩ | hrest
        · have := h₂.below k
          omega
        · exact horder k hrest
      · exact hfirst hd
  settled allowed credit due f hf hal hsettled := by
    have hone := h₁.settled allowed credit due f hf (fun k hk => hal k (by simp_all)) hsettled
    have hrest := h₂.settled allowed credit due _ (by rw [h₁.lines, Function.update_self])
      (fun k hk => h₁.lines ▸ hal k (by simp [hk])) hone
    rwa [h₁.lines, Function.update_idem] at hrest

theorem use_up_set_against (r : SetOffResult) (hs : List IncomeHead) (hnodup : hs.Nodup)
    (hn : ∀ h, 0 ≤ r.heads h) (ho : 0 ≤ offered) :
    SetAgainst r (r.useUp offered hs).1 hs offered (r.useUp offered hs).2.1 := by
  induction hs generalizing r offered with
  | nil => exact set_against_unmoved r [] hn (.inr (by simp))
  | cons h hs ih =>
    obtain ⟨hfresh, hnodup⟩ := List.nodup_cons.mp hnodup
    rcases le_or_gt offered 0 with hdone | hpos
    · rw [use_up_done r _ hdone]
      exact set_against_unmoved r _ hn (.inl (by omega))
    · have hh := hn h
      rw [SetOffResult.useUp, if_neg (not_le.mpr hpos)]
      dsimp only
      split
      · have hempty : r.heads h = 0 := by omega
        exact (set_against_unmoved r [h] hn (.inr (by simpa using hempty))).andThen
          (ih r hnodup hn ho) hfresh (.inl hempty)
      · have hone := set_against_one r h hn ho
        have hrest := ih (r.spend h (min offered (r.heads h))) hnodup
          (fun k => (hone.below k).1) (show 0 ≤ offered - min offered (r.heads h) by omega)
        refine hone.andThen hrest hfresh ?_
        rcases le_or_gt (offered - min offered (r.heads h)) 0 with hspent | hmore
        · rw [use_up_done _ _ hspent]
          exact .inr ⟨rfl, by dsimp only; omega⟩
        · left
          simp only [SetOffResult.spend, Function.update_self]
          omega

/-- A loss has been set off as far as it goes, and its line says how far. -/
def Taken (r r' : SetOffResult) (loss : BroughtForwardLoss) (hs : List IncomeHead) : Prop :=
  ∃ q left line, SetAgainst r q hs loss.offeredPaise left ∧
    r'.heads = q.heads ∧ r'.used = q.used ∧
    r'.totalSetOffPaise = r.totalSetOffPaise + (loss.offeredPaise - left) ∧
    r'.lines = r.lines ++ [line] ∧
    line.lossType = loss.lossType ∧ line.lossId = loss.lossId ∧
    line.offeredPaise = loss.offeredPaise ∧ line.setOffPaise = loss.offeredPaise - left ∧
    line.carriedForwardPaise = left

theorem record_taken (h : SetAgainst r q hs loss.offeredPaise left)
    (hused : used = loss.offeredPaise - left) (underSection : String) (against : List IncomeHead)
    (reason : String) : Taken r (q.record loss underSection used against reason) loss hs := by
  subst hused
  have hleft : loss.offeredPaise - (loss.offeredPaise - left) = left := by omega
  refine ⟨q, left, ⟨loss.lossType, underSection, loss.offeredPaise, loss.offeredPaise - left, left,
    against, [reason], loss.lossId⟩, h, rfl, rfl, ?_, ?_, rfl, rfl, rfl, rfl, rfl⟩
  · simp only [SetOffResult.record, h.total_kept]
  · simp only [SetOffResult.record, h.lines, hleft]

theorem Taken.warn (h : Taken r r' loss hs) (warning : String) : Taken r (r'.warn warning) loss hs :=
  h

theorem Taken.of_warn (h : Taken (r.warn warning) r' loss hs) : Taken r r' loss hs := by
  obtain ⟨q, left, line, hset, hrest⟩ := h
  exact ⟨q, left, line, ⟨hset.lines, hset.total_kept, hset.paid, hset.below, hset.exhausted,
    hset.in_order, hset.settled⟩, hrest⟩

theorem offered_nonneg (loss : BroughtForwardLoss) : 0 ≤ loss.offeredPaise := le_max_left _ _

theorem apply_kind_taken (r : SetOffResult) (loss : BroughtForwardLoss) (kind : LossKind)
    (hn : ∀ h, 0 ≤ r.heads h) : Taken r (applyKind r loss kind) loss kind.homes := by
  have hnothing : SetAgainst r r [] loss.offeredPaise loss.offeredPaise :=
    set_against_unmoved r [] hn (.inr (by simp))
  cases kind with
  | business =>
    exact record_taken (set_against_one r .business hn (offered_nonneg loss)) (by omega) _ _ _
  | houseProperty =>
    exact record_taken (set_against_one r .houseProperty hn (offered_nonneg loss)) (by omega) _ _ _
  | speculation => exact (record_taken hnothing (sub_self _).symm _ _ _).warn _
  | other => exact (record_taken hnothing (sub_self _).symm _ _ _).warn _
  | capitalLongTerm =>
    exact record_taken (use_up_set_against r _ (by decide) hn (offered_nonneg loss)) rfl _ _ _
  | capitalShortTerm =>
    exact record_taken (use_up_set_against r _ (by decide) hn (offered_nonneg loss)) rfl _ _ _

theorem apply_loss_taken (assessmentYear : Option String) (r : SetOffResult)
    (loss : BroughtForwardLoss) (hn : ∀ h, 0 ≤ r.heads h) :
    Taken r (applyLoss assessmentYear r loss) loss (allowedHeads assessmentYear loss) := by
  have hnothing : SetAgainst r r [] loss.offeredPaise loss.offeredPaise :=
    set_against_unmoved r [] hn (.inr (by simp))
  unfold applyLoss allowedHeads
  cases kindOf loss.lossType with
  | none => exact (record_taken hnothing (sub_self _).symm _ _ _).warn _
  | some kind =>
    dsimp only
    cases (isAvailable loss assessmentYear).1 with
    | false => exact record_taken hnothing (sub_self _).symm _ _ _
    | true =>
      split
      · rename_i h
        cases h
      · split
        · have hwarned : Taken (r.warn (ackWarning kind)) _ loss kind.homes :=
            apply_kind_taken (r.warn (ackWarning kind)) loss kind hn
          exact hwarned.of_warn
        · exact apply_kind_taken r loss kind hn

/-- The invariant of the loop over the losses, by how many it has taken. -/
structure Applied (assessmentYear : Option String) (losses : List BroughtForwardLoss)
    (incomes : IncomeHead → ℤ) (done : ℕ) (r : SetOffResult) : Prop where
  length : r.lines.length = done
  settled : Settled (mayReduce assessmentYear losses) (offeredAt losses) incomes (r.pools losses)
  total_eq : r.totalSetOffPaise = total r.used
  lines : ∀ (i : ℕ) (line : SetOffLine), r.lines[i]? = some line →
    ∃ loss : BroughtForwardLoss, losses[i]? = some loss ∧
    line.lossType = loss.lossType ∧ line.lossId = loss.lossId ∧
    line.offeredPaise = loss.offeredPaise ∧
    line.setOffPaise + line.carriedForwardPaise = loss.offeredPaise
  exhausted : ∀ i < done, (r.pools losses).credit i = 0 ∨
    ∀ h, mayReduce assessmentYear losses i h → r.heads h = 0
  in_order : ∀ d ∈ r.used, ∀ loss, losses[d.source]? = some loss →
    ∀ k, [k, d.sink].Sublist (allowedHeads assessmentYear loss) → r.heads k = 0

section
variable {assessmentYear : Option String} {losses : List BroughtForwardLoss}
variable {incomes : IncomeHead → ℤ}

theorem applied_start (assessmentYear : Option String) (losses : List BroughtForwardLoss)
    (hn : ∀ h, 0 ≤ incomes h) :
    Applied assessmentYear losses incomes 0 ⟨incomes, 0, [], [], []⟩ where
  length := rfl
  settled := by
    apply settled_start _ hn
    intro i
    unfold offeredAt
    cases losses[i]? with
    | none => exact le_rfl
    | some loss => exact offered_nonneg loss
  total_eq := rfl
  lines i line h := by simp at h
  exhausted i hi := absurd hi (Nat.not_lt_zero i)
  in_order d hd := absurd hd List.not_mem_nil

theorem Applied.step (h : Applied assessmentYear losses incomes done r)
    (hloss : losses[done]? = some loss) :
    Applied assessmentYear losses incomes (done + 1) (applyLoss assessmentYear r loss) := by
  obtain ⟨q, left, line, hset, hheads, hused, htotal, hlines, htype, hid, hoffered, hoff, hcarried⟩ :=
    apply_loss_taken assessmentYear r loss (fun k => h.settled.due_nonneg k)
  have hlength : (applyLoss assessmentYear r loss).lines.length = done + 1 := by
    rw [hlines, List.length_append, h.length]
    rfl
  have hpools : (applyLoss assessmentYear r loss).pools losses =
      ⟨Function.update (leftAt losses r.lines) r.lines.length left, q.heads, q.used⟩ := by
    unfold SetOffResult.pools
    rw [hlines, left_at_concat, hheads, hused, hcarried]
  have hnow : leftAt losses r.lines r.lines.length = loss.offeredPaise := by
    unfold leftAt offeredAt
    rw [h.length, hloss]
    simp [h.length]
  have hsettled : Settled (mayReduce assessmentYear losses) (offeredAt losses) incomes
      ((applyLoss assessmentYear r loss).pools losses) := by
    rw [hpools]
    refine hset.settled _ _ _ _ hnow (fun k hk => ?_) h.settled
    rw [h.length]
    exact ⟨loss, hloss, hk⟩
  refine ⟨hlength, hsettled, ?_, ?_, ?_, ?_⟩
  · rw [htotal, hused, hset.paid, h.total_eq]
  · intro i l hl
    rw [hlines] at hl
    rcases lt_or_ge i r.lines.length with hi | hi
    · rw [List.getElem?_append_left hi] at hl
      exact h.lines i l hl
    · rw [List.getElem?_append_right hi] at hl
      obtain ⟨hz, rfl⟩ : i - r.lines.length = 0 ∧ line = l := by
        cases hk : i - r.lines.length with
        | zero => rw [hk] at hl; exact ⟨rfl, by simpa using hl⟩
        | succ k => rw [hk] at hl; simp at hl
      obtain rfl : i = done := by have := h.length; omega
      exact ⟨loss, hloss, htype, hid, hoffered, by omega⟩
  · intro i hi
    rw [hpools, hheads]
    dsimp only
    rcases Nat.lt_succ_iff_lt_or_eq.mp hi with hlt | rfl
    · rw [Function.update_of_ne (by rw [h.length]; omega)]
      rcases h.exhausted i hlt with hzero | hall
      · exact .inl hzero
      · refine .inr fun k hk => ?_
        have := hall k hk
        have := hset.below k
        omega
    · rw [← h.length, Function.update_self, h.length]
      rcases hset.exhausted with hzero | hall
      · exact .inl hzero
      · refine .inr fun k hk => ?_
        obtain ⟨l, hl, hmem⟩ := hk
        rw [hloss] at hl
        cases hl
        exact hall k hmem
  · intro d hd l hl k hk
    rw [hused] at hd
    rw [hheads]
    rcases hset.in_order d hd with hold | ⟨hsource, -, horder⟩
    · have := h.in_order d hold l hl k hk
      have := hset.below k
      omega
    · rw [hsource, h.length, hloss] at hl
      cases hl
      exact horder k hk

/-- The loop keeps its invariant over any losses. -/
theorem Applied.run (before after : List BroughtForwardLoss)
    (h : Applied assessmentYear (before ++ after) incomes before.length r) :
    Applied assessmentYear (before ++ after) incomes (before ++ after).length
      (after.foldl (applyLoss assessmentYear) r) := by
  induction after generalizing before r with
  | nil => simpa using h
  | cons loss after ih =>
    have hat : (before ++ loss :: after)[before.length]? = some loss := by simp
    have hnext := h.step hat
    have hrest := ih (before ++ [loss]) (by simpa using hnext)
    simpa using hrest

/-- A gain, which only capital losses reach. -/
def IsGain (h : IncomeHead) : Prop := h ∈ LossKind.capitalShortTerm.homes

instance : DecidablePred IsGain := fun h => inferInstanceAs (Decidable (h ∈ _))

theorem allowed_of_gain (hmem : k ∈ allowedHeads assessmentYear loss) (hgain : IsGain k) :
    allowedHeads assessmentYear loss = LossKind.capitalLongTerm.homes ∨
      allowedHeads assessmentYear loss = LossKind.capitalShortTerm.homes := by
  unfold allowedHeads at hmem ⊢
  cases hkind : kindOf loss.lossType with
  | none => simp [hkind] at hmem
  | some kind =>
    simp only [hkind] at hmem ⊢
    split at hmem
    · rename_i havailable
      rw [if_pos havailable]
      revert hmem hgain
      cases kind <;> cases k <;> decide
    · cases hmem

/-- Whatever else could be done with the capital losses, it sets no more off against the gains. -/
theorem Applied.maximal (h : Applied assessmentYear losses incomes losses.length r)
    (ds : List (Draw ℕ IncomeHead))
    (hds : Feasible (fun i k => mayReduce assessmentYear losses i k ∧ IsGain k) (offeredAt losses)
      incomes ds) :
    total ds ≤ total (r.used.filter (fun d => IsGain d.sink)) := by
  classical
  have hplace : ∀ i k, mayReduce assessmentYear losses i k → i < losses.length := by
    rintro i k ⟨loss, hloss, -⟩
    exact (List.getElem?_eq_some_iff.mp hloss).1
  have hspent : ∀ i k, mayReduce assessmentYear losses i k → r.heads k ≠ 0 →
      (r.pools losses).credit i = 0 := by
    intro i k hk hne
    rcases h.exhausted i (hplace i k hk) with hzero | hall
    · exact hzero
    · exact absurd (hall k hk) hne
  have hlong : ∀ i k, mayReduce assessmentYear losses i k → IsGain k →
      mayReduce assessmentYear losses i .ltcg ∧ mayReduce assessmentYear losses i .ltcgOther := by
    rintro i k ⟨loss, hloss, hk⟩ hgain
    rcases allowed_of_gain hk hgain with heq | heq <;>
      exact ⟨⟨loss, hloss, by rw [heq]; decide⟩, loss, hloss, by rw [heq]; decide⟩
  have hgain : ∀ d ∈ r.used, ∀ k, mayReduce assessmentYear losses d.source k → IsGain k →
      IsGain d.sink := by
    rintro d hd k ⟨loss, hloss, hk⟩ hgain
    obtain ⟨loss', hloss', hsink⟩ := (h.settled.permitted d hd).2
    rw [hloss] at hloss'
    cases hloss'
    rcases allowed_of_gain hk hgain with heq | heq <;> rw [heq] at hsink <;> revert hsink <;>
      cases d.sink <;> decide
  let capital : Finset ℕ := (Finset.range losses.length).filter
    fun i => mayReduce assessmentYear losses i .ltcg
  let short : Finset ℕ := (Finset.range losses.length).filter
    fun i => mayReduce assessmentYear losses i .stcg
  by_cases hpaid : r.heads .ltcg = 0 ∧ r.heads .ltcgOther = 0
  · obtain ⟨hltcg, hother⟩ := hpaid
    by_cases hstcg : r.heads .stcg = 0
    -- every gain is used up
    · refine h.settled.maximal IsGain ∅ {.stcg, .ltcg, .ltcgOther} ?_ ?_ ?_ ?_ ?_ ?_ ds hds
      · intro i k _ hk
        refine .inr ?_
        revert hk
        cases k <;> decide
      · simp
      · decide
      · simp
      · simp [SetOffResult.pools, hstcg, hltcg, hother]
      · simp
    -- the long-term gains are, and every short-term loss, which never went past its own gains
    · refine h.settled.maximal IsGain short {.ltcg, .ltcgOther} ?_ ?_ ?_ ?_ ?_ ?_ ds hds
      · intro i k hk hgain
        cases k with
        | stcg => exact .inl (Finset.mem_filter.mpr ⟨Finset.mem_range.mpr (hplace i _ hk), hk⟩)
        | ltcg => exact .inr (by decide)
        | ltcgOther => exact .inr (by decide)
        | business => exact absurd hgain (by decide)
        | houseProperty => exact absurd hgain (by decide)
      · intro d hd hs
        exact hgain d hd .stcg (Finset.mem_filter.mp hs).2 (by decide)
      · decide
      · intro i hs
        exact hspent i .stcg (Finset.mem_filter.mp hs).2 hstcg
      · simp [SetOffResult.pools, hltcg, hother]
      · intro d hd hs hsink
        obtain ⟨loss, hloss, hmem⟩ := (Finset.mem_filter.mp hs).2
        refine absurd (h.in_order d hd loss hloss .stcg ?_) hstcg
        rcases allowed_of_gain hmem (by decide) with heq | heq <;> rw [heq] at hmem ⊢
        · exact absurd hmem (by decide)
        · revert hsink
          cases d.sink <;> decide
  -- a long-term gain is left, so every capital loss is used up
  · refine h.settled.maximal IsGain capital ∅ ?_ ?_ ?_ ?_ ?_ ?_ ds hds
    · intro i k hk hgain
      exact .inl (Finset.mem_filter.mpr
        ⟨Finset.mem_range.mpr (hplace i _ hk), (hlong i k hk hgain).1⟩)
    · intro d hd hs
      exact hgain d hd .ltcg (Finset.mem_filter.mp hs).2 (by decide)
    · simp
    · intro i hs
      obtain ⟨hltcg, hother⟩ := hlong i .ltcg (Finset.mem_filter.mp hs).2 (by decide)
      by_cases hzero : r.heads .ltcg = 0
      · exact hspent i .ltcgOther hother fun h0 => hpaid ⟨hzero, h0⟩
      · exact hspent i .ltcg hltcg hzero
    · simp
    · simp

end

theorem applied_all (losses : List BroughtForwardLoss) (incomes : IncomeHead → ℤ)
    (assessmentYear : Option String) (hn : ∀ h, 0 ≤ incomes h) :
    Applied assessmentYear (taken losses) incomes (taken losses).length
      (applyBroughtForwardLosses losses incomes assessmentYear) :=
  (applied_start assessmentYear (taken losses) hn).run [] (taken losses)

/-- Inter-head set-off of brought-forward losses is sound, conservative and maximal. -/
theorem loss_set_off_maximal (losses : List BroughtForwardLoss) (incomes : IncomeHead → ℤ)
    (assessmentYear : Option String) (hn : ∀ h, 0 ≤ incomes h) :
    let r := applyBroughtForwardLosses losses incomes assessmentYear
    (taken losses).Perm losses ∧ r.lines.length = (taken losses).length ∧
    (∀ h, 0 ≤ r.heads h ∧ r.heads h = incomes h - paidInto r.used h) ∧
    ∑ h, (incomes h - r.heads h) = r.totalSetOffPaise ∧
    (∀ d ∈ r.used, 0 ≤ d.amount ∧ mayReduce assessmentYear (taken losses) d.source d.sink) ∧
    (∀ (i : ℕ) (line : SetOffLine), r.lines[i]? = some line →
      ∃ loss : BroughtForwardLoss, (taken losses)[i]? = some loss ∧
        line.lossType = loss.lossType ∧ line.lossId = loss.lossId ∧
        line.offeredPaise = max 0 loss.amountPaise ∧
        line.setOffPaise + line.carriedForwardPaise = line.offeredPaise ∧
        line.setOffPaise = drawnFrom r.used i) ∧
    ∀ ds, Feasible (fun i h => mayReduce assessmentYear (taken losses) i h ∧ IsGain h)
        (offeredAt (taken losses)) incomes ds →
      total ds ≤ total (r.used.filter (fun d => IsGain d.sink)) := by
  intro r
  have happlied : Applied assessmentYear (taken losses) incomes (taken losses).length r :=
    applied_all losses incomes assessmentYear hn
  have hheads : ∀ h, paidInto r.used h + r.heads h = incomes h := happlied.settled.due_eq
  refine ⟨List.perm_insertionSort _ _, happlied.length, fun h => ⟨happlied.settled.due_nonneg h, ?_⟩,
    ?_, happlied.settled.permitted, ?_, happlied.maximal⟩
  · have := hheads h
    omega
  · have hpaid : ∀ h, incomes h - r.heads h = paidInto r.used h := fun h => by
      have := hheads h
      omega
    simp only [hpaid, sum_paid_into, Finset.mem_univ, if_true]
    exact happlied.total_eq.symm
  · intro i line hline
    obtain ⟨loss, hloss, htype, hid, hoffered, hsum⟩ := happlied.lines i line hline
    refine ⟨loss, hloss, htype, hid, hoffered, hoffered ▸ hsum, ?_⟩
    have hcredit := happlied.settled.credit_eq i
    simp only [SetOffResult.pools, leftAt, offeredAt, hline, hloss, Option.map_some,
      Option.getD_some] at hcredit
    omega

theorem loss_set_off_spelled :
    let losses : List BroughtForwardLoss := [⟨" Capital_Short_Term", 500, none, false, none, none⟩,
      ⟨"capital_long_term", 300, none, false, none, none⟩]
    let incomes : IncomeHead → ℤ := fun | .stcg => 100 | .ltcg => 600 | _ => 0
    let r := applyBroughtForwardLosses losses incomes (some "2026-27")
    ∑ h, (incomes h - r.heads h) = r.totalSetOffPaise ∧ r.totalSetOffPaise = 700 := by
  intro losses incomes r
  have hincomes : ∀ h, 0 ≤ incomes h := by intro h; cases h <;> decide
  exact ⟨(loss_set_off_maximal losses incomes (some "2026-27") hincomes).2.2.2.1, by decide +kernel⟩

end Caflow.IncomeTax
