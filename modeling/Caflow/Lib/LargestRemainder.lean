import Caflow.Lib.Rounding

namespace Caflow.LargestRemainder
open Rounding

/-- Each exact share cut to a whole number, and what the cut left over with its position. -/
def remainders (exact : List ℚ) : List (ℚ × ℕ) :=
  exact.zipIdx.map (fun p => (p.1 - truncate p.1, p.2))

/-- Largest remainder first; equal remainders keep their order. -/
def before (a b : ℚ × ℕ) : Prop := b.1 < a.1 ∨ (a.1 = b.1 ∧ a.2 ≤ b.2)

instance : DecidableRel before := fun a b =>
  inferInstanceAs (Decidable (b.1 < a.1 ∨ (a.1 = b.1 ∧ a.2 ≤ b.2)))

/-- One more unit for each position listed. -/
def bump (shares : List ℤ) (positions : List ℕ) : List ℤ :=
  positions.foldl (fun s i => s.modify i (· + 1)) shares

/-- Cut every share to a whole number, then hand out what is missing from `total`
one unit at a time, the largest remainder first. -/
def apportion (total : ℤ) (exact : List ℚ) : List ℤ :=
  let shares := exact.map truncate
  let residue := total - shares.sum
  bump shares ((((remainders exact).insertionSort before).take residue.toNat).map Prod.snd)

theorem bump_length (shares : List ℤ) (positions : List ℕ) :
    (bump shares positions).length = shares.length := by
  induction positions generalizing shares with
  | nil => rfl
  | cons i is ih => simpa [bump] using ih (shares.modify i (· + 1))

theorem modify_sum (shares : List ℤ) (i : ℕ) (hi : i < shares.length) :
    (shares.modify i (· + 1)).sum = shares.sum + 1 := by
  induction shares generalizing i with
  | nil => simp at hi
  | cons s ss ih =>
    cases i with
    | zero => simp only [List.modify_zero_cons, List.sum_cons]; ring
    | succ i =>
      simp only [List.modify_succ_cons, List.sum_cons]
      rw [ih i (by simpa using hi)]
      ring

theorem bump_sum (shares : List ℤ) (positions : List ℕ)
    (hp : ∀ i ∈ positions, i < shares.length) :
    (bump shares positions).sum = shares.sum + positions.length := by
  induction positions generalizing shares with
  | nil => simp [bump]
  | cons i is ih =>
    have hstep := ih (shares.modify i (· + 1)) (by simpa using fun j hj => hp j (by simp [hj]))
    rw [modify_sum shares i (hp i (by simp))] at hstep
    change (bump (shares.modify i (· + 1)) is).sum = _
    rw [hstep]
    push_cast [List.length_cons]
    ring

theorem sorted_positions (exact : List ℚ) (n : ℕ) :
    ∀ i ∈ (((remainders exact).insertionSort before).take n).map Prod.snd, i < exact.length := by
  intro i hi
  obtain ⟨p, hp, rfl⟩ := List.mem_map.mp hi
  have hs := (List.perm_insertionSort before (remainders exact)).mem_iff.mp (List.mem_of_mem_take hp)
  obtain ⟨q, hq, rfl⟩ := List.mem_map.mp hs
  exact (List.mem_zipIdx' hq).1

theorem truncated_sum_le (exact : List ℚ) (hpos : ∀ x ∈ exact, 0 ≤ x) :
    ((exact.map truncate).sum : ℚ) ≤ exact.sum := by
  induction exact with
  | nil => simp
  | cons x xs ih =>
    have hx := hpos x (by simp)
    have := ih (fun y hy => hpos y (by simp [hy]))
    have hf := Int.floor_le x
    simp only [List.map_cons, List.sum_cons, truncate_of_nonneg hx, Int.cast_add]
    linarith

theorem sum_lt_truncated (exact : List ℚ) (hpos : ∀ x ∈ exact, 0 ≤ x) :
    exact.sum ≤ ((exact.map truncate).sum : ℚ) + exact.length := by
  induction exact with
  | nil => simp
  | cons x xs ih =>
    have hx := hpos x (by simp)
    have := ih (fun y hy => hpos y (by simp [hy]))
    have hf := (Int.lt_floor_add_one x).le
    simp only [List.map_cons, List.sum_cons, truncate_of_nonneg hx, List.length_cons,
      Int.cast_add, Nat.cast_add, Nat.cast_one]
    linarith

@[simp] theorem apportion_length (total : ℤ) (exact : List ℚ) :
    (apportion total exact).length = exact.length := by
  simp [apportion, bump_length]

/-- Shares that are not negative and add up to the total are handed out to the last unit. -/
theorem apportion_sum (total : ℤ) (exact : List ℚ) (hpos : ∀ x ∈ exact, 0 ≤ x)
    (hsum : exact.sum = total) : (apportion total exact).sum = total := by
  have hlow := truncated_sum_le exact hpos
  have hhigh := sum_lt_truncated exact hpos
  rw [hsum] at hlow hhigh
  have hlow' : (exact.map truncate).sum ≤ total := by exact_mod_cast hlow
  have hhigh' : total ≤ (exact.map truncate).sum + exact.length := by exact_mod_cast hhigh
  unfold apportion
  dsimp only
  rw [bump_sum _ _ (by simpa using sorted_positions exact _)]
  simp only [List.length_map, List.length_take, List.length_insertionSort, remainders,
    List.length_zipIdx]
  omega

/-- Handing out a unit never takes one away. -/
theorem bump_nonneg (shares : List ℤ) (positions : List ℕ) (hs : ∀ s ∈ shares, 0 ≤ s) :
    ∀ s ∈ bump shares positions, 0 ≤ s := by
  induction positions generalizing shares with
  | nil => exact hs
  | cons i is ih =>
    apply ih
    intro s hm
    obtain ⟨j, hj, rfl⟩ := List.mem_iff_getElem.mp hm
    rw [List.getElem_modify]
    have hs' := hs _ (List.getElem_mem (l := shares) (n := j) (by simpa using hj))
    split <;> omega

theorem apportion_nonneg (total : ℤ) (exact : List ℚ) (hpos : ∀ x ∈ exact, 0 ≤ x) :
    ∀ s ∈ apportion total exact, 0 ≤ s := by
  apply bump_nonneg
  intro s hs
  obtain ⟨x, hx, rfl⟩ := List.mem_map.mp hs
  rw [truncate_of_nonneg (hpos x hx)]
  exact Int.floor_nonneg.mpr (hpos x hx)

/-- After the handout every position listed has one unit more. -/
theorem bump_get (shares : List ℤ) (positions : List ℕ) (hp : positions.Nodup) (i : ℕ) :
    (bump shares positions)[i]? = shares[i]?.map (fun s => if i ∈ positions then s + 1 else s) := by
  induction positions generalizing shares with
  | nil => simp [bump]
  | cons j js ih =>
    obtain ⟨hj, hjs⟩ := List.nodup_cons.mp hp
    have hstep := ih (shares.modify j (· + 1)) hjs
    change (bump (shares.modify j (· + 1)) js)[i]? = _
    rw [hstep, List.getElem?_modify]
    by_cases h : j = i
    · subst h
      simp [hj, Function.comp_def]
    · simp [h, Ne.symm h]

theorem remainder_positions (exact : List ℚ) :
    (remainders exact).map Prod.snd = List.range exact.length := by
  have hsnd : Prod.snd ∘ (fun p : ℚ × ℕ => (p.1 - truncate p.1, p.2)) = Prod.snd := rfl
  rw [remainders, List.map_map, hsnd, List.zipIdx_map_snd, List.range_eq_range']

theorem remainder_parts (exact : List ℚ) :
    (remainders exact).map Prod.fst = exact.map fun x => x - truncate x := by
  have hfst : Prod.fst ∘ (fun p : ℚ × ℕ => (p.1 - truncate p.1, p.2)) =
      (fun x => x - (truncate x : ℚ)) ∘ Prod.fst := rfl
  rw [remainders, List.map_map, hfst, ← List.map_map, List.zipIdx_map_fst]

theorem positions_nodup (exact : List ℚ) (n : ℕ) :
    ((((remainders exact).insertionSort before).take n).map Prod.snd).Nodup := by
  have hall : (((remainders exact).insertionSort before).map Prod.snd).Nodup := by
    rw [((List.perm_insertionSort before (remainders exact)).map Prod.snd).nodup_iff,
      remainder_positions]
    exact List.nodup_range
  exact hall.sublist ((List.take_sublist _ _).map Prod.snd)

theorem remainders_sorted (exact : List ℚ) :
    ((remainders exact).insertionSort before).Pairwise before := by
  have htotal : Std.Total before := ⟨fun a b => by
    rcases lt_trichotomy a.1 b.1 with h | h | h
    · exact .inr (.inl h)
    · exact (le_total a.2 b.2).imp (fun h' => .inr ⟨h, h'⟩) (fun h' => .inr ⟨h.symm, h'⟩)
    · exact .inl (.inl h)⟩
  have htrans : IsTrans (ℚ × ℕ) before := ⟨fun a b c hab hbc => by
    rcases hab with hab | ⟨hab, hab'⟩ <;> rcases hbc with hbc | ⟨hbc, hbc'⟩
    · exact .inl (hbc.trans hab)
    · exact .inl (hbc ▸ hab)
    · exact .inl (hab ▸ hbc)
    · exact .inr ⟨hab.trans hbc, hab'.trans hbc'⟩⟩
  exact List.pairwise_insertionSort _ _

theorem sum_lt_length {l : List ℚ} (hne : l ≠ []) (h : ∀ x ∈ l, x < 1) : l.sum < l.length := by
  induction l with
  | nil => contradiction
  | cons x l ih =>
    have hx := h x (by simp)
    simp only [List.sum_cons, List.length_cons, Nat.cast_add, Nat.cast_one]
    by_cases hl : l = []
    · subst hl
      simpa using hx
    · linarith [ih hl (fun y hy => h y (by simp [hy]))]

/-- Parts below one that fill `n` units between them and come largest first: the first `n` of
them are not empty. -/
theorem first_parts_pos {parts : List (ℚ × ℕ)} {n : ℕ} (hsorted : parts.Pairwise before)
    (hlow : ∀ p ∈ parts, 0 ≤ p.1) (hhigh : ∀ p ∈ parts, p.1 < 1)
    (hsum : (parts.map Prod.fst).sum = n) : ∀ p ∈ parts.take n, 0 < p.1 := by
  intro p hp
  by_contra hzero
  have hp0 : p.1 = 0 := le_antisymm (not_lt.mp hzero) (hlow p (List.mem_of_mem_take hp))
  have hrest : ((parts.drop n).map Prod.fst).sum = 0 := by
    refine List.sum_eq_zero fun x hx => ?_
    obtain ⟨q, hq, rfl⟩ := List.mem_map.mp hx
    have horder : before p q := by
      rw [← List.take_append_drop n parts] at hsorted
      exact (List.pairwise_append.mp hsorted).2.2 p hp q hq
    have hq0 := hlow q (List.mem_of_mem_drop hq)
    rcases horder with h | ⟨h, -⟩
    · linarith
    · rw [← h, hp0]
  have hfirst : ((parts.take n).map Prod.fst).sum < ((parts.take n).map Prod.fst).length := by
    refine sum_lt_length (List.map_eq_nil_iff.not.mpr (List.ne_nil_of_mem hp)) fun x hx => ?_
    obtain ⟨q, hq, rfl⟩ := List.mem_map.mp hx
    exact hhigh q (List.mem_of_mem_take hq)
  have hlen : (((parts.take n).map Prod.fst).length : ℚ) ≤ n := by
    exact_mod_cast (by simp : ((parts.take n).map Prod.fst).length ≤ n)
  rw [← List.take_append_drop n parts, List.map_append, List.sum_append, hrest] at hsum
  linarith

/-- What the cuts left over is what the shares are short of the total. -/
theorem remainders_sum (exact : List ℚ) :
    ((remainders exact).map Prod.fst).sum = exact.sum - ((exact.map truncate).sum : ℤ) := by
  rw [remainder_parts]
  induction exact with
  | nil => simp
  | cons x xs ih =>
    simp only [List.map_cons, List.sum_cons, ih, Int.cast_add]
    ring

theorem mem_remainders (hp : p ∈ remainders exact) (hpos : ∀ x ∈ exact, 0 ≤ x) :
    0 ≤ p.1 ∧ p.1 < 1 := by
  obtain ⟨q, hq, rfl⟩ := List.mem_map.mp hp
  have hx := hpos q.1 (List.fst_mem_of_mem_zipIdx hq)
  have hlow := Int.floor_le q.1
  have hhigh := Int.lt_floor_add_one q.1
  dsimp only
  rw [truncate_of_nonneg hx]
  constructor <;> linarith

/-- A unit is handed out only where the cut left something over. -/
theorem handed_remainder (total : ℤ) (exact : List ℚ) (hpos : ∀ x ∈ exact, 0 ≤ x)
    (hsum : exact.sum = total) :
    ∀ p ∈ ((remainders exact).insertionSort before).take
      (total - (exact.map truncate).sum).toNat, 0 < p.1 := by
  have hperm := List.perm_insertionSort before (remainders exact)
  have hlow := truncated_sum_le exact hpos
  rw [hsum] at hlow
  have hlow' : (exact.map truncate).sum ≤ total := by exact_mod_cast hlow
  refine first_parts_pos (remainders_sorted exact)
    (fun p hp => (mem_remainders (hperm.mem_iff.mp hp) hpos).1)
    (fun p hp => (mem_remainders (hperm.mem_iff.mp hp) hpos).2) ?_
  rw [(hperm.map Prod.fst).sum_eq, remainders_sum, hsum]
  have : ((total - (exact.map truncate).sum).toNat : ℤ) = total - (exact.map truncate).sum :=
    Int.toNat_of_nonneg (by omega)
  exact_mod_cast this.symm

/-- No share is a whole unit away from the exact one. -/
theorem apportion_within (total : ℤ) (exact : List ℚ) (hpos : ∀ x ∈ exact, 0 ≤ x)
    (hsum : exact.sum = total) :
    List.Forall₂ (fun (s : ℤ) x => |(s : ℚ) - x| < 1) (apportion total exact) exact := by
  rw [List.forall₂_iff_get]
  refine ⟨apportion_length total exact, fun i hi hi' => ?_⟩
  set positions := (((remainders exact).insertionSort before).take
    (total - (exact.map truncate).sum).toNat).map Prod.snd with hpositions
  have hx := hpos exact[i] (List.getElem_mem hi')
  have hget : (apportion total exact)[i] =
      if i ∈ positions then truncate exact[i] + 1 else truncate exact[i] := by
    have h := bump_get (exact.map truncate) positions (positions_nodup exact _) i
    rw [List.getElem?_map, List.getElem?_eq_getElem hi'] at h
    have h' : (apportion total exact)[i]? = some (apportion total exact)[i] :=
      List.getElem?_eq_getElem hi
    exact Option.some.inj (h'.symm.trans h)
  have hlow := Int.floor_le exact[i]
  have hhigh := Int.lt_floor_add_one exact[i]
  simp only [List.get_eq_getElem, hget, truncate_of_nonneg hx]
  split_ifs with hm
  · obtain ⟨p, hp, rfl⟩ := List.mem_map.mp hm
    have hrem := handed_remainder total exact hpos hsum p hp
    have hthere := (List.perm_insertionSort before _).mem_iff.mp (List.mem_of_mem_take hp)
    obtain ⟨q, hq, rfl⟩ := List.mem_map.mp hthere
    have hq' : q.1 = exact[q.2] := (List.mem_zipIdx' hq).2
    dsimp only at hrem hlow hhigh hx ⊢
    rw [hq', truncate_of_nonneg hx] at hrem
    rw [abs_lt]
    push_cast
    constructor <;> linarith
  · rw [abs_lt]
    constructor <;> linarith

/-- What each weight's part of the total comes to before it is cut. -/
def exactShares (total : ℤ) (weights : List ℚ) : List ℚ :=
  weights.map fun w => total * w / weights.sum

/-- Parts that are not negative, make up the total, and are each less than a unit away from
the weight's exact share. -/
structure FairShares (total : ℤ) (weights : List ℚ) (parts : List ℤ) : Prop where
  nonneg : ∀ s ∈ parts, 0 ≤ s
  sum : parts.sum = total
  within : List.Forall₂ (fun (s : ℤ) x => |(s : ℚ) - x| < 1) parts (exactShares total weights)

theorem exact_shares_sum (total : ℤ) {weights : List ℚ} (hpos : weights.sum ≠ 0) :
    (exactShares total weights).sum = total := by
  have hshare : exactShares total weights =
      weights.map fun w => total / weights.sum * w :=
    List.map_congr_left fun w _ => by ring
  rw [hshare, List.sum_map_mul_left, List.map_id']
  field_simp

theorem exact_shares_nonneg (ht : 0 ≤ total) {weights : List ℚ} (hw : ∀ w ∈ weights, 0 ≤ w) :
    ∀ x ∈ exactShares total weights, 0 ≤ x := by
  intro x hx
  obtain ⟨w, hm, rfl⟩ := List.mem_map.mp hx
  have hw' := hw w hm
  have hsum := List.sum_nonneg hw
  have ht' : (0 : ℚ) ≤ total := by exact_mod_cast ht
  positivity

/-- Handing out the exact shares is fair, whatever the weights. -/
theorem apportion_fair (ht : 0 ≤ total) {weights : List ℚ} (hw : ∀ w ∈ weights, 0 ≤ w)
    (hpos : weights.sum ≠ 0) :
    FairShares total weights (apportion total (exactShares total weights)) where
  nonneg := apportion_nonneg total _ (exact_shares_nonneg ht hw)
  sum := apportion_sum total _ (exact_shares_nonneg ht hw) (exact_shares_sum total hpos)
  within := apportion_within total _ (exact_shares_nonneg ht hw) (exact_shares_sum total hpos)

/-- A total that is not over the whole weights gives no weight more than itself. -/
theorem FairShares.le_weight {weights : List ℤ}
    (h : FairShares total (weights.map Int.cast) parts) (hw : ∀ w ∈ weights, 0 ≤ w)
    (hpos : 0 < weights.sum) (ht : total ≤ weights.sum) :
    List.Forall₂ (· ≤ ·) parts weights := by
  have hsum : (weights.map (Int.cast : ℤ → ℚ)).sum = (weights.sum : ℤ) :=
    (Int.cast_list_sum weights).symm
  have hpos' : (0 : ℚ) < (weights.sum : ℤ) := by exact_mod_cast hpos
  have hall := h.within
  rw [exactShares, List.map_map, hsum, List.forall₂_map_right_iff] at hall
  have hboth := (List.forall₂_and_left weights parts).mpr ⟨hw, List.Forall₂.flip hall⟩
  refine List.Forall₂.flip (hboth.imp fun w s hws => ?_)
  obtain ⟨hw0, habs⟩ := hws
  have hw' : (0 : ℚ) ≤ w := by exact_mod_cast hw0
  have ht' : (total : ℚ) ≤ (weights.sum : ℤ) := by exact_mod_cast ht
  have hshare : (total : ℚ) * w / (weights.sum : ℤ) ≤ w := by
    rw [div_le_iff₀ hpos', mul_comm]
    exact mul_le_mul_of_nonneg_left ht' hw'
  have : (s : ℚ) < w + 1 := by
    have := (abs_lt.mp habs).2
    dsimp only [Function.comp] at this
    linarith
  have : s < w + 1 := by exact_mod_cast this
  exact Int.lt_add_one_iff.mp this

example : apportion 10 [10 / 3, 10 / 3, 10 / 3] = [4, 3, 3] := by decide +kernel

end Caflow.LargestRemainder
