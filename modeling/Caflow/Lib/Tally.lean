import Mathlib

namespace Caflow.Tally

variable {κ M : Type*} [DecidableEq κ] [AddCommMonoid M]

/-- What the amounts posted under a key come to. -/
def tally (pairs : List (κ × M)) (k : κ) : M :=
  ((pairs.filter (fun p => p.1 = k)).map Prod.snd).sum

@[simp] theorem tally_nil (k : κ) : tally ([] : List (κ × M)) k = 0 := rfl

theorem tally_cons (p : κ × M) (pairs : List (κ × M)) (k : κ) :
    tally (p :: pairs) k = (if p.1 = k then p.2 else 0) + tally pairs k := by
  unfold tally
  rw [List.filter_cons]
  split
  · rename_i h
    rw [if_pos (of_decide_eq_true h), List.map_cons, List.sum_cons]
  · rename_i h
    rw [if_neg (by simpa using h), zero_add]

theorem tally_append (ps qs : List (κ × M)) (k : κ) :
    tally (ps ++ qs) k = tally ps k + tally qs k := by
  unfold tally
  rw [List.filter_append, List.map_append, List.sum_append]

theorem tally_absent {pairs : List (κ × M)} (h : ∀ p ∈ pairs, p.1 ≠ k) : tally pairs k = 0 := by
  unfold tally
  rw [List.filter_eq_nil_iff.mpr fun p hp => by simpa using h p hp]
  rfl

theorem sum_single {keys : List κ} (hkeys : keys.Nodup) (k : κ) (x : M) :
    (keys.map (fun k' => if k = k' then x else 0)).sum = if k ∈ keys then x else 0 := by
  induction keys with
  | nil => rfl
  | cons k' keys ih =>
    obtain ⟨hfirst, hrest⟩ := List.nodup_cons.mp hkeys
    rw [List.map_cons, List.sum_cons, ih hrest]
    by_cases h : k = k'
    · subst h
      rw [if_pos rfl, if_neg hfirst, add_zero, if_pos List.mem_cons_self]
    · simp only [List.mem_cons, h, false_or, if_false, zero_add]

/-- Keys that cover the pairs, each once, share out everything posted. -/
theorem sum_tally {keys : List κ} {pairs : List (κ × M)} (hkeys : keys.Nodup)
    (hcover : ∀ p ∈ pairs, p.1 ∈ keys) :
    (keys.map (tally pairs)).sum = (pairs.map Prod.snd).sum := by
  induction pairs with
  | nil =>
    simp only [List.map_nil, List.sum_nil]
    exact List.sum_eq_zero (by simp)
  | cons p pairs ih =>
    obtain ⟨hfirst, hrest⟩ := List.forall_mem_cons.mp hcover
    have hsplit : keys.map (tally (p :: pairs)) =
        keys.map (fun k => (if p.1 = k then p.2 else 0) + tally pairs k) :=
      List.map_congr_left fun k _ => tally_cons p pairs k
    rw [hsplit, List.sum_map_add, sum_single hkeys, if_pos hfirst, ih hrest, List.map_cons,
      List.sum_cons]

/-- Each key once, in the order of its first amount. -/
def firstKeys : List (κ × M) → List κ
  | [] => []
  | p :: pairs => p.1 :: (firstKeys pairs).filter (· ≠ p.1)

omit [AddCommMonoid M] in
@[simp] theorem mem_first_keys {k : κ} : k ∈ firstKeys pairs ↔ ∃ p ∈ pairs, p.1 = k := by
  induction pairs with
  | nil => simp [firstKeys]
  | cons p pairs ih =>
    simp only [firstKeys, List.mem_cons, List.mem_filter, ih, exists_eq_or_imp, decide_eq_true_eq]
    by_cases h : k = p.1
    · simp [h]
    · simp [h, Ne.symm h]

omit [AddCommMonoid M] in
theorem first_keys_nodup (pairs : List (κ × M)) : (firstKeys pairs).Nodup := by
  induction pairs with
  | nil => exact List.nodup_nil
  | cons p pairs ih =>
    refine List.nodup_cons.mpr ⟨fun h => ?_, ih.filter _⟩
    simpa using (List.mem_filter.mp h).2

/-- An amount joins the running total of its key, or opens one behind the others. -/
def addTo (k : κ) (x : M) : List (κ × M) → List (κ × M)
  | [] => [(k, x)]
  | (k', y) :: totals => if k' = k then (k', y + x) :: totals else (k', y) :: addTo k x totals

/-- The totals a pass over the amounts leaves, in the order the keys came up. -/
def grouped (pairs : List (κ × M)) : List (κ × M) :=
  pairs.foldl (fun totals p => addTo p.1 p.2 totals) []

theorem add_to_new {totals : List (κ × M)} (h : k ∉ totals.map Prod.fst) :
    addTo k x totals = totals ++ [(k, x)] := by
  induction totals with
  | nil => rfl
  | cons t totals ih =>
    obtain ⟨hk, hrest⟩ := List.ne_and_not_mem_of_not_mem_cons (List.map_cons ▸ h)
    rw [addTo, if_neg (Ne.symm hk), ih hrest, List.cons_append]

theorem add_to_known {totals : List (κ × M)} (hkeys : (totals.map Prod.fst).Nodup)
    (h : k ∈ totals.map Prod.fst) :
    addTo k x totals = totals.map fun t => (t.1, t.2 + if k = t.1 then x else 0) := by
  induction totals with
  | nil => simp at h
  | cons t totals ih =>
    obtain ⟨hfirst, hrest⟩ := List.nodup_cons.mp (List.map_cons ▸ hkeys)
    rw [addTo, List.map_cons]
    by_cases hk : t.1 = k
    · subst hk
      have hsame : totals.map (fun t' => (t'.1, t'.2 + if t.1 = t'.1 then x else 0)) = totals := by
        refine (List.map_congr_left fun t' ht' => ?_).trans (List.map_id totals)
        have hne : t.1 ≠ t'.1 := fun he => hfirst (List.mem_map.mpr ⟨t', ht', he.symm⟩)
        simp [hne]
      rw [if_pos rfl, if_pos rfl, hsame]
    · have hlater : k ∈ totals.map Prod.fst := by simpa [Ne.symm hk] using h
      rw [if_neg hk, if_neg (Ne.symm hk), add_zero, ih hrest hlater]

theorem grouped_from {totals : List (κ × M)} (hkeys : (totals.map Prod.fst).Nodup) :
    pairs.foldl (fun totals p => addTo p.1 p.2 totals) totals =
      totals.map (fun t => (t.1, t.2 + tally pairs t.1)) ++
        ((firstKeys pairs).filter (· ∉ totals.map Prod.fst)).map fun k => (k, tally pairs k) := by
  induction pairs generalizing totals with
  | nil => simp [firstKeys]
  | cons p pairs ih =>
    rw [List.foldl_cons]
    by_cases hp : p.1 ∈ totals.map Prod.fst
    · -- the key is running already: every total takes its share of the pair
      have hnext : (addTo p.1 p.2 totals).map Prod.fst = totals.map Prod.fst := by
        rw [add_to_known hkeys hp, List.map_map]
        rfl
      rw [ih (hnext ▸ hkeys), hnext, add_to_known hkeys hp, List.map_map, firstKeys,
        List.filter_cons_of_neg (by simpa using hp), List.filter_filter]
      congr 1
      · refine List.map_congr_left fun t _ => ?_
        simp only [Function.comp_apply, tally_cons, add_assoc]
      · rw [List.filter_congr (q := fun k => decide (k ∉ totals.map Prod.fst) && decide (k ≠ p.1))]
        · refine List.map_congr_left fun k hk => ?_
          have hne : p.1 ≠ k := fun he => by
            subst he
            simp at hk
          rw [tally_cons, if_neg hne, zero_add]
        · intro k _
          by_cases hk : k = p.1
          · subst hk
            simp [hp]
          · simp [hk]
    · -- a new key opens a total behind the others
      have hnext : (addTo p.1 p.2 totals).map Prod.fst = totals.map Prod.fst ++ [p.1] := by
        rw [add_to_new hp, List.map_append]
        rfl
      have hnodup : ((addTo p.1 p.2 totals).map Prod.fst).Nodup := by
        rw [hnext]
        exact List.nodup_append.mpr ⟨hkeys, List.nodup_singleton _, by
          rintro a ha b hb rfl
          exact hp (List.mem_singleton.mp hb ▸ ha)⟩
      rw [ih hnodup, hnext, add_to_new hp, List.map_append, firstKeys,
        List.filter_cons_of_pos (by simpa using hp), List.filter_filter]
      simp only [List.map_cons, List.map_nil, List.append_assoc, List.cons_append, List.nil_append]
      congr 1
      · refine List.map_congr_left fun t ht => ?_
        have hne : p.1 ≠ t.1 := fun he => hp (List.mem_map.mpr ⟨t, ht, he.symm⟩)
        rw [tally_cons, if_neg hne, zero_add]
      · congr 1
        · rw [tally_cons, if_pos rfl]
        · rw [List.filter_congr
            (q := fun k => decide (k ∉ totals.map Prod.fst) && decide (k ≠ p.1))]
          · refine List.map_congr_left fun k hk => ?_
            have hne : p.1 ≠ k := fun he => by
              subst he
              simp at hk
            rw [tally_cons, if_neg hne, zero_add]
          · intro k _
            rw [← Bool.decide_and, decide_eq_decide, List.mem_append, not_or, List.mem_singleton]

/-- A pass keeps, for each key in the order of its first amount, what was posted under it. -/
theorem grouped_eq (pairs : List (κ × M)) :
    grouped pairs = (firstKeys pairs).map fun k => (k, tally pairs k) := by
  unfold grouped
  rw [grouped_from (by simp)]
  simp

variable {keys keys' : List κ} {pairs : List (κ × M)}

omit [DecidableEq κ] in
/-- Two lists that hold each key once and all keys that answer give the same answers. -/
theorem answers_perm {answer : κ → Option β} (h : keys.Nodup) (h' : keys'.Nodup)
    (hall : ∀ k, answer k ≠ none → k ∈ keys) (hall' : ∀ k, answer k ≠ none → k ∈ keys') :
    (keys.filterMap answer).Perm (keys'.filterMap answer) := by
  have hdrop : ∀ l : List κ, l.filterMap answer = (l.filter (answer · ≠ none)).filterMap answer := by
    intro l
    induction l with
    | nil => rfl
    | cons k l ih =>
      cases hk : answer k with
      | none => rw [List.filterMap_cons_none hk, List.filter_cons_of_neg (by simp [hk]), ih]
      | some b =>
        rw [List.filterMap_cons_some hk, List.filter_cons_of_pos (by simp [hk]),
          List.filterMap_cons_some hk, ih]
  rw [hdrop keys, hdrop keys']
  refine List.Perm.filterMap _ ((List.perm_ext_iff_of_nodup (h.filter _) (h'.filter _)).mpr ?_)
  intro k
  simp only [List.mem_filter, decide_eq_true_eq]
  exact ⟨fun hk => ⟨hall' k hk.2, hk.2⟩, fun hk => ⟨hall k hk.2, hk.2⟩⟩

omit [DecidableEq κ] in
theorem sum_answers [DecidableEq N] [AddCommMonoid N] (amount : κ → N) (keys : List κ) :
    (keys.filterMap fun k => if amount k = 0 then none else some (amount k)).sum =
      (keys.map amount).sum := by
  induction keys with
  | nil => rfl
  | cons k keys ih =>
    rw [List.map_cons, List.sum_cons, ← ih, List.filterMap_cons]
    by_cases hk : amount k = 0
    · simp [hk]
    · simp [hk]

omit [DecidableEq κ] in
/-- Two lists that hold each key once and all keys with an amount have the same sum. -/
theorem amounts_sum [DecidableEq N] [AddCommMonoid N] (amount : κ → N) (h : keys.Nodup)
    (h' : keys'.Nodup) (hall : ∀ k, amount k ≠ 0 → k ∈ keys) (hall' : ∀ k, amount k ≠ 0 → k ∈ keys') :
    (keys.map amount).sum = (keys'.map amount).sum := by
  rw [← sum_answers, ← sum_answers]
  refine (answers_perm h h' (fun k hk => hall k ?_) fun k hk => hall' k ?_).sum_eq <;>
    exact fun hzero => hk (if_pos hzero)

omit [DecidableEq κ] in
theorem sum_filter_map [AddCommMonoid N] (answer : κ → Option β) (f : β → N) (keys : List κ) :
    ((keys.filterMap answer).map f).sum = (keys.map fun k => (answer k).elim 0 f).sum := by
  induction keys with
  | nil => rfl
  | cons k keys ih =>
    rw [List.filterMap_cons, List.map_cons, List.sum_cons, ← ih]
    cases answer k <;> simp

/-- Where each key answers for itself, the answers under one key are that key's. -/
theorem sum_of_answer [AddCommMonoid N] {answer : κ → Option β} {name : β → κ}
    (hname : ∀ k b, answer k = some b → name b = k) (hkeys : keys.Nodup) (f : β → N) (k : κ) :
    (((keys.filterMap answer).filter fun b => name b = k).map f).sum =
      if k ∈ keys then (answer k).elim 0 f else 0 := by
  have hfilter : (((keys.filterMap answer).filter fun b => name b = k).map f).sum =
      (keys.map fun k' => if k = k' then (answer k).elim 0 f else 0).sum := by
    induction keys with
    | nil => rfl
    | cons k' keys ih =>
      rw [List.map_cons, List.sum_cons, ← ih (List.nodup_cons.mp hkeys).2, List.filterMap_cons]
      cases hk : answer k' with
      | none =>
        by_cases he : k = k'
        · subst he
          simp [hk]
        · simp [he]
      | some b =>
        simp only [List.filter_cons, hname k' b hk, decide_eq_true_eq]
        by_cases he : k' = k
        · subst he
          simp [hk]
        · simp [he, Ne.symm he]
  rw [hfilter, sum_single hkeys]

theorem mem_of_tally (h : tally pairs k ≠ 0) : k ∈ firstKeys pairs := by
  by_contra hk
  refine h (tally_absent fun p hp he => hk ?_)
  exact mem_first_keys.mpr ⟨p, hp, he⟩

/-- Where all amounts but one key's fail a test, the totals that pass are that key's or none. -/
theorem grouped_only {q : M → Prop} [DecidablePred q] (hzero : ¬ q 0)
    (hothers : ∀ k', k' ≠ k → ¬ q (tally pairs k')) :
    (grouped pairs).filter (q ·.2) = if q (tally pairs k) then [(k, tally pairs k)] else [] := by
  rw [grouped_eq, List.filter_map]
  split
  · rename_i hk
    have hmem : k ∈ firstKeys pairs := mem_of_tally fun h => hzero (h ▸ hk)
    have hkeys : (firstKeys pairs).filter (fun k' => q (tally pairs k')) =
        (firstKeys pairs).filter (· = k) := by
      refine List.filter_congr fun k' _ => ?_
      rw [decide_eq_decide]
      refine ⟨fun h => by_contra fun hne => hothers k' hne h, ?_⟩
      rintro rfl
      exact hk
    change List.map _ ((firstKeys pairs).filter fun k' => q (tally pairs k')) = _
    rw [hkeys, List.filter_eq, List.count_eq_one_of_mem (first_keys_nodup pairs) hmem]
    rfl
  · rename_i hk
    rw [List.map_eq_nil_iff, List.filter_eq_nil_iff]
    intro k' _ hq
    rw [Function.comp_apply, decide_eq_true_eq] at hq
    by_cases hne : k' = k
    · exact hk (hne ▸ hq)
    · exact hothers k' hne hq

/-- The same keys with the same totals make the same groups, in some order. -/
theorem grouped_perm {ps qs : List (κ × M)}
    (hkeys : ∀ k, k ∈ firstKeys ps ↔ k ∈ firstKeys qs) (htally : ∀ k, tally ps k = tally qs k) :
    (grouped ps).Perm (grouped qs) := by
  rw [grouped_eq, grouped_eq]
  simp only [htally]
  exact ((List.perm_ext_iff_of_nodup (first_keys_nodup ps) (first_keys_nodup qs)).mpr hkeys).map _

theorem grouped_keys (pairs : List (κ × M)) : (grouped pairs).map Prod.fst = firstKeys pairs := by
  rw [grouped_eq, List.map_map]
  exact List.map_id _

theorem lookup_grouped (pairs : List (κ × M)) (k : κ) :
    ((grouped pairs).lookup k).getD 0 = tally pairs k := by
  have hfind : ∀ keys : List κ, ((keys.map fun k' => (k', tally pairs k')).lookup k).getD 0 =
      if k ∈ keys then tally pairs k else 0 := by
    intro keys
    induction keys with
    | nil => rfl
    | cons k' keys ih =>
      rw [List.map_cons, List.lookup_cons]
      by_cases hk : k = k'
      · subst hk
        simp
      · rw [beq_false_of_ne hk]
        simp [ih, hk]
  rw [grouped_eq, hfind]
  split
  · rfl
  · rename_i hk
    exact (not_not.mp (mt mem_of_tally hk)).symm

theorem tally_filter_key {p : κ → Bool} (pairs : List (κ × M)) (k : κ) :
    tally (pairs.filter fun x => p x.1) k = if p k then tally pairs k else 0 := by
  induction pairs with
  | nil => simp
  | cons x pairs ih =>
    rw [List.filter_cons, tally_cons]
    by_cases hk : x.1 = k
    · subst hk
      by_cases hx : p x.1
      · simp only [hx, if_true] at ih ⊢
        rw [tally_cons, ih, if_pos rfl]
      · simp only [hx] at ih ⊢
        exact ih
    · by_cases hx : p x.1
      · simp only [hx, if_true, tally_cons, hk, if_false, zero_add, ih]
      · simp [hx, hk, ih]

/-- What some keys' totals come to is what was posted under them. -/
theorem sum_grouped_filter {p : κ → Bool} (pairs : List (κ × M)) :
    (((grouped pairs).filter fun t => p t.1).map Prod.snd).sum =
      ((pairs.filter fun x => p x.1).map Prod.snd).sum := by
  rw [grouped_eq, List.filter_map, List.map_map]
  rw [← sum_tally ((first_keys_nodup pairs).filter p)]
  · refine congrArg List.sum (List.map_congr_left fun k hk => ?_)
    have hp : p k = true := (List.mem_filter.mp hk).2
    rw [tally_filter_key, if_pos hp]
    rfl
  · intro x hx
    obtain ⟨hx, hp⟩ := List.mem_filter.mp hx
    exact List.mem_filter.mpr ⟨mem_first_keys.mpr ⟨x, hx, rfl⟩, hp⟩

/-- An amount that joins its total joins whatever that total is tallied under. -/
theorem tally_add_to [DecidableEq ι] (p : κ → Bool) (f : κ → ι) (k : κ) (x : M)
    (totals : List (κ × M)) (i : ι) :
    tally (((addTo k x totals).filter fun t => p t.1).map fun t => (f t.1, t.2)) i =
      tally ((totals.filter fun t => p t.1).map fun t => (f t.1, t.2)) i +
        if p k ∧ f k = i then x else 0 := by
  induction totals with
  | nil => by_cases hp : p k <;> simp [addTo, hp, tally_cons]
  | cons t totals ih =>
    rw [addTo]
    by_cases hk : t.1 = k
    · subst hk
      simp only [if_true, List.filter_cons]
      by_cases hp : p t.1
      · simp only [hp, if_true, List.map_cons, tally_cons, true_and]
        by_cases hi : f t.1 = i
        · simp only [hi, if_true]
          exact add_right_comm _ _ _
        · simp only [hi, if_false, zero_add, add_zero]
      · simp [hp]
    · simp only [hk, if_false, List.filter_cons]
      by_cases hp : p t.1
      · simp only [hp, if_true, List.map_cons, tally_cons, ih, add_assoc]
      · simpa [hp] using ih

/-- Totals regrouped under another key come to what the amounts come to under it. -/
theorem tally_regrouped [DecidableEq ι] (p : κ → Bool) (f : κ → ι) (pairs : List (κ × M)) (i : ι) :
    tally (((grouped pairs).filter fun t => p t.1).map fun t => (f t.1, t.2)) i =
      tally ((pairs.filter fun x => p x.1).map fun x => (f x.1, x.2)) i := by
  induction pairs using List.reverseRecOn with
  | nil => rfl
  | append_singleton pairs x ih =>
    unfold grouped at ih ⊢
    rw [List.foldl_append, List.foldl_cons, List.foldl_nil, tally_add_to, ih, List.filter_append,
      List.map_append, tally_append]
    by_cases hp : p x.1 <;> simp [hp, tally_cons]

theorem sum_add_to (k : κ) (x : M) (totals : List (κ × M)) :
    ((addTo k x totals).map Prod.snd).sum = (totals.map Prod.snd).sum + x := by
  induction totals with
  | nil => simp [addTo]
  | cons t totals ih =>
    rw [addTo]
    split
    · simp only [List.map_cons, List.sum_cons]
      exact add_right_comm _ _ _
    · rw [List.map_cons, List.sum_cons, ih, List.map_cons, List.sum_cons, add_assoc]

theorem tally_grouped (pairs : List (κ × M)) (k : κ) : tally (grouped pairs) k = tally pairs k := by
  simpa using tally_regrouped (fun _ => true) id pairs k

theorem tally_flat_map (f : α → List (κ × M)) (l : List α) (k : κ) :
    tally (l.flatMap f) k = (l.map fun x => tally (f x) k).sum := by
  induction l with
  | nil => rfl
  | cons x l ih => rw [List.flatMap_cons, tally_append, ih, List.map_cons, List.sum_cons]

theorem tally_zero (h : ∀ p ∈ pairs, p.2 = 0) (k : κ) : tally pairs k = 0 := by
  apply List.sum_eq_zero
  intro x hx
  obtain ⟨p, hp, rfl⟩ := List.mem_map.mp hx
  exact h p (List.mem_of_mem_filter hp)

/-- Amounts that are all posted under one key. -/
theorem tally_all (h : ∀ p ∈ pairs, p.1 = k) : tally pairs k = (pairs.map Prod.snd).sum := by
  unfold tally
  rw [List.filter_eq_self.mpr fun p hp => by simpa using h p hp]

/-- What is posted for some things and for the others. -/
theorem tally_split (p : α → Prop) [DecidablePred p] (f : α → κ × M) (l : List α) (k : κ) :
    tally (l.map f) k =
      tally ((l.filter (p ·)).map f) k + tally ((l.filter (¬ p ·)).map f) k := by
  induction l with
  | nil => simp
  | cons x l ih =>
    rw [List.map_cons, tally_cons, ih, List.filter_cons, List.filter_cons]
    by_cases hx : p x
    · simp [hx, tally_cons, add_assoc]
    · simp [hx, tally_cons, add_left_comm]

/-- Amounts that are not negative come to none that is. -/
theorem tally_nonneg [PartialOrder M] [IsOrderedAddMonoid M] {pairs : List (κ × M)}
    (h : ∀ p ∈ pairs, 0 ≤ p.2) (k : κ) : 0 ≤ tally pairs k := by
  apply List.sum_nonneg
  intro x hx
  obtain ⟨p, hp, rfl⟩ := List.mem_map.mp hx
  exact h p (List.mem_of_mem_filter hp)

theorem tally_nonpos [PartialOrder M] [IsOrderedAddMonoid M] {pairs : List (κ × M)}
    (h : ∀ p ∈ pairs, p.2 ≤ 0) (k : κ) : tally pairs k ≤ 0 := by
  induction pairs with
  | nil => simp
  | cons p pairs ih =>
    obtain ⟨hfirst, hrest⟩ := List.forall_mem_cons.mp h
    rw [tally_cons]
    split
    · exact add_nonpos hfirst (ih hrest)
    · simpa using ih hrest

theorem tally_perm {qs : List (κ × M)} (h : pairs.Perm qs) (k : κ) : tally pairs k = tally qs k :=
  ((h.filter _).map _).sum_eq

/-- The same amounts make the same groups, in some order. -/
theorem grouped_of_perm {qs : List (κ × M)} (h : pairs.Perm qs) :
    (grouped pairs).Perm (grouped qs) :=
  grouped_perm (fun k => by simp [h.mem_iff]) (tally_perm h)

/-- Groups that are grouped again with more amounts come to the groups of all the amounts. -/
theorem grouped_again {qs : List (κ × M)} (h : pairs.Perm (grouped qs)) (rest : List (κ × M)) :
    (grouped (pairs ++ rest)).Perm (grouped (qs ++ rest)) := by
  have hkeys : ∀ k, (∃ p ∈ pairs, p.1 = k) ↔ ∃ q ∈ qs, q.1 = k := by
    intro k
    have hmem : k ∈ pairs.map Prod.fst ↔ k ∈ firstKeys qs := by
      rw [← grouped_keys qs, (h.map Prod.fst).mem_iff]
    rwa [List.mem_map, mem_first_keys] at hmem
  refine grouped_perm (fun k => ?_) fun k => ?_
  · simp only [mem_first_keys, List.mem_append, or_and_right, exists_or, hkeys]
  · rw [tally_append, tally_append, tally_perm h, tally_grouped]

/-- Nothing posted under a key that is there already changes no group. -/
theorem grouped_zero {k : κ} (hk : ∃ p ∈ pairs, p.1 = k) (rest : List (κ × M)) :
    (grouped (pairs ++ [(k, 0)] ++ rest)).Perm (grouped (pairs ++ rest)) := by
  refine grouped_perm (fun k' => ?_) fun k' => ?_
  · simp only [mem_first_keys, List.mem_append, List.mem_singleton, or_and_right, exists_or,
      exists_eq_left]
    refine or_congr_left ⟨?_, .inl⟩
    rintro (h | rfl)
    · exact h
    · exact hk
  · simp [tally_append, tally_cons]

/-- What the answers come to under a key. -/
theorem tally_filter_map (answer : α → Option β) (pair : β → κ × M) (l : List α) (k : κ) :
    tally ((l.filterMap answer).map pair) k =
      (l.map fun x => (answer x).elim 0 fun y => if (pair y).1 = k then (pair y).2 else 0).sum := by
  induction l with
  | nil => rfl
  | cons x l ih =>
    rw [List.filterMap_cons, List.map_cons, List.sum_cons, ← ih]
    cases answer x with
    | none => exact (zero_add _).symm
    | some y => rw [List.map_cons, tally_cons, Option.elim]

theorem sum_filter (p : α → Prop) [DecidablePred p] (f : α → M) (l : List α) :
    ((l.filter (p ·)).map f).sum = (l.map fun x => if p x then f x else 0).sum := by
  induction l with
  | nil => rfl
  | cons x l ih =>
    rw [List.filter_cons, List.map_cons, List.sum_cons, ← ih]
    by_cases hx : p x
    · simp [hx]
    · simp [hx]

omit [DecidableEq κ] [AddCommMonoid M] in
theorem sum_sub {N : Type*} [AddCommGroup N] (f g : α → N) (l : List α) :
    (l.map fun x => f x - g x).sum = (l.map f).sum - (l.map g).sum := by
  rw [eq_sub_iff_add_eq, ← List.sum_map_add]
  simp only [sub_add_cancel]

/-- Of things that are all different the only one that counts is the sum. -/
theorem sum_only {f : α → M} {x : α} {l : List α} (hl : l.Nodup) (hx : x ∈ l)
    (hrest : ∀ y ∈ l, y ≠ x → f y = 0) : (l.map f).sum = f x := by
  classical
  rw [List.sum_map_eq_nsmul_single x f fun y hne hy => hrest y hy hne, List.count_eq_one_of_mem hl hx,
    one_nsmul]

/-- Things taken key by key are all of them, where every key is taken once. -/
theorem share_out {keys : List κ} (hkeys : keys.Nodup) (key : α → κ) {l : List α}
    (hcover : ∀ x ∈ l, key x ∈ keys) : (keys.flatMap fun k => l.filter (key · = k)).Perm l := by
  classical
  apply List.perm_iff_count.mpr
  intro x
  have hcount : ∀ k, (List.count x ∘ fun k => l.filter (key · = k)) k =
      if key x = k then l.count x else 0 := by
    intro k
    rw [Function.comp_apply]
    split
    · exact List.count_filter (by simpa using ‹_›)
    · apply List.count_eq_zero_of_not_mem
      intro hmem
      simp only [List.mem_filter, decide_eq_true_eq] at hmem
      exact absurd hmem.2 ‹_›
  rw [List.count_flatMap, List.map_congr_left fun k _ => hcount k, sum_single hkeys]
  split
  · rfl
  · rename_i hout
    exact (List.count_eq_zero_of_not_mem fun hx => hout (hcover x hx)).symm

/-- What some of the things come to under a key. -/
theorem tally_posted (key : α → Option κ) (amount : α → M) (l : List α) (k : κ) :
    tally (l.filterMap fun x => (key x).map fun k => (k, amount x)) k =
      ((l.filter (key · = some k)).map amount).sum := by
  induction l with
  | nil => rfl
  | cons x l ih =>
    rw [List.filterMap_cons, List.filter_cons]
    cases hx : key x with
    | none => simpa [hx] using ih
    | some k' =>
      by_cases hk : k' = k
      · simp [hk, tally_cons, ih]
      · simp [hk, tally_cons, ih]

/-- Amounts of things without a key are nothing, so the sums key by key are the sum of all. -/
theorem sum_by_key {keys : List κ} (hkeys : keys.Nodup) (key : α → Option κ) {amount : α → M}
    {l : List α} (hcover : ∀ x ∈ l, ∀ k, key x = some k → k ∈ keys)
    (hnone : ∀ x ∈ l, key x = none → amount x = 0) :
    (l.map amount).sum =
      (keys.map fun k => ((l.filter (key · = some k)).map amount).sum).sum := by
  have hall : (l.map amount).sum =
      ((l.filterMap fun x => (key x).map fun k => (k, amount x)).map Prod.snd).sum := by
    clear hcover
    induction l with
    | nil => rfl
    | cons x l ih =>
      obtain ⟨hx, hrest⟩ := List.forall_mem_cons.mp hnone
      rw [List.map_cons, List.sum_cons, ih hrest, List.filterMap_cons]
      cases hk : key x with
      | none => simp [hx hk]
      | some k => simp
  rw [hall, ← sum_tally hkeys]
  · apply congrArg
    apply List.map_congr_left
    intro k _
    exact tally_posted key amount l k
  · intro p hp
    obtain ⟨x, hx, hpair⟩ := List.mem_filterMap.mp hp
    obtain ⟨k, hk, rfl⟩ := Option.map_eq_some_iff.mp hpair
    exact hcover x hx k hk

theorem tally_rename {κ' : Type*} [DecidableEq κ'] (f : κ → κ') {k : κ}
    (hf : ∀ p ∈ pairs, f p.1 = f k → p.1 = k) :
    tally (pairs.map fun p => (f p.1, p.2)) (f k) = tally pairs k := by
  unfold tally
  rw [List.filter_map, List.map_map]
  refine congrArg (fun l : List (κ × M) => (l.map Prod.snd).sum) (List.filter_congr fun p hp => ?_)
  rw [Function.comp_apply, decide_eq_decide]
  exact ⟨hf p hp, fun h => congrArg f h⟩

omit [AddCommMonoid M] in
theorem first_keys_rename {κ' : Type*} [DecidableEq κ'] (f : κ → κ')
    (hf : ∀ p ∈ pairs, ∀ q ∈ pairs, f p.1 = f q.1 → p.1 = q.1) :
    firstKeys (pairs.map fun p => (f p.1, p.2)) = (firstKeys pairs).map f := by
  induction pairs with
  | nil => rfl
  | cons p pairs ih =>
    have hrest := ih fun q hq q' hq' =>
      hf q (List.mem_cons_of_mem p hq) q' (List.mem_cons_of_mem p hq')
    rw [List.map_cons, firstKeys, hrest, firstKeys, List.map_cons, List.filter_map]
    refine congrArg (fun l : List κ => f p.1 :: l.map f) (List.filter_congr fun k hk => ?_)
    obtain ⟨q, hq, rfl⟩ := mem_first_keys.mp hk
    rw [Function.comp_apply, decide_eq_decide, not_iff_not]
    exact ⟨hf q (List.mem_cons_of_mem p hq) p List.mem_cons_self, fun h => congrArg f h⟩

/-- Groups that are renamed one by one. -/
theorem grouped_rename {κ' : Type*} [DecidableEq κ'] (f : κ → κ')
    (hf : ∀ p ∈ pairs, ∀ q ∈ pairs, f p.1 = f q.1 → p.1 = q.1) :
    grouped (pairs.map fun p => (f p.1, p.2)) = (grouped pairs).map fun g => (f g.1, g.2) := by
  rw [grouped_eq, grouped_eq, first_keys_rename f hf, List.map_map, List.map_map]
  refine List.map_congr_left fun k hk => ?_
  obtain ⟨q, hq, rfl⟩ := mem_first_keys.mp hk
  rw [Function.comp_apply, Function.comp_apply, tally_rename f fun p hp h => hf p hp q hq h]

/-- What is posted along one line of a grid of keys. -/
theorem sum_along {ι γ : Type*} [DecidableEq ι] [DecidableEq γ] {keys : List ι}
    (hkeys : keys.Nodup) (f : κ → ι) (g : κ → γ) (cell : ι → κ) (c : γ)
    (hcell : ∀ k i, k = cell i ↔ f k = i ∧ g k = c) (hcover : ∀ p ∈ pairs, f p.1 ∈ keys) :
    (keys.map fun i => tally pairs (cell i)).sum = tally (pairs.map fun p => (g p.1, p.2)) c := by
  induction pairs with
  | nil => exact List.sum_eq_zero (by simp)
  | cons p pairs ih =>
    obtain ⟨hfirst, hrest⟩ := List.forall_mem_cons.mp hcover
    have hsplit : (keys.map fun i => tally (p :: pairs) (cell i)) = keys.map fun i =>
        (if f p.1 = i then (if g p.1 = c then p.2 else 0) else 0) + tally pairs (cell i) := by
      refine List.map_congr_left fun i _ => ?_
      rw [tally_cons, ← ite_and]
      simp only [hcell]
    rw [hsplit, List.sum_map_add, sum_single hkeys, if_pos hfirst, ih hrest, List.map_cons,
      tally_cons]

theorem grouped_sum (pairs : List (κ × M)) :
    ((grouped pairs).map Prod.snd).sum = (pairs.map Prod.snd).sum := by
  rw [grouped_eq, List.map_map, ← sum_tally (first_keys_nodup pairs)
    fun p hp => mem_first_keys.mpr ⟨p, hp, rfl⟩]
  rfl

end Caflow.Tally
