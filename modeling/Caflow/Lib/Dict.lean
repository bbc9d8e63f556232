import Caflow.Lib.Tally

namespace Caflow.Dict
open Tally

section
variable {κ β : Type*} [DecidableEq κ]

/-- The value a dictionary has for a key. -/
def get : List (κ × β) → κ → Option β
  | [], _ => none
  | p :: d, k => if p.1 = k then some p.2 else get d k

/-- A key keeps the place of its first value and takes its last one. -/
def set (k : κ) (v : β) : List (κ × β) → List (κ × β)
  | [] => [(k, v)]
  | p :: d => if p.1 = k then (k, v) :: d else p :: set k v d

/-- A dictionary has each key once. -/
def Keyed (d : List (κ × β)) : Prop := (d.map Prod.fst).Nodup

def fromPairs (pairs : List (κ × β)) : List (κ × β) :=
  pairs.foldl (fun d p => set p.1 p.2 d) []

variable {d : List (κ × β)} {k k' : κ} {v : β}

theorem get_none : get d k = none ↔ k ∉ d.map Prod.fst := by
  induction d with
  | nil => simp [get]
  | cons p d ih =>
    rw [get, List.map_cons, List.mem_cons]
    by_cases hp : p.1 = k
    · simp [hp]
    · rw [if_neg hp, ih, not_or]
      exact (and_iff_right (Ne.symm hp)).symm

theorem get_some (h : Keyed d) : get d k = some v ↔ (k, v) ∈ d := by
  induction d with
  | nil => simp [get]
  | cons p d ih =>
    obtain ⟨hfirst, hrest⟩ := List.nodup_cons.mp h
    rw [get, List.mem_cons]
    by_cases hp : p.1 = k
    · subst hp
      have hnot : (p.1, v) ∉ d := fun hmem =>
        hfirst (List.mem_map.mpr ⟨_, hmem, rfl⟩)
      rw [if_pos rfl, or_iff_left hnot, Option.some.injEq]
      exact ⟨fun hv => by rw [← hv], fun hpair => (congrArg Prod.snd hpair).symm⟩
    · rw [if_neg hp, ih hrest, or_iff_right]
      exact fun hpair => hp (congrArg Prod.fst hpair).symm

theorem mem_of_get (h : get d k = some v) : (k, v) ∈ d := by
  induction d with
  | nil => cases h
  | cons p d ih =>
    rw [get] at h
    split at h
    · rename_i hp
      subst hp
      cases h
      exact List.mem_cons_self
    · exact List.mem_cons_of_mem p (ih h)

theorem get_append (d e : List (κ × β)) (k : κ) : get (d ++ e) k = (get d k).or (get e k) := by
  induction d with
  | nil => rfl
  | cons p d ih =>
    rw [List.cons_append, get, get, ih]
    split <;> rfl

/-- The first of the items kept that has a key is what the dictionary has for it. -/
theorem get_filter_map {α : Type*} (p : α → Bool) (f : α → κ) (g : α → β) (l : List α) (k : κ) :
    get ((l.filter p).map fun a => (f a, g a)) k =
      (l.find? fun a => p a && decide (f a = k)).map g := by
  induction l with
  | nil => rfl
  | cons a l ih =>
    rw [List.filter_cons, List.find?_cons]
    by_cases hp : p a
    · rw [if_pos hp, List.map_cons, get, ih]
      by_cases hk : f a = k
      · simp [hp, hk]
      · simp [hk]
    · rw [if_neg hp, ih]
      simp [hp]

/-- A dictionary answers the same, whatever order its entries come in. -/
theorem get_perm {e : List (κ × β)} (h : Keyed d) (hp : d.Perm e) (k : κ) : get d k = get e k := by
  have hkeys : Keyed e := ((hp.map Prod.fst).nodup_iff).mp h
  refine Option.ext fun v => ?_
  rw [get_some h, get_some hkeys, hp.mem_iff]

@[simp] theorem get_set_self (k : κ) (v : β) (d : List (κ × β)) : get (set k v d) k = some v := by
  induction d with
  | nil => simp [set, get]
  | cons p d ih =>
    rw [set]
    split
    · simp [get]
    · rename_i hp
      rw [get, if_neg hp, ih]

theorem get_set_other (v : β) (d : List (κ × β)) (h : k ≠ k') : get (set k v d) k' = get d k' := by
  induction d with
  | nil => simp [set, get, h]
  | cons p d ih =>
    rw [set]
    split
    · rename_i hp
      subst hp
      simp [get, h]
    · rw [get, get, ih]

theorem mem_set_keys {x : κ} : x ∈ (set k v d).map Prod.fst ↔ x = k ∨ x ∈ d.map Prod.fst := by
  by_cases hx : x = k
  · subst hx
    refine iff_of_true ?_ (.inl rfl)
    by_contra hnot
    rw [← get_none, get_set_self] at hnot
    cases hnot
  · rw [or_iff_right hx, ← not_iff_not, ← get_none, ← get_none, get_set_other v d (Ne.symm hx)]

theorem Keyed.set (h : Keyed d) (k : κ) (v : β) : Keyed (set k v d) := by
  induction d with
  | nil => exact List.nodup_singleton k
  | cons p d ih =>
    obtain ⟨hfirst, hrest⟩ := List.nodup_cons.mp h
    rw [Dict.set]
    split
    · rename_i hp
      subst hp
      exact List.nodup_cons.mpr ⟨hfirst, hrest⟩
    · rename_i hp
      refine List.nodup_cons.mpr ⟨?_, ih hrest⟩
      rw [mem_set_keys, not_or]
      exact ⟨hp, hfirst⟩

theorem keyed_from (pairs : List (κ × β)) (h : Keyed d) :
    Keyed (pairs.foldl (fun d p => Dict.set p.1 p.2 d) d) := by
  induction pairs generalizing d with
  | nil => exact h
  | cons p pairs ih => exact ih (h.set _ _)

theorem keyed_from_pairs (pairs : List (κ × β)) : Keyed (fromPairs pairs) :=
  keyed_from pairs List.nodup_nil

theorem mem_set {x : κ × β} (h : x ∈ set k v d) : x = (k, v) ∨ x ∈ d := by
  induction d with
  | nil => exact .inl (List.mem_singleton.mp h)
  | cons p d ih =>
    rw [set] at h
    by_cases hp : p.1 = k
    · rw [if_pos hp] at h
      exact (List.mem_cons.mp h).imp_right (List.mem_cons_of_mem _)
    · rw [if_neg hp] at h
      rcases List.mem_cons.mp h with rfl | h
      · exact .inr List.mem_cons_self
      · exact (ih h).imp_right (List.mem_cons_of_mem _)

theorem mem_from_pairs {pairs : List (κ × β)} {x : κ × β} (h : x ∈ fromPairs pairs) :
    x ∈ pairs := by
  induction pairs using List.reverseRecOn with
  | nil => exact h
  | append_singleton pairs p ih =>
    rw [fromPairs, List.foldl_append] at h
    rcases mem_set h with rfl | h
    · exact List.mem_append_right _ List.mem_cons_self
    · exact List.mem_append_left _ (ih h)

theorem set_new (v : β) (h : k ∉ d.map Prod.fst) : set k v d = d ++ [(k, v)] := by
  induction d with
  | nil => rfl
  | cons p d ih =>
    rw [List.map_cons, List.mem_cons, not_or] at h
    rw [set, if_neg (Ne.symm h.1), ih h.2, List.cons_append]

/-- Pairs with every key once are a dictionary as they stand. -/
theorem from_pairs_keyed {pairs : List (κ × β)} (h : Keyed pairs) : fromPairs pairs = pairs := by
  induction pairs using List.reverseRecOn with
  | nil => rfl
  | append_singleton pairs p ih =>
    rw [Keyed, List.map_append, List.nodup_append] at h
    have hnew : p.1 ∉ pairs.map Prod.fst := fun hp =>
      h.2.2 p.1 hp p.1 (List.mem_singleton.mpr rfl) rfl
    rw [fromPairs, List.foldl_append, ← fromPairs, ih h.1]
    exact set_new p.2 hnew

/-- The last value a list of pairs gives a key. -/
def last : List (κ × β) → κ → Option β
  | [], _ => none
  | p :: pairs, k => (last pairs k).or (if p.1 = k then some p.2 else none)

theorem last_none {pairs : List (κ × β)} : last pairs k = none ↔ k ∉ pairs.map Prod.fst := by
  induction pairs with
  | nil => simp [last]
  | cons p pairs ih =>
    rw [last, Option.or_eq_none_iff, ih, List.map_cons, List.mem_cons, not_or, and_comm]
    by_cases hp : p.1 = k
    · simp [hp]
    · simp [hp, Ne.symm hp]

theorem get_from_pairs (pairs : List (κ × β)) (k : κ) :
    get (fromPairs pairs) k = last pairs k := by
  have hfold : ∀ d : List (κ × β),
      get (pairs.foldl (fun d p => set p.1 p.2 d) d) k = (last pairs k).or (get d k) := by
    induction pairs with
    | nil => exact fun d => rfl
    | cons p pairs ih =>
      intro d
      rw [List.foldl_cons, ih, last, Option.or_assoc]
      by_cases hp : p.1 = k
      · simp [hp]
      · simp [get_set_other _ _ hp, hp]
  exact (hfold []).trans (Option.or_none)

theorem last_append (pairs later : List (κ × β)) (k : κ) :
    last (pairs ++ later) k = (last later k).or (last pairs k) := by
  induction pairs with
  | nil => simp [last]
  | cons p pairs ih => rw [List.cons_append, last, ih, last, Option.or_assoc]

/-- Where the pairs come in groups, the last value is the last one of some group. -/
theorem last_of_group {ι : Type*} {groups : List ι} {f : ι → List (κ × β)}
    (h : last (groups.flatMap f) k = some v) : ∃ g ∈ groups, last (f g) k = some v := by
  induction groups with
  | nil => simp [last] at h
  | cons g groups ih =>
    rw [List.flatMap_cons, last_append] at h
    cases hrest : last (groups.flatMap f) k with
    | none =>
      rw [hrest, Option.none_or] at h
      exact ⟨g, List.mem_cons_self, h⟩
    | some w =>
      rw [hrest, Option.some_or] at h
      obtain ⟨g', hg', hlast⟩ := ih (hrest.trans h)
      exact ⟨g', List.mem_cons_of_mem _ hg', hlast⟩

/-- The pairs a later one with the same key takes the place of. -/
def superseded : List (κ × β) → List (κ × β)
  | [] => []
  | p :: pairs => if p.1 ∈ pairs.map Prod.fst then p :: superseded pairs else superseded pairs

/-- A sum over a dictionary is one over any keys that cover it. -/
theorem sum_keys {M : Type*} [AddCommMonoid M] {keys : List κ} (hkeys : keys.Nodup) (h : Keyed d)
    (hcover : ∀ p ∈ d, p.1 ∈ keys) (f : β → M) :
    (d.map fun p => f p.2).sum = (keys.map fun k => (get d k).elim 0 f).sum := by
  induction d with
  | nil => simp [get]
  | cons p d ih =>
    obtain ⟨hfirst, hrest⟩ := List.nodup_cons.mp h
    obtain ⟨hp, hcover'⟩ := List.forall_mem_cons.mp hcover
    have hsplit : ∀ k, (get (p :: d) k).elim 0 f =
        (if p.1 = k then f p.2 else 0) + (get d k).elim 0 f := by
      intro k
      rw [get]
      split
      · rename_i hk
        subst hk
        rw [get_none.mpr hfirst]
        exact (add_zero _).symm
      · exact (zero_add _).symm
    rw [List.map_cons, List.sum_cons, ih hrest hcover', List.map_congr_left fun k _ => hsplit k,
      List.sum_map_add, sum_single hkeys, if_pos hp]

theorem sum_last {M : Type*} [AddCommMonoid M] {keys : List κ} (hkeys : keys.Nodup)
    {pairs : List (κ × β)} (hcover : ∀ p ∈ pairs, p.1 ∈ keys) (f : β → M) :
    (pairs.map fun p => f p.2).sum =
      ((superseded pairs).map fun p => f p.2).sum +
        (keys.map fun k => (last pairs k).elim 0 f).sum := by
  induction pairs with
  | nil => simp [superseded, last]
  | cons p pairs ih =>
    obtain ⟨hp, hcover'⟩ := List.forall_mem_cons.mp hcover
    rw [List.map_cons, List.sum_cons, ih hcover', superseded]
    by_cases hlater : p.1 ∈ pairs.map Prod.fst
    · have hsame : ∀ k, last (p :: pairs) k = last pairs k := by
        intro k
        rw [last]
        by_cases hk : p.1 = k
        · subst hk
          obtain ⟨v, hv⟩ := Option.ne_none_iff_exists'.mp fun h => last_none.mp h hlater
          rw [hv, Option.some_or]
        · rw [if_neg hk, Option.or_none]
      simp only [if_pos hlater, List.map_cons, List.sum_cons, hsame, add_assoc]
    · have hsplit : ∀ k, (last (p :: pairs) k).elim 0 f =
          (if p.1 = k then f p.2 else 0) + (last pairs k).elim 0 f := by
        intro k
        rw [last]
        by_cases hk : p.1 = k
        · subst hk
          rw [last_none.mpr hlater, if_pos rfl, if_pos rfl]
          exact (add_zero _).symm
        · rw [if_neg hk, if_neg hk, Option.or_none, zero_add]
      rw [if_neg hlater, List.map_congr_left fun k _ => hsplit k, List.sum_map_add,
        sum_single hkeys, if_pos hp]
      exact add_left_comm _ _ _

/-- The pairs come to what the dictionary made of them holds and what was superseded. -/
theorem sum_from_pairs {M : Type*} [AddCommMonoid M] (pairs : List (κ × β)) (f : β → M) :
    (pairs.map fun p => f p.2).sum =
      ((superseded pairs).map fun p => f p.2).sum + ((fromPairs pairs).map fun p => f p.2).sum := by
  have hkeys : (pairs.map Prod.fst).dedup.Nodup := List.nodup_dedup _
  have hmem : ∀ p ∈ pairs, p.1 ∈ (pairs.map Prod.fst).dedup := fun p hp =>
    List.mem_dedup.mpr (List.mem_map_of_mem hp)
  rw [sum_last hkeys hmem, sum_keys hkeys (keyed_from_pairs pairs) fun p hp =>
    hmem p (mem_from_pairs hp)]
  simp only [get_from_pairs]

/-- A value that joins a dictionary takes the place of the one that was there. -/
theorem sum_set {M : Type*} [AddCommMonoid M] (k : κ) (v : β) (d : List (κ × β)) (f : β → M) :
    ((set k v d).map fun p => f p.2).sum + (get d k).elim 0 f =
      (d.map fun p => f p.2).sum + f v := by
  induction d with
  | nil => simp [set, get]
  | cons p d ih =>
    rw [set, get]
    by_cases hp : p.1 = k
    · simp only [if_pos hp, List.map_cons, List.sum_cons, Option.elim]
      exact (add_comm _ _).trans ((add_left_comm _ _ _).trans (by rw [add_comm (f v), add_assoc]))
    · simp only [if_neg hp, List.map_cons, List.sum_cons, add_assoc, ih]

theorem get_grouped {M : Type*} [AddCommMonoid M] (pairs : List (κ × M)) (k : κ) :
    (get (grouped pairs) k).getD 0 = tally pairs k := by
  have hkeyed : Keyed (grouped pairs) := by
    unfold Keyed
    rw [grouped_keys]
    exact first_keys_nodup pairs
  by_cases hk : k ∈ firstKeys pairs
  · have hmem : (k, tally pairs k) ∈ grouped pairs := by
      rw [grouped_eq]
      exact List.mem_map_of_mem hk
    rw [(get_some hkeyed).mpr hmem]
    rfl
  · have hnone : get (grouped pairs) k = none := by
      rw [get_none, grouped_keys]
      exact hk
    rw [hnone]
    exact (not_not.mp (mt mem_of_tally hk)).symm

theorem get_pairs {α : Type*} (key : α → κ) (l : List α) (k : κ) :
    get (l.map fun a => (key a, a)) k = l.find? fun a => key a = k := by
  induction l with
  | nil => rfl
  | cons a l ih =>
    rw [List.map_cons, get, List.find?_cons, ih]
    by_cases ha : key a = k <;> simp [ha]

theorem filter_key {α : Type*} {key : α → κ} {l : List α}
    (h : (l.map key).Nodup) (k : κ) : (l.filter fun a => key a = k) = (l.find? fun a => key a = k).toList := by
  induction l with
  | nil => rfl
  | cons a l ih =>
    obtain ⟨hfirst, hrest⟩ := List.nodup_cons.mp h
    by_cases ha : key a = k
    · have hnone : l.filter (fun b => key b = k) = [] := by
        rw [List.filter_eq_nil_iff]
        intro b hb hkey
        refine hfirst (List.mem_map.mpr ⟨b, hb, ?_⟩)
        rw [ha]
        exact of_decide_eq_true hkey
      have hpos : decide (key a = k) = true := decide_eq_true ha
      rw [List.filter_cons, if_pos hpos, hnone, List.find?_cons, hpos]
      rfl
    · have hneg : decide (key a = k) = false := decide_eq_false ha
      rw [List.filter_cons, hneg, if_neg Bool.false_ne_true, List.find?_cons, hneg, ih hrest]

theorem found_reordered {α : Type*} {key : α → κ} {l l' : List α}
    (h : l'.Perm l) (hkeys : (l.map key).Nodup) (k : κ) :
    (l'.find? fun a => key a = k) = l.find? fun a => key a = k := by
  have hperm := h.filter fun a => key a = k
  rw [filter_key ((h.map key).nodup_iff.mpr hkeys), filter_key hkeys] at hperm
  cases hl : l.find? fun a => key a = k with
  | none =>
    rw [hl] at hperm
    exact Option.toList_eq_nil_iff.mp hperm.eq_nil
  | some a =>
    rw [hl] at hperm
    exact Option.toList_eq_singleton_iff.mp (List.perm_singleton.mp hperm)

end

section
variable {κ : Type*} [DecidableEq κ] {keys : List κ}

/-- Each key once, in the order they come up. -/
def fromKeys (keys : List κ) : List κ := firstKeys (keys.map fun k => (k, ()))

@[simp] theorem mem_from_keys {k : κ} : k ∈ fromKeys keys ↔ k ∈ keys := by
  simp [fromKeys]

theorem from_keys_nodup (keys : List κ) : (fromKeys keys).Nodup := first_keys_nodup _

@[simp] theorem from_keys_nil : fromKeys keys = [] ↔ keys = [] := by
  simp only [List.eq_nil_iff_forall_not_mem, mem_from_keys]

/-- One key is left where all there are is that key. -/
theorem from_keys_single {k : κ} : fromKeys keys = [k] ↔ keys ≠ [] ∧ ∀ x ∈ keys, x = k := by
  constructor
  · intro h
    refine ⟨fun hnil => ?_, fun x hx => ?_⟩
    · rw [from_keys_nil.mpr hnil] at h
      cases h
    · have hmem : x ∈ fromKeys keys := mem_from_keys.mpr hx
      rw [h] at hmem
      exact List.mem_singleton.mp hmem
  · rintro ⟨hne, hall⟩
    obtain ⟨x, hx⟩ := List.exists_mem_of_ne_nil keys hne
    have hk : k ∈ fromKeys keys := mem_from_keys.mpr (hall x hx ▸ hx)
    refine List.perm_singleton.mp ((List.perm_ext_iff_of_nodup (from_keys_nodup keys)
      (List.nodup_singleton k)).mpr fun y => ?_)
    rw [List.mem_singleton]
    exact ⟨fun hy => hall y (mem_from_keys.mp hy), fun hy => hy ▸ hk⟩

end

section
variable {κ β γ : Type*} [DecidableEq κ] {d : List (κ × β)} {e : List (κ × γ)}

/-- The keys two dictionaries share, with both values. -/
def common (d : List (κ × β)) (e : List (κ × γ)) : List (κ × β × γ) :=
  d.filterMap fun p => (get e p.1).map fun v => (p.1, p.2, v)

/-- The entries whose key another dictionary does not have. -/
def without (d : List (κ × β)) (e : List (κ × γ)) : List (κ × β) :=
  d.filter fun p => (get e p.1).isNone

theorem sum_without_common {M : Type*} [AddCommMonoid M] (d : List (κ × β)) (e : List (κ × γ))
    (f : β → M) :
    (d.map fun p => f p.2).sum =
      ((without d e).map fun p => f p.2).sum + ((common d e).map fun t => f t.2.1).sum := by
  induction d with
  | nil => simp [without, common]
  | cons p d ih =>
    rw [without, common, List.filterMap_cons, List.filter_cons, List.map_cons, List.sum_cons, ih]
    cases hp : get e p.1 with
    | none => simp [without, common, add_assoc]
    | some w => simp [without, common, add_left_comm]

theorem mem_common (hd : Keyed d) :
    (k, v, w) ∈ common d e ↔ get d k = some v ∧ get e k = some w := by
  rw [common, List.mem_filterMap, get_some hd]
  constructor
  · rintro ⟨⟨k', v'⟩, hp, hpair⟩
    obtain ⟨w', hw, heq⟩ := Option.map_eq_some_iff.mp hpair
    cases heq
    exact ⟨hp, hw⟩
  · rintro ⟨hp, hw⟩
    exact ⟨(k, v), hp, by rw [hw]; rfl⟩

theorem common_keyed (hd : Keyed d) : ((common d e).map Prod.fst).Nodup := by
  have hsub : ((common d e).map Prod.fst).Sublist (d.map Prod.fst) := by
    rw [common, List.map_filterMap]
    have heq : ∀ p : κ × β, ((get e p.1).map fun v => (p.1, p.2, v)).map Prod.fst =
        if (get e p.1).isSome then some p.1 else none := by
      intro p
      cases get e p.1 <;> rfl
    simp only [heq]
    induction d with
    | nil => exact .slnil
    | cons p d ih =>
      have hrest := ih (List.nodup_cons.mp hd).2
      rw [List.filterMap_cons, List.map_cons]
      split
      · exact hrest.cons _
      · rename_i hsome
        split at hsome
        · cases hsome
          exact hrest.cons_cons _
        · cases hsome
  exact hsub.nodup hd

/-- What two dictionaries share does not depend on which is read first. -/
theorem common_swap (hd : Keyed d) (he : Keyed e) :
    (common e d).Perm ((common d e).map fun t => (t.1, t.2.2, t.2.1)) := by
  have hleft : (common e d).Nodup := (common_keyed he).of_map
  have hright : ((common d e).map fun t => (t.1, t.2.2, t.2.1)).Nodup := by
    apply List.Nodup.of_map Prod.fst
    rw [List.map_map]
    exact common_keyed hd
  rw [List.perm_ext_iff_of_nodup hleft hright]
  rintro ⟨k, w, v⟩
  rw [mem_common he, List.mem_map]
  constructor
  · rintro ⟨hw, hv⟩
    exact ⟨(k, v, w), (mem_common hd).mpr ⟨hv, hw⟩, rfl⟩
  · rintro ⟨⟨k', v', w'⟩, ht, heq⟩
    cases heq
    exact ((mem_common hd).mp ht).symm

end

end Caflow.Dict
