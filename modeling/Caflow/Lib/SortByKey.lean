import Mathlib

namespace Caflow.SortByKey

variable {α κ : Type*} [LinearOrder κ] {key : α → κ} {l l' : List α}

theorem sorted_pairwise (l : List α) :
    (l.insertionSort fun a b => key a ≤ key b).Pairwise fun a b => key a ≤ key b := by
  have htotal : Std.Total fun a b : α => key a ≤ key b := ⟨fun a b => le_total _ _⟩
  have htrans : IsTrans α fun a b => key a ≤ key b := ⟨fun _ _ _ => le_trans⟩
  exact List.pairwise_insertionSort _ l

/-- The keys of the same rows come out in the same order, whatever order the rows came in. -/
theorem sorted_keys (h : l.Perm l') :
    (l.insertionSort fun a b => key a ≤ key b).map key =
      (l'.insertionSort fun a b => key a ≤ key b).map key := by
  refine List.Perm.eq_of_pairwise (fun a b _ _ (h : a ≤ b) => le_antisymm h) ?_ ?_ ?_
  · exact List.pairwise_map.mpr (sorted_pairwise l)
  · exact List.pairwise_map.mpr (sorted_pairwise l')
  · exact ((List.perm_insertionSort _ l).trans
      (h.trans (List.perm_insertionSort _ l').symm)).map key

/-- The same values are sorted the same way, whatever order they came in. -/
theorem sorted_perm {xs ys : List κ} (h : xs.Perm ys) :
    xs.insertionSort (· ≤ ·) = ys.insertionSort (· ≤ ·) := by
  simpa using @sorted_keys κ κ _ id xs ys h

omit [LinearOrder κ] in
/-- The same rows with the same keys in the same places are one list where no key is tied. -/
theorem eq_of_keys (h : l.Perm l') (hkeys : l.map key = l'.map key)
    (hnodup : (l.map key).Nodup) : l = l' := by
  induction l generalizing l' with
  | nil => exact h.nil_eq
  | cons a l ih =>
    cases l' with
    | nil => simp at h
    | cons b l' =>
      obtain ⟨hfirst, hrest⟩ := List.cons.inj hkeys
      have ha : a ∈ b :: l' := h.subset List.mem_cons_self
      have hsame : a = b := by
        refine List.inj_on_of_nodup_map (hkeys ▸ hnodup) ha List.mem_cons_self hfirst
      subst hsame
      rw [ih ((List.perm_cons a).mp h) hrest (List.nodup_cons.mp hnodup).2]

/-- Rows with no key tied come out as one list, whatever order they came in. -/
theorem sorted_eq (h : l.Perm l') (hnodup : (l.map key).Nodup) :
    (l.insertionSort fun a b => key a ≤ key b) = l'.insertionSort fun a b => key a ≤ key b := by
  have hperm : ∀ l : List α, (l.insertionSort fun a b => key a ≤ key b).Perm l :=
    fun l => List.perm_insertionSort _ l
  refine eq_of_keys ((hperm l).trans (h.trans (hperm l').symm)) (sorted_keys h) ?_
  exact (((hperm l).map key).nodup_iff).mpr hnodup

theorem filter_inserted (p : α → Bool) {a : α} (h : l.Pairwise fun a b => key a ≤ key b) :
    (l.orderedInsert (fun a b => key a ≤ key b) a).filter p =
      if p a then (l.filter p).orderedInsert (fun a b => key a ≤ key b) a else l.filter p := by
  induction l with
  | nil => by_cases ha : p a <;> simp [ha]
  | cons b l ih =>
    obtain ⟨hfirst, hrest⟩ := List.pairwise_cons.mp h
    rw [List.orderedInsert_cons]
    split_ifs with hab ha ha
    · rw [List.filter_cons_of_pos ha]
      cases hkept : (b :: l).filter p with
      | nil => rfl
      | cons c kept =>
        have hc : c ∈ b :: l := List.mem_of_mem_filter (hkept ▸ List.mem_cons_self)
        have hac : key a ≤ key c := by
          rcases List.mem_cons.mp hc with rfl | hc
          · exact hab
          · exact hab.trans (hfirst c hc)
        rw [List.orderedInsert_cons, if_pos hac]
    · rw [List.filter_cons_of_neg ha]
    · by_cases hb : p b
      · rw [List.filter_cons_of_pos hb, List.filter_cons_of_pos hb, ih hrest, if_pos ha,
          List.orderedInsert_cons, if_neg hab]
      · rw [List.filter_cons_of_neg hb, List.filter_cons_of_neg hb, ih hrest, if_pos ha]
    · by_cases hb : p b
      · rw [List.filter_cons_of_pos hb, List.filter_cons_of_pos hb, ih hrest, if_neg ha]
      · rw [List.filter_cons_of_neg hb, List.filter_cons_of_neg hb, ih hrest, if_neg ha]

/-- Some of the rows sorted are the sorted rows, as far as they are among them. -/
theorem sorted_filter (p : α → Bool) (l : List α) :
    (l.filter p).insertionSort (fun a b => key a ≤ key b) =
      (l.insertionSort fun a b => key a ≤ key b).filter p := by
  induction l with
  | nil => rfl
  | cons a l ih =>
    rw [List.insertionSort_cons, filter_inserted p (sorted_pairwise l), ← ih]
    by_cases ha : p a
    · rw [List.filter_cons_of_pos ha, if_pos ha, List.insertionSort_cons]
    · rw [List.filter_cons_of_neg ha, if_neg ha]

/-- In order of the key, what all comes before something else can be cut off in front of it. -/
theorem filter_or (h : l.Pairwise fun a b => key a ≤ key b) {p q : α → Bool}
    (hpq : ∀ a b, p a → q b → key a < key b) :
    l.filter (fun a => p a || q a) = l.filter p ++ l.filter q := by
  induction l with
  | nil => rfl
  | cons a l ih =>
    obtain ⟨hfirst, hrest⟩ := List.pairwise_cons.mp h
    by_cases hp : p a
    · have hq : ¬ q a := fun hq => (hpq a a hp hq).false
      rw [List.filter_cons_of_pos (by simp [hp]), List.filter_cons_of_pos hp,
        List.filter_cons_of_neg hq, ih hrest, List.cons_append]
    · by_cases hq : q a
      · have hnone : l.filter p = [] := List.filter_eq_nil_iff.mpr fun b hb hpb =>
          absurd (hfirst b hb) (hpq b a hpb hq).not_ge
        rw [List.filter_cons_of_pos (by simp [hq]), List.filter_cons_of_neg hp,
          List.filter_cons_of_pos hq, ih hrest, hnone, List.nil_append, List.nil_append]
      · rw [List.filter_cons_of_neg (by simp [hp, hq]), List.filter_cons_of_neg hp,
          List.filter_cons_of_neg hq, ih hrest]

/-- What is found first has the least key of all that could have been found. -/
theorem found_least {p : α → Bool}
    (h : (l.insertionSort fun a b => key a ≤ key b).find? p = some a) :
    a ∈ l ∧ p a ∧ ∀ b ∈ l, p b → key a ≤ key b := by
  have hmem : ∀ b, b ∈ (l.insertionSort fun a b => key a ≤ key b) ↔ b ∈ l :=
    fun b => (List.perm_insertionSort _ l).mem_iff
  have hsorted : (l.insertionSort fun a b => key a ≤ key b).Pairwise fun a b => key a ≤ key b :=
    sorted_pairwise l
  obtain ⟨ha, before, after, he, hbefore⟩ := List.find?_eq_some_iff_append.mp h
  refine ⟨(hmem a).mp (List.mem_of_find?_eq_some h), ha, fun b hb hpb => ?_⟩
  rw [he] at hsorted
  rw [← hmem b, he, List.mem_append, List.mem_cons] at hb
  rcases hb with hb | rfl | hb
  · simpa [hpb] using hbefore b hb
  · exact le_rfl
  · exact (List.pairwise_cons.mp (List.pairwise_append.mp hsorted).2.1).1 b hb

end Caflow.SortByKey
