import Mathlib

namespace Caflow.Occurrences

variable {α κ γ : Type*} [DecidableEq κ] {key : α → κ} {before l : List α} {k : κ} {n : ℕ}

/-- How many of some rows have a key. -/
def count (key : α → κ) (k : κ) (l : List α) : ℕ := l.countP (key · = k)

/-- Each row under its key and the number of rows of that key before it. -/
def taggedFrom (key : α → κ) (before : List α) : List α → List ((κ × ℕ) × α)
  | [] => []
  | a :: l => ((key a, count key (key a) before), a) :: taggedFrom key (before ++ [a]) l

def tagged (key : α → κ) (l : List α) : List ((κ × ℕ) × α) := taggedFrom key [] l

theorem count_concat (key : α → κ) (k : κ) (l : List α) (a : α) :
    count key k (l ++ [a]) = count key k l + if key a = k then 1 else 0 := by
  unfold count
  rw [List.countP_append, List.countP_singleton]
  simp

@[simp] theorem tagged_rows (key : α → κ) (before l : List α) :
    (taggedFrom key before l).map Prod.snd = l := by
  induction l generalizing before with
  | nil => rfl
  | cons a l ih => rw [taggedFrom, List.map_cons, ih]

theorem tagged_concat (key : α → κ) (l : List α) (a : α) :
    tagged key (l ++ [a]) = tagged key l ++ [((key a, count key (key a) l), a)] := by
  have hfrom : ∀ before : List α, taggedFrom key before (l ++ [a]) =
      taggedFrom key before l ++ [((key a, count key (key a) (before ++ l)), a)] := by
    induction l with
    | nil =>
      intro before
      rw [List.append_nil]
      rfl
    | cons b l ih =>
      intro before
      rw [List.cons_append, taggedFrom, ih, taggedFrom, List.append_assoc]
      rfl
  exact hfrom []

theorem tag_key {t : (κ × ℕ) × α} (h : t ∈ taggedFrom key before l) : t.1.1 = key t.2 := by
  induction l generalizing before with
  | nil => cases h
  | cons a l ih =>
    rcases List.mem_cons.mp h with rfl | h
    · rfl
    · exact ih h

theorem tagged_row {t : (κ × ℕ) × α} (h : t ∈ taggedFrom key before l) : t.2 ∈ l := by
  rw [← tagged_rows key before l]
  exact List.mem_map_of_mem h

/-- The numbers under a key go on from the rows before. -/
theorem mem_tags : (k, n) ∈ (taggedFrom key before l).map Prod.fst ↔
    count key k before ≤ n ∧ n < count key k (before ++ l) := by
  induction l generalizing before with
  | nil =>
    rw [List.append_nil]
    exact iff_of_false (List.not_mem_nil) fun h => absurd h.2 (not_lt.mpr h.1)
  | cons a l ih =>
    rw [taggedFrom, List.map_cons, List.mem_cons, ih, count_concat, Prod.mk.injEq,
      List.append_assoc, List.singleton_append]
    by_cases hk : key a = k
    · subst hk
      have hmore : count key (key a) before < count key (key a) (before ++ a :: l) := by
        unfold count
        rw [List.countP_append, List.countP_cons_of_pos (by simp)]
        omega
      simp only [true_and, if_true]
      omega
    · simp only [Ne.symm hk, false_and, false_or, if_neg hk, add_zero]

theorem mem_tagged : (k, n) ∈ (tagged key l).map Prod.fst ↔ n < count key k l := by
  rw [tagged, mem_tags]
  exact and_iff_right (Nat.zero_le n)

/-- No two rows have one tag. -/
theorem tags_nodup (key : α → κ) (before l : List α) :
    ((taggedFrom key before l).map Prod.fst).Nodup := by
  induction l generalizing before with
  | nil => exact List.nodup_nil
  | cons a l ih =>
    rw [taggedFrom, List.map_cons, List.nodup_cons]
    refine ⟨fun hmem => ?_, ih _⟩
    have hlater := (mem_tags.mp hmem).1
    rw [count_concat, if_pos rfl] at hlater
    omega

/-- What rows held by their tag become when a file comes in: the rows of the file whose tag is not
held, of those kept, come after. -/
def takeIn (key : α → κ) (kept : α → Bool) (held : List ((κ × ℕ) × α)) (file : List α) :
    List ((κ × ℕ) × α) :=
  held ++ (tagged key file).filter fun t => t.1 ∉ held.map Prod.fst ∧ kept t.2

/-- The most rows of a key that a file has. -/
def most (key : α → κ) (k : κ) (files : List (List α)) : ℕ :=
  files.foldl (fun n file => max n (count key k file)) 0

/-- Rows are held under tags of their own key, once each, and of a key whose rows are all kept there
are as many as some file has. -/
structure Held (key : α → κ) (kept : α → Bool) (files : List (List α)) (held : List ((κ × ℕ) × α)) :
    Prop where
  own : ∀ t ∈ held, t.1.1 = key t.2
  among : ∀ t ∈ held, ∃ file ∈ files, t.2 ∈ file
  once : (held.map Prod.fst).Nodup
  full : ∀ k, (∀ file ∈ files, ∀ a ∈ file, key a = k → kept a) →
    ∀ n, (k, n) ∈ held.map Prod.fst ↔ n < most key k files

variable {kept : α → Bool} {files : List (List α)} {held : List ((κ × ℕ) × α)} {file : List α}

theorem held_nothing (key : α → κ) (kept : α → Bool) : Held key kept [] [] where
  own := fun _ ht => absurd ht List.not_mem_nil
  among := fun _ ht => absurd ht List.not_mem_nil
  once := List.nodup_nil
  full := fun _ _ n => iff_of_false List.not_mem_nil (Nat.not_lt_zero n)

theorem most_concat (key : α → κ) (k : κ) (files : List (List α)) (file : List α) :
    most key k (files ++ [file]) = max (most key k files) (count key k file) := by
  unfold most
  rw [List.foldl_append]
  rfl

theorem most_congr {κ' : Type*} [DecidableEq κ'] {key' : α → κ'} {k' : κ'}
    (h : ∀ file ∈ files, count key k file = count key' k' file) :
    most key k files = most key' k' files := by
  induction files using List.reverseRecOn with
  | nil => rfl
  | append_singleton files file ih =>
    rw [most_concat, most_concat, h file (List.mem_append_right _ List.mem_cons_self),
      ih fun f hf => h f (List.mem_append_left _ hf)]

theorem most_none (h : ∀ file ∈ files, count key k file = 0) : most key k files = 0 := by
  induction files using List.reverseRecOn with
  | nil => rfl
  | append_singleton files file ih =>
    rw [most_concat, h file (List.mem_append_right _ List.mem_cons_self),
      ih fun f hf => h f (List.mem_append_left _ hf), max_self]

theorem Held.take_in (h : Held key kept files held) (file : List α) :
    Held key kept (files ++ [file]) (takeIn key kept held file) where
  own := by
    intro t ht
    rcases List.mem_append.mp ht with hold | hnew
    · exact h.own t hold
    · exact tag_key (List.mem_filter.mp hnew).1
  among := by
    intro t ht
    rcases List.mem_append.mp ht with hold | hnew
    · obtain ⟨f, hf, hrow⟩ := h.among t hold
      exact ⟨f, List.mem_append_left _ hf, hrow⟩
    · exact ⟨file, List.mem_append_right _ List.mem_cons_self,
        tagged_row (List.mem_filter.mp hnew).1⟩
  once := by
    rw [takeIn, List.map_append]
    apply List.Nodup.append h.once
    · exact ((List.filter_sublist).map Prod.fst).nodup (tags_nodup key [] file)
    · intro tag hold hnew
      obtain ⟨t, ht, rfl⟩ := List.mem_map.mp hnew
      exact (of_decide_eq_true (List.mem_filter.mp ht).2).1 hold
  full := by
    intro k hkept n
    have hfile := hkept file (List.mem_append_right _ List.mem_cons_self)
    have hheld := h.full k (fun f hf => hkept f (List.mem_append_left _ hf)) n
    rw [takeIn, List.map_append, List.mem_append, hheld, most_concat, lt_max_iff]
    constructor
    · rintro (hold | hnew)
      · exact .inl hold
      · obtain ⟨t, ht, htag⟩ := List.mem_map.mp hnew
        exact .inr (mem_tagged.mp (List.mem_map.mpr ⟨t, (List.mem_filter.mp ht).1, htag⟩))
    · intro hmem
      by_cases hold : n < most key k files
      · exact .inl hold
      · right
        obtain ⟨t, ht, htag⟩ := List.mem_map.mp (mem_tagged.mpr (hmem.resolve_left hold))
        have hown : key t.2 = k := by
          rw [← tag_key ht, htag]
        have hfresh : t.1 ∉ held.map Prod.fst := by
          rw [htag, hheld]
          exact hold
        refine List.mem_map.mpr ⟨t, List.mem_filter.mpr ⟨ht, ?_⟩, htag⟩
        exact decide_eq_true ⟨hfresh, hfile t.2 (tagged_row ht) hown⟩

/-- Of a key whose rows are all kept, as many are held as the file with the most of them has. -/
theorem Held.copies (h : Held key kept files held)
    (hkept : ∀ file ∈ files, ∀ a ∈ file, key a = k → kept a) :
    count key k (held.map Prod.snd) = most key k files := by
  have hcount : count key k (held.map Prod.snd) =
      ((held.filter fun t => t.1.1 = k).map fun t => t.1.2).length := by
    rw [List.length_map, ← List.countP_eq_length_filter, count, List.countP_map]
    apply List.countP_congr
    intro t ht
    simp [h.own t ht]
  have hnumbers : ((held.filter fun t => t.1.1 = k).map fun t => t.1.2).Nodup := by
    have htags := (List.filter_sublist (p := fun t => t.1.1 = k)).map Prod.fst |>.nodup h.once
    rw [List.nodup_iff_pairwise_ne, List.pairwise_map] at htags ⊢
    refine htags.imp_of_mem fun {t u} ht hu hne heq => hne ?_
    have htk := of_decide_eq_true (List.mem_filter.mp ht).2
    have huk := of_decide_eq_true (List.mem_filter.mp hu).2
    exact Prod.ext (htk.trans huk.symm) heq
  have hperm : ((held.filter fun t => t.1.1 = k).map fun t => t.1.2).Perm
      (List.range (most key k files)) := by
    rw [List.perm_ext_iff_of_nodup hnumbers List.nodup_range]
    intro n
    rw [List.mem_range, ← h.full k hkept n, List.mem_map, List.mem_map]
    constructor
    · rintro ⟨t, ht, rfl⟩
      obtain ⟨hmem, htk⟩ := List.mem_filter.mp ht
      exact ⟨t, hmem, Prod.ext (of_decide_eq_true htk) rfl⟩
    · rintro ⟨t, ht, htag⟩
      refine ⟨t, List.mem_filter.mpr ⟨ht, ?_⟩, by rw [htag]⟩
      exact decide_eq_true (by rw [htag])
  rw [hcount, hperm.length_eq, List.length_range]

/-- Where a row comes, it is numbered by the rows of its key before it. -/
theorem tagged_at {i : ℕ} {a : α} (h : l[i]? = some a) :
    (tagged key l)[i]? = some ((key a, count key (key a) (l.take i)), a) := by
  have hfrom : ∀ before : List α, (taggedFrom key before l)[i]? =
      some ((key a, count key (key a) (before ++ l.take i)), a) := by
    induction l generalizing i with
    | nil => cases h
    | cons b l ih =>
      intro before
      cases i with
      | zero =>
        obtain rfl : b = a := Option.some.inj h
        rw [List.take_zero, List.append_nil]
        rfl
      | succ i =>
        have hrest := ih h (before ++ [b])
        rw [List.append_assoc] at hrest
        exact hrest
  exact hfrom []

end Caflow.Occurrences
