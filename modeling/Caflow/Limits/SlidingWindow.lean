import Caflow.Lib.Dict
import Mathlib

namespace Caflow.Limits
open Dict

/-- A limiter is built with a budget, a window and a cap on its keys, all of them positive. -/
structure SlidingWindowLimiter where
  maxEvents : ℕ
  windowSeconds : ℚ
  maxKeys : ℕ
  eventsPos : 1 ≤ maxEvents
  windowPos : 0 < windowSeconds
  keysPos : 1 ≤ maxKeys

/-- The moments recorded for each key, oldest first. -/
abbrev Table := List (String × List ℚ)

namespace SlidingWindowLimiter

/-- A limiter with the cap on its keys that a caller who names none gets. -/
def capped (maxEvents : ℕ) (windowSeconds : ℚ) (h : 1 ≤ maxEvents ∧ 0 < windowSeconds) :
    SlidingWindowLimiter :=
  ⟨maxEvents, windowSeconds, 4096, h.1, h.2, by decide⟩

def dropColdest (limiter : SlidingWindowLimiter) (table : Table) : Table :=
  let ranked := table.insertionSort fun a b => a.2.getLastD 0 ≤ b.2.getLastD 0
  let stale := (ranked.take (max 1 (limiter.maxKeys / 4))).map Prod.fst
  table.filter fun p => p.1 ∉ stale

/-- The table with a bucket for the key, which may take the place of the coldest ones. -/
def opened (limiter : SlidingWindowLimiter) (table : Table) (key : String) : Table :=
  match get table key with
  | some _ => table
  | none => (if limiter.maxKeys ≤ table.length then limiter.dropColdest table else table) ++
      [(key, [])]

/-- What the window at a moment still holds of a bucket. -/
def recent (limiter : SlidingWindowLimiter) (table : Table) (key : String) (now : ℚ) : List ℚ :=
  ((get table key).getD []).dropWhile (· ≤ now - limiter.windowSeconds)

/-- A hit is recorded, or refused with the seconds to wait for the oldest one to age out. -/
def hitOrWait (limiter : SlidingWindowLimiter) (table : Table) (key : String) (now : ℚ) :
    Option ℤ × Table :=
  let bucket := limiter.recent table key now
  if limiter.maxEvents ≤ bucket.length then
    (some (max 1 ⌈bucket.headD now + limiter.windowSeconds - now⌉),
      Dict.set key bucket (limiter.opened table key))
  else (none, Dict.set key (bucket ++ [now]) (limiter.opened table key))

def hit (limiter : SlidingWindowLimiter) (table : Table) (key : String) (now : ℚ) : Bool × Table :=
  ((limiter.hitOrWait table key now).1.isNone, (limiter.hitOrWait table key now).2)

end SlidingWindowLimiter

/-- A limiter in use: its table, and the hits it has let through. -/
structure Window where
  table : Table
  through : List (String × ℚ)

/-- When a key has been let through. -/
def Window.times (window : Window) (key : String) : List ℚ :=
  (window.through.filter fun hit => hit.1 = key).map Prod.snd

def Window.hit (limiter : SlidingWindowLimiter) (window : Window) (hit : String × ℚ) : Window :=
  let answer := limiter.hitOrWait window.table hit.1 hit.2
  ⟨answer.2, if answer.1.isNone then window.through ++ [hit] else window.through⟩

def Window.hits (limiter : SlidingWindowLimiter) (window : Window) (hits : List (String × ℚ)) :
    Window :=
  hits.foldl (Window.hit limiter) window

/-- How many of a key's hits were let through in the window that ends at a moment. -/
def Window.within (limiter : SlidingWindowLimiter) (window : Window) (key : String) (t : ℚ) : ℕ :=
  (window.times key).countP fun x => t - limiter.windowSeconds < x ∧ x ≤ t

section
variable {limiter : SlidingWindowLimiter} {table : Table} {key key' : String} {now : ℚ}

namespace SlidingWindowLimiter

theorem drop_coldest_sublist (limiter : SlidingWindowLimiter) (table : Table) :
    (limiter.dropColdest table).Sublist table :=
  List.filter_sublist

/-- A full table loses a key at least. -/
theorem drop_coldest_length (limiter : SlidingWindowLimiter) (h : table ≠ []) :
    (limiter.dropColdest table).length < table.length := by
  have hsorted : table.insertionSort (fun a b => a.2.getLastD 0 ≤ b.2.getLastD 0) ≠ [] := by
    intro hnil
    have hlength := (List.perm_insertionSort
      (fun a b : String × List ℚ => a.2.getLastD 0 ≤ b.2.getLastD 0) table).length_eq
    rw [hnil, List.length_nil] at hlength
    exact h (List.length_eq_zero_iff.mp hlength.symm)
  obtain ⟨coldest, rest, hranked⟩ := List.exists_cons_of_ne_nil hsorted
  have hmem : coldest ∈ table :=
    (List.mem_insertionSort _).mp (hranked ▸ List.mem_cons_self)
  refine List.length_filter_lt_length_iff_exists.mpr ⟨coldest, hmem, ?_⟩
  obtain ⟨n, hn⟩ : ∃ n, max 1 (limiter.maxKeys / 4) = n + 1 :=
    ⟨max 1 (limiter.maxKeys / 4) - 1, by omega⟩
  rw [hranked, hn]
  simp

theorem opened_keyed (limiter : SlidingWindowLimiter) (h : Keyed table) (key : String) :
    Keyed (limiter.opened table key) := by
  unfold opened
  cases hget : get table key with
  | some bucket => exact h
  | none =>
    have hnot := get_none.mp hget
    dsimp only
    rw [Keyed, List.map_append, List.map_singleton]
    refine List.nodup_append.mpr ⟨?_, List.nodup_singleton _, ?_⟩
    · split
      · exact ((limiter.drop_coldest_sublist table).map Prod.fst).nodup h
      · exact h
    · intro a ha b hb
      rw [List.mem_singleton.mp hb]
      rintro rfl
      split at ha
      · exact hnot (((limiter.drop_coldest_sublist table).map Prod.fst).subset ha)
      · exact hnot ha

theorem opened_length (limiter : SlidingWindowLimiter) (h : table.length ≤ limiter.maxKeys)
    (key : String) : (limiter.opened table key).length ≤ limiter.maxKeys := by
  unfold opened
  cases hget : get table key with
  | some bucket => exact h
  | none =>
    dsimp only
    rw [List.length_append, List.length_singleton]
    split
    · rename_i hfull
      have hne : table ≠ [] := by
        rintro rfl
        exact absurd limiter.keysPos (by simpa using hfull)
      exact (limiter.drop_coldest_length hne).trans_le h
    · omega

theorem mem_opened (limiter : SlidingWindowLimiter) (table : Table) (key : String) :
    key ∈ (limiter.opened table key).map Prod.fst := by
  unfold opened
  cases hget : get table key with
  | some bucket =>
    by_contra hnot
    rw [get_none.mpr hnot] at hget
    cases hget
  | none => simp

theorem get_opened (limiter : SlidingWindowLimiter) (h : Keyed table) {bucket : List ℚ}
    (hne : key' ≠ key) (hget : get (limiter.opened table key) key' = some bucket) :
    get table key' = some bucket := by
  unfold opened at hget
  cases hkey : get table key with
  | some own =>
    rw [hkey] at hget
    exact hget
  | none =>
    rw [hkey] at hget
    dsimp only at hget
    have hlast : get [(key, ([] : List ℚ))] key' = none := by
      simp [Dict.get, Ne.symm hne]
    rw [get_append, hlast, Option.or_none] at hget
    split at hget
    · exact (get_some h).mpr ((limiter.drop_coldest_sublist table).subset (mem_of_get hget))
    · exact hget

/-- While there is room for one more key, no bucket is dropped. -/
theorem get_opened_room (limiter : SlidingWindowLimiter) (hne : key' ≠ key)
    (hroom : get table key = none → table.length < limiter.maxKeys) :
    get (limiter.opened table key) key' = get table key' := by
  unfold opened
  cases hkey : get table key with
  | some own => rfl
  | none =>
    have hlast : get [(key, ([] : List ℚ))] key' = none := by
      simp [Dict.get, Ne.symm hne]
    dsimp only
    rw [if_neg (not_le.mpr (hroom hkey)), get_append, hlast, Option.or_none]

/-- A key that is set again leaves as many keys. -/
theorem length_set {d : Table} (h : key ∈ d.map Prod.fst) (bucket : List ℚ) :
    (Dict.set key bucket d).length = d.length := by
  induction d with
  | nil => cases h
  | cons p d ih =>
    rw [Dict.set]
    split
    · rfl
    · rename_i hp
      rw [List.map_cons, List.mem_cons] at h
      rw [List.length_cons, List.length_cons, ih (h.resolve_left (Ne.symm hp))]

theorem recent_suffix (limiter : SlidingWindowLimiter) (table : Table) (key : String) (now : ℚ) :
    limiter.recent table key now <:+ (get table key).getD [] :=
  List.dropWhile_suffix _

/-- Of moments in order, those that a window drops are those it no longer holds. -/
theorem drop_old {bucket : List ℚ} {cutoff : ℚ} (h : bucket.Pairwise (· ≤ ·)) :
    (∀ x ∈ bucket.takeWhile (· ≤ cutoff), x ≤ cutoff) ∧
      ∀ x ∈ bucket.dropWhile (· ≤ cutoff), cutoff < x := by
  induction bucket with
  | nil => exact ⟨fun x hx => (nomatch hx), fun x hx => (nomatch hx)⟩
  | cons first rest ih =>
    obtain ⟨hfirst, hrest⟩ := List.pairwise_cons.mp h
    obtain ⟨htake, hdrop⟩ := ih hrest
    by_cases hold : first ≤ cutoff
    · rw [List.takeWhile_cons_of_pos (by simpa using hold),
        List.dropWhile_cons_of_pos (by simpa using hold)]
      exact ⟨List.forall_mem_cons.mpr ⟨hold, htake⟩, hdrop⟩
    · rw [List.takeWhile_cons_of_neg (by simpa using hold),
        List.dropWhile_cons_of_neg (by simpa using hold)]
      refine ⟨fun x hx => (nomatch hx), List.forall_mem_cons.mpr ⟨not_le.mp hold, ?_⟩⟩
      exact fun x hx => (not_le.mp hold).trans_le (hfirst x hx)

end SlidingWindowLimiter

open SlidingWindowLimiter

variable {window : Window}

theorem hit_cases (limiter : SlidingWindowLimiter) (window : Window) (key : String) (now : ℚ) :
    limiter.maxEvents ≤ (limiter.recent window.table key now).length ∧
      window.hit limiter (key, now) =
        ⟨Dict.set key (limiter.recent window.table key now) (limiter.opened window.table key),
          window.through⟩ ∨
    (limiter.recent window.table key now).length < limiter.maxEvents ∧
      window.hit limiter (key, now) =
        ⟨Dict.set key (limiter.recent window.table key now ++ [now])
          (limiter.opened window.table key), window.through ++ [(key, now)]⟩ := by
  unfold Window.hit hitOrWait
  dsimp only
  by_cases hfull : limiter.maxEvents ≤ (limiter.recent window.table key now).length
  · rw [if_pos hfull]
    exact .inl ⟨hfull, rfl⟩
  · rw [if_neg hfull]
    exact .inr ⟨not_le.mp hfull, rfl⟩

theorem hit_table (limiter : SlidingWindowLimiter) (window : Window) (key : String) (now : ℚ) :
    ∃ bucket, (window.hit limiter (key, now)).table =
      Dict.set key bucket (limiter.opened window.table key) := by
  rcases hit_cases limiter window key now with ⟨-, heq⟩ | ⟨-, heq⟩
  · exact ⟨_, by rw [heq]⟩
  · exact ⟨_, by rw [heq]⟩

theorem window_hit (limiter : SlidingWindowLimiter) (table : Table) (through : List (String × ℚ))
    (key : String) (now : ℚ) : (Window.mk table through).hit limiter (key, now) =
      ⟨(limiter.hit table key now).2,
        if (limiter.hit table key now).1 then through ++ [(key, now)] else through⟩ := rfl

theorem times_append (through : List (String × ℚ)) (table table' : Table) (key : String) (now : ℚ)
    (key' : String) : (Window.mk table' (through ++ [(key, now)])).times key' =
      (Window.mk table through).times key' ++ if key = key' then [now] else [] := by
  unfold Window.times
  rw [List.filter_append, List.map_append]
  by_cases hkey : key = key' <;> simp [hkey]

/-- What a limiter keeps, whatever keys it drops: a bucket is the last of what its key was let
through. -/
structure Kept (limiter : SlidingWindowLimiter) (window : Window) (now : ℚ) : Prop where
  keyed : Keyed window.table
  few : window.table.length ≤ limiter.maxKeys
  sorted : ∀ key, (window.times key).Pairwise (· ≤ ·)
  past : ∀ key, ∀ t ∈ window.times key, t ≤ now
  bucket : ∀ key bucket, get window.table key = some bucket →
    bucket <:+ window.times key ∧ bucket.length ≤ limiter.maxEvents

theorem kept_empty (limiter : SlidingWindowLimiter) (now : ℚ) : Kept limiter ⟨[], []⟩ now where
  keyed := List.nodup_nil
  few := Nat.zero_le _
  sorted := fun _ => List.Pairwise.nil
  past := fun _ _ ht => nomatch ht
  bucket := fun _ _ hget => nomatch hget

theorem Kept.later (h : Kept limiter window now) {later : ℚ} (hle : now ≤ later) :
    Kept limiter window later :=
  ⟨h.keyed, h.few, h.sorted, fun key t ht => (h.past key t ht).trans hle, h.bucket⟩

theorem Kept.recent_times (h : Kept limiter window now) (key : String) (later : ℚ) :
    limiter.recent window.table key later <:+ window.times key := by
  refine (limiter.recent_suffix window.table key later).trans ?_
  cases hget : get window.table key with
  | none => exact List.nil_suffix
  | some bucket => exact (h.bucket key bucket hget).1

theorem Kept.recent_bounds (h : Kept limiter window now) (key : String) :
    ∀ x ∈ limiter.recent window.table key now, now - limiter.windowSeconds < x ∧ x ≤ now := by
  intro x hx
  refine ⟨?_, h.past key x ((h.recent_times key now).subset hx)⟩
  have hsorted : ((get window.table key).getD []).Pairwise (· ≤ ·) := by
    cases hget : get window.table key with
    | none => exact List.Pairwise.nil
    | some bucket => exact (h.sorted key).sublist (h.bucket key bucket hget).1.sublist
  exact (drop_old hsorted).2 x hx

theorem Kept.recent_length (h : Kept limiter window now) (key : String) (later : ℚ) :
    (limiter.recent window.table key later).length ≤ limiter.maxEvents := by
  refine (limiter.recent_suffix window.table key later).length_le.trans ?_
  cases hget : get window.table key with
  | none => exact Nat.zero_le _
  | some bucket => exact (h.bucket key bucket hget).2

theorem Kept.hit (h : Kept limiter window now) (key : String) {later : ℚ} (hle : now ≤ later) :
    Kept limiter (window.hit limiter (key, later)) later := by
  have hlater := h.later hle
  have hopened := limiter.opened_keyed h.keyed key
  have hmem := limiter.mem_opened window.table key
  have hlength := limiter.opened_length h.few key
  rcases hit_cases limiter window key later with ⟨-, heq⟩ | ⟨hroom, heq⟩
  · rw [heq]
    refine ⟨hopened.set key _, (length_set hmem _).le.trans hlength, h.sorted, hlater.past,
      fun key' bucket hget => ?_⟩
    by_cases hkey : key' = key
    · subst hkey
      rw [get_set_self] at hget
      rw [← Option.some.inj hget]
      exact ⟨h.recent_times key' later, h.recent_length key' later⟩
    · rw [get_set_other _ _ (Ne.symm hkey)] at hget
      exact h.bucket key' bucket (limiter.get_opened h.keyed hkey hget)
  · rw [heq]
    have htimes := times_append window.through window.table
      (Dict.set key (limiter.recent window.table key later ++ [later])
        (limiter.opened window.table key)) key later
    refine ⟨hopened.set key _, (length_set hmem _).le.trans hlength, fun key' => ?_,
      fun key' t ht => ?_, fun key' bucket hget => ?_⟩
    · rw [htimes key']
      refine List.pairwise_append.mpr ⟨h.sorted key', ?_, fun x hx y hy => ?_⟩
      · split
        · exact List.pairwise_singleton _ _
        · exact List.Pairwise.nil
      · split at hy
        · rw [List.mem_singleton.mp hy]
          exact hlater.past key' x hx
        · cases hy
    · rw [htimes key'] at ht
      rcases List.mem_append.mp ht with hold | hnew
      · exact hlater.past key' t hold
      · split at hnew
        · exact (List.mem_singleton.mp hnew).le
        · cases hnew
    · rw [htimes key']
      by_cases hkey : key' = key
      · subst hkey
        rw [get_set_self] at hget
        rw [← Option.some.inj hget, if_pos rfl]
        refine ⟨?_, ?_⟩
        · obtain ⟨old, hold⟩ := h.recent_times key' later
          exact ⟨old, by rw [← List.append_assoc, hold]⟩
        · rw [List.length_append, List.length_singleton]
          exact hroom
      · rw [get_set_other _ _ (Ne.symm hkey)] at hget
        rw [if_neg (Ne.symm hkey), List.append_nil]
        exact h.bucket key' bucket (limiter.get_opened h.keyed hkey hget)

/-- Hits that come one after another, the first of them not before a moment. -/
def InOrder (now : ℚ) (hits : List (String × ℚ)) : Prop :=
  (hits.map Prod.snd).Pairwise (· ≤ ·) ∧ ∀ hit ∈ hits, now ≤ hit.2

theorem Kept.hits (h : Kept limiter window now) {hits : List (String × ℚ)} {later : ℚ}
    (horder : InOrder now hits) (hlater : now ≤ later) (hbefore : ∀ hit ∈ hits, hit.2 ≤ later) :
    Kept limiter (window.hits limiter hits) later := by
  induction hits generalizing window now with
  | nil => exact h.later hlater
  | cons hit hits ih =>
    obtain ⟨hsorted, hnow⟩ := horder
    obtain ⟨hfirst, hrest⟩ := List.pairwise_cons.mp hsorted
    obtain ⟨hbefore', hothers⟩ := List.forall_mem_cons.mp hbefore
    refine ih (h.hit hit.1 (hnow hit List.mem_cons_self)) ⟨hrest, fun next hnext => ?_⟩ hbefore'
      hothers
    exact hfirst next.2 (List.mem_map_of_mem hnext)

theorem within_append (through : List (String × ℚ)) (table table' : Table) (key : String)
    (now : ℚ) (key' : String) (t : ℚ) :
    (Window.mk table' (through ++ [(key, now)])).within limiter key' t =
      (Window.mk table through).within limiter key' t +
        if key = key' ∧ t - limiter.windowSeconds < now ∧ now ≤ t then 1 else 0 := by
  unfold Window.within
  rw [times_append through table, List.countP_append]
  by_cases hkey : key = key'
  · simp [hkey, List.countP_singleton]
  · simp [hkey]

/-- While no bucket is dropped, all that a key was let through and its bucket does not hold is of
before the window. -/
structure Whole (limiter : SlidingWindowLimiter) (window : Window) (now : ℚ) : Prop where
  kept : Kept limiter window now
  rest : ∀ key, ∃ old, window.times key = old ++ (get window.table key).getD [] ∧
    ∀ x ∈ old, x ≤ now - limiter.windowSeconds
  within : ∀ key t, window.within limiter key t ≤ limiter.maxEvents

theorem whole_empty (limiter : SlidingWindowLimiter) (now : ℚ) : Whole limiter ⟨[], []⟩ now where
  kept := kept_empty limiter now
  rest := fun _ => ⟨[], rfl, fun _ hx => nomatch hx⟩
  within := fun _ _ => Nat.zero_le _

theorem Whole.later (h : Whole limiter window now) {later : ℚ} (hle : now ≤ later) :
    Whole limiter window later := by
  refine ⟨h.kept.later hle, fun key => ?_, h.within⟩
  obtain ⟨old, htimes, hold⟩ := h.rest key
  exact ⟨old, htimes, fun x hx => (hold x hx).trans (sub_le_sub_right hle _)⟩

/-- What came before a moment, with what a bucket then drops, is of before the window. -/
theorem Whole.recent_rest (h : Whole limiter window now) (key : String) {later : ℚ}
    (hle : now ≤ later) :
    ∃ old, window.times key = old ++ limiter.recent window.table key later ∧
      ∀ x ∈ old, x ≤ later - limiter.windowSeconds := by
  obtain ⟨old, htimes, hold⟩ := h.rest key
  have hsorted : ((get window.table key).getD []).Pairwise (· ≤ ·) := by
    have hall := h.kept.sorted key
    rw [htimes] at hall
    exact (List.pairwise_append.mp hall).2.1
  refine ⟨old ++ ((get window.table key).getD []).takeWhile (· ≤ later - limiter.windowSeconds),
    ?_, fun x hx => ?_⟩
  · rw [List.append_assoc, recent, List.takeWhile_append_dropWhile, htimes]
  · rcases List.mem_append.mp hx with hx | hx
    · exact (hold x hx).trans (sub_le_sub_right hle _)
    · exact (drop_old hsorted).1 x hx

theorem Whole.hit (h : Whole limiter window now) (key : String) {later : ℚ} (hle : now ≤ later)
    (hroom : get window.table key = none → window.table.length < limiter.maxKeys) :
    Whole limiter (window.hit limiter (key, later)) later := by
  obtain ⟨old, htimes, hold⟩ := h.recent_rest key hle
  have hothers (key' : String) (hkey : key' ≠ key) (bucket : List ℚ) :
      get (Dict.set key bucket (limiter.opened window.table key)) key' =
        get window.table key' := by
    rw [get_set_other _ _ (Ne.symm hkey), limiter.get_opened_room hkey hroom]
  have hrest := (h.later hle).rest
  refine ⟨h.kept.hit key hle, fun key' => ?_, fun key' t => ?_⟩
  · rcases hit_cases limiter window key later with ⟨-, heq⟩ | ⟨-, heq⟩
    · rw [heq]
      by_cases hkey : key' = key
      · subst hkey
        refine ⟨old, ?_, hold⟩
        rw [get_set_self]
        exact htimes
      · dsimp only
        rw [hothers key' hkey]
        exact hrest key'
    · rw [heq]
      dsimp only
      rw [times_append window.through window.table]
      by_cases hkey : key' = key
      · subst hkey
        refine ⟨old, ?_, hold⟩
        rw [get_set_self, if_pos rfl]
        change window.times key' ++ _ = _
        rw [htimes, List.append_assoc]
        rfl
      · rw [hothers key' hkey, if_neg (Ne.symm hkey), List.append_nil]
        exact hrest key'
  · rcases hit_cases limiter window key later with ⟨-, heq⟩ | ⟨hfree, heq⟩
    · rw [heq]
      exact h.within key' t
    · rw [heq, within_append window.through window.table]
      split_ifs with hnew
      · obtain ⟨rfl, hstart, hend⟩ := hnew
        change (window.times key).countP _ + 1 ≤ _
        have hnone : old.countP (fun x => t - limiter.windowSeconds < x ∧ x ≤ t) = 0 := by
          rw [List.countP_eq_zero]
          intro x hx
          have hbefore := hold x hx
          simp only [decide_eq_true_eq, not_and, not_le]
          intro hafter
          linarith
        rw [htimes, List.countP_append, hnone, zero_add]
        exact (Nat.succ_le_succ List.countP_le_length).trans hfree
      · exact h.within key' t

/-- A table of a few keys has room for each of them. -/
theorem Kept.room {keys : Finset String} (h : Kept limiter window now)
    (hcap : keys.card ≤ limiter.maxKeys) (hinside : ∀ key ∈ window.table.map Prod.fst, key ∈ keys)
    (hkey : key ∈ keys) (hnone : get window.table key = none) :
    window.table.length < limiter.maxKeys := by
  have hnodup : (key :: window.table.map Prod.fst).Nodup :=
    List.nodup_cons.mpr ⟨get_none.mp hnone, h.keyed⟩
  have hsubset : (key :: window.table.map Prod.fst).toFinset ⊆ keys := by
    intro key' hmem
    rcases List.mem_cons.mp (List.mem_toFinset.mp hmem) with rfl | hmem
    · exact hkey
    · exact hinside key' hmem
  have hcard := Finset.card_le_card hsubset
  rw [List.toFinset_card_of_nodup hnodup, List.length_cons, List.length_map] at hcard
  exact Nat.lt_of_succ_le (hcard.trans hcap)

theorem hit_inside {keys : Finset String} (hinside : ∀ key ∈ window.table.map Prod.fst, key ∈ keys)
    (hkey : key ∈ keys) (now : ℚ)
    (hroom : get window.table key = none → window.table.length < limiter.maxKeys) :
    ∀ key' ∈ (window.hit limiter (key, now)).table.map Prod.fst, key' ∈ keys := by
  intro key' hmem
  obtain ⟨bucket, htable⟩ := hit_table limiter window key now
  rw [htable, mem_set_keys] at hmem
  by_cases hsame : key' = key
  · rw [hsame]
    exact hkey
  · refine hinside key' ?_
    by_contra hnot
    rw [← get_none, ← limiter.get_opened_room hsame hroom, get_none] at hnot
    exact hnot (hmem.resolve_left hsame)

/-- Where all the hits are of a few keys, none of them lacks room. -/
theorem Whole.hits {keys : Finset String} (hcap : keys.card ≤ limiter.maxKeys)
    (h : Whole limiter window now) (hinside : ∀ key ∈ window.table.map Prod.fst, key ∈ keys)
    {hits : List (String × ℚ)} (horder : InOrder now hits) (hkeys : ∀ hit ∈ hits, hit.1 ∈ keys) :
    ∃ later, Whole limiter (window.hits limiter hits) later := by
  induction hits generalizing window now with
  | nil => exact ⟨now, h⟩
  | cons hit hits ih =>
    obtain ⟨hsorted, hnow⟩ := horder
    obtain ⟨hfirst, hrest⟩ := List.pairwise_cons.mp hsorted
    obtain ⟨hkey, hothers⟩ := List.forall_mem_cons.mp hkeys
    have hroom := h.kept.room hcap hinside hkey
    exact ih (h.hit hit.1 (hnow hit List.mem_cons_self) hroom) (hit_inside hinside hkey hit.2 hroom)
      ⟨hrest, fun next hnext => hfirst next.2 (List.mem_map_of_mem hnext)⟩ hothers

theorem in_order_start {hits : List (String × ℚ)} (h : (hits.map Prod.snd).Pairwise (· ≤ ·)) :
    ∃ now, InOrder now hits := by
  cases hits with
  | nil => exact ⟨0, h, fun _ hhit => nomatch hhit⟩
  | cons hit hits =>
    refine ⟨hit.2, h, List.forall_mem_cons.mpr ⟨le_rfl, fun next hnext => ?_⟩⟩
    exact (List.pairwise_cons.mp h).1 next.2 (List.mem_map_of_mem hnext)

/-- Hits of other keys leave the bucket of a key as it is, or drop it. -/
theorem others_get (h : Kept limiter window now) {others : List (String × ℚ)}
    (horder : InOrder now others) (hothers : ∀ hit ∈ others, hit.1 ≠ key) {bucket : List ℚ}
    (hget : get (window.hits limiter others).table key = some bucket) :
    get window.table key = some bucket := by
  induction others generalizing window now with
  | nil => exact hget
  | cons hit others ih =>
    obtain ⟨hsorted, hnow⟩ := horder
    obtain ⟨hfirst, hrest⟩ := List.pairwise_cons.mp hsorted
    obtain ⟨hne, hothers'⟩ := List.forall_mem_cons.mp hothers
    have hafter := ih (h.hit hit.1 (hnow hit List.mem_cons_self))
      ⟨hrest, fun next hnext => hfirst next.2 (List.mem_map_of_mem hnext)⟩ hothers' hget
    obtain ⟨bucket', htable⟩ := hit_table limiter window hit.1 hit.2
    rw [show hit = (hit.1, hit.2) from rfl, htable, get_set_other _ _ hne] at hafter
    exact limiter.get_opened h.keyed (Ne.symm hne) hafter

theorem recent_of (limiter : SlidingWindowLimiter) {bucket : List ℚ}
    (hget : get table key = some bucket) :
    limiter.recent table key now = bucket.dropWhile (· ≤ now - limiter.windowSeconds) := by
  rw [recent, hget, Option.getD_some]

theorem wait_none_iff : (limiter.hitOrWait table key now).1 = none ↔
    (limiter.recent table key now).length < limiter.maxEvents := by
  unfold hitOrWait
  dsimp only
  split_ifs with hfull
  · exact iff_of_false not_false (not_lt.mpr hfull)
  · exact iff_of_true rfl (not_le.mp hfull)

/-- A refusal is of a full window, and its wait is what the oldest hit in it has left, rounded
up. -/
theorem refused_cases {n : ℤ} (h : Kept limiter window now)
    (hrefused : (limiter.hitOrWait window.table key now).1 = some n) :
    limiter.maxEvents ≤ (limiter.recent window.table key now).length ∧
      ∃ first rest, limiter.recent window.table key now = first :: rest ∧
        n = ⌈first + limiter.windowSeconds - now⌉ ∧ 1 ≤ n := by
  unfold hitOrWait at hrefused
  dsimp only at hrefused
  split_ifs at hrefused with hfull
  refine ⟨hfull, ?_⟩
  have hn := Option.some.inj hrefused
  have hbounds := h.recent_bounds key
  cases hrecent : limiter.recent window.table key now with
  | nil =>
    rw [hrecent] at hfull
    exact absurd (limiter.eventsPos.trans hfull) (by simp)
  | cons first rest =>
    rw [hrecent] at hn hbounds
    have hleft : 0 < first + limiter.windowSeconds - now := by
      have hstart := (hbounds first List.mem_cons_self).1
      linarith
    have hone : (1 : ℤ) ≤ ⌈first + limiter.windowSeconds - now⌉ :=
      Int.one_le_ceil_iff.mpr hleft
    rw [List.headD_cons, max_eq_right hone] at hn
    exact ⟨first, rest, rfl, hn.symm, by rw [← hn]; exact hone⟩

/-- A full bucket opens when its oldest hit ages out, and not before. -/
theorem reopens {first : ℚ} {rest : List ℚ} {later : ℚ} {others : List (String × ℚ)}
    (h : Kept limiter window now) (hget : get window.table key = some (first :: rest))
    (hlength : (first :: rest).length = limiter.maxEvents)
    (horder : InOrder now others) (hothers : ∀ hit ∈ others, hit.1 ≠ key) :
    (first + limiter.windowSeconds ≤ later →
      (limiter.hitOrWait (window.hits limiter others).table key later).1 = none) ∧
    (later < first + limiter.windowSeconds →
      key ∈ (window.hits limiter others).table.map Prod.fst →
      (limiter.hitOrWait (window.hits limiter others).table key later).1 ≠ none) := by
  cases hafter : get (window.hits limiter others).table key with
  | none =>
    refine ⟨fun _ => wait_none_iff.mpr ?_, fun _ hmem => absurd hmem (get_none.mp hafter)⟩
    rw [recent, hafter]
    exact limiter.eventsPos
  | some bucket =>
    have hsame := others_get h horder hothers hafter
    rw [hget] at hsame
    obtain rfl := Option.some.inj hsame
    refine ⟨fun hle => wait_none_iff.mpr ?_, fun hlt _ hnone => ?_⟩
    · have hold : first ≤ later - limiter.windowSeconds := by linarith
      rw [recent_of limiter hafter, List.dropWhile_cons_of_pos (by simpa using hold)]
      rw [List.length_cons] at hlength
      exact (Nat.lt_of_le_of_lt (List.dropWhile_suffix _).length_le (Nat.lt_succ_self _)).trans_eq
        hlength
    · have hnew : ¬ first ≤ later - limiter.windowSeconds := by
        rw [not_le]
        linarith
      have hfree := wait_none_iff.mp hnone
      rw [recent_of limiter hafter, List.dropWhile_cons_of_neg (by simpa using hnew), hlength]
        at hfree
      exact absurd hfree (lt_irrefl _)

end

/-- Where no more keys are counted than the table has room for, no window of any key lets more hits
through than the budget. -/
theorem window_budget (limiter : SlidingWindowLimiter) (hits : List (String × ℚ))
    (hclock : (hits.map Prod.snd).Pairwise (· ≤ ·))
    (hcap : (hits.map Prod.fst).toFinset.card ≤ limiter.maxKeys) (key : String) (t : ℚ) :
    (Window.hits limiter ⟨[], []⟩ hits).within limiter key t ≤ limiter.maxEvents := by
  obtain ⟨now, horder⟩ := in_order_start hclock
  obtain ⟨_, hwhole⟩ := (whole_empty limiter now).hits hcap (fun _ hmem => nomatch hmem) horder
    fun hit hhit => List.mem_toFinset.mpr (List.mem_map_of_mem hhit)
  exact hwhole.within key t

/-- Two hits a minute. -/
def twoAMinute : SlidingWindowLimiter := .capped 2 60 ⟨by decide, by norm_num⟩

def visits : List (String × ℚ) := [("a", 0), ("a", 10), ("b", 15), ("a", 20)]

theorem visits_in_order : (visits.map Prod.snd).Pairwise (· ≤ ·) := by decide +kernel

theorem visits_within_budget :
    (Window.hits twoAMinute ⟨[], []⟩ visits).within twoAMinute "a" 20 ≤ 2 :=
  window_budget twoAMinute visits visits_in_order (by decide +kernel) "a" 20

/-- However many keys are counted, the table stays within its cap, and a key is refused only where
its window is full of hits let through. It is told to wait a second at least: once it has waited so
long it is let through, whatever other keys did meanwhile, and a second earlier it would not have
been, unless its bucket was dropped. -/
theorem refusals_earned (limiter : SlidingWindowLimiter) (hits : List (String × ℚ))
    (hclock : (hits.map Prod.snd).Pairwise (· ≤ ·)) :
    let window := Window.hits limiter ⟨[], []⟩ hits
    window.table.length ≤ limiter.maxKeys ∧
    ∀ key now n, (∀ hit ∈ hits, hit.2 ≤ now) →
      (limiter.hitOrWait window.table key now).1 = some n →
      limiter.maxEvents ≤ window.within limiter key now ∧ 1 ≤ n ∧
      ∀ others later, InOrder now others → (∀ hit ∈ others, hit.1 ≠ key) →
        let table := (Window.hits limiter (window.hit limiter (key, now)) others).table
        (now + n ≤ later → (limiter.hitOrWait table key later).1 = none) ∧
        (later + 1 ≤ now + n → key ∈ table.map Prod.fst →
          (limiter.hitOrWait table key later).1 ≠ none) := by
  obtain ⟨start, horder⟩ := in_order_start hclock
  intro window
  have hkept (now : ℚ) (hlast : ∀ hit ∈ hits, hit.2 ≤ now) : Kept limiter window now := by
    refine (kept_empty limiter (min start now)).hits ⟨horder.1, fun hit hhit => ?_⟩
      (min_le_right _ _) hlast
    exact (min_le_left _ _).trans (horder.2 hit hhit)
  refine ⟨?_, fun key now n hlast hrefused => ?_⟩
  · obtain ⟨later, hlater⟩ := (hits.map Prod.snd).finite_toSet.bddAbove
    exact (hkept later fun hit hhit => hlater (List.mem_map_of_mem hhit)).few
  · have h := hkept now hlast
    obtain ⟨hfull, first, rest, hrecent, hn, hone⟩ := refused_cases h hrefused
    have hcounted : (limiter.recent window.table key now).countP
        (fun x => now - limiter.windowSeconds < x ∧ x ≤ now) =
        (limiter.recent window.table key now).length := by
      rw [List.countP_eq_length]
      intro x hx
      exact decide_eq_true (h.recent_bounds key x hx)
    refine ⟨?_, hone, fun others later hothers hkeys => ?_⟩
    · calc limiter.maxEvents ≤ (limiter.recent window.table key now).length := hfull
        _ = (limiter.recent window.table key now).countP
            (fun x => now - limiter.windowSeconds < x ∧ x ≤ now) := hcounted.symm
        _ ≤ window.within limiter key now := (h.recent_times key now).sublist.countP_le
    · have hafter := h.hit key (le_refl now)
      have hget : get (window.hit limiter (key, now)).table key = some (first :: rest) := by
        rcases hit_cases limiter window key now with ⟨-, heq⟩ | ⟨hfree, -⟩
        · rw [heq, get_set_self, hrecent]
        · exact absurd hfull (not_le.mpr hfree)
      have hlength : (first :: rest).length = limiter.maxEvents := by
        rw [← hrecent]
        exact le_antisymm (h.recent_length key now) hfull
      obtain ⟨hopens, hshut⟩ : (first + limiter.windowSeconds ≤ later → _) ∧ _ :=
        reopens hafter hget hlength hothers hkeys
      have hceil := Int.le_ceil (first + limiter.windowSeconds - now)
      have hfloor := Int.ceil_lt_add_one (first + limiter.windowSeconds - now)
      rw [← hn] at hceil hfloor
      refine ⟨fun hwaited => hopens ?_, fun hearly => hshut ?_⟩
      · linarith
      · linarith

/-- The third visit of the minute is told to come back in forty seconds, and is then let in. -/
theorem third_visit_waits :
    (twoAMinute.hitOrWait (Window.hits twoAMinute ⟨[], []⟩ visits).table "a" 20).1 = some 40 ∧
    (twoAMinute.hitOrWait (Window.hits twoAMinute
      ((Window.hits twoAMinute ⟨[], []⟩ visits).hit twoAMinute ("a", 20)) [("b", 30)]).table
      "a" 60).1 = none := by
  have hrefused :
      (twoAMinute.hitOrWait (Window.hits twoAMinute ⟨[], []⟩ visits).table "a" 20).1 = some 40 := by
    decide +kernel
  obtain ⟨-, hrefusals⟩ := refusals_earned twoAMinute visits visits_in_order
  obtain ⟨-, -, hwait⟩ := hrefusals "a" 20 40 (by decide +kernel) hrefused
  refine ⟨hrefused, (hwait [("b", 30)] 60 ?_ (by decide +kernel)).1 (by norm_num)⟩
  unfold InOrder
  decide +kernel

end Caflow.Limits
