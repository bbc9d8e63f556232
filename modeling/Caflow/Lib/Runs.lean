import Mathlib

namespace Caflow.Runs

/-- A number that follows the last run extends it, any other begins one. -/
def extend (out : List (ℕ × ℕ)) (n : ℕ) : List (ℕ × ℕ) :=
  match out.getLast? with
  | some (lo, hi) => if n = hi + 1 then out.dropLast ++ [(lo, n)] else out ++ [(n, n)]
  | none => [(n, n)]

/-- The contiguous runs of a list of numbers, each as its two ends. -/
def runs (seqs : List ℕ) : List (ℕ × ℕ) := seqs.foldl extend []

def numbers (run : ℕ × ℕ) : List ℕ := List.range' run.1 (run.2 + 1 - run.1)

theorem mem_numbers : n ∈ numbers run ↔ run.1 ≤ n ∧ n ≤ run.2 := by
  rw [numbers, List.mem_range'_1]
  omega

theorem extend_nil (n : ℕ) : extend [] n = [(n, n)] := rfl

theorem extend_last (out : List (ℕ × ℕ)) (lo hi n : ℕ) :
    extend (out ++ [(lo, hi)]) n =
      if n = hi + 1 then out ++ [(lo, n)] else out ++ [(lo, hi)] ++ [(n, n)] := by
  rw [extend, List.getLast?_concat, List.dropLast_concat]

/-- Runs are never turned about, and what they hold is what was read. -/
theorem extend_numbers (hle : ∀ run ∈ out, run.1 ≤ run.2) (n : ℕ) :
    (∀ run ∈ extend out n, run.1 ≤ run.2) ∧
      (extend out n).flatMap numbers = out.flatMap numbers ++ [n] := by
  have hsingle : numbers (n, n) = [n] := by simp [numbers]
  cases out using List.reverseRecOn with
  | nil =>
    rw [extend_nil, List.flatMap_singleton, hsingle]
    exact ⟨by simp, rfl⟩
  | append_singleton out last _ =>
    obtain ⟨lo, hi⟩ := last
    have hlast : lo ≤ hi := hle (lo, hi) (by simp)
    have hout : ∀ run ∈ out, run.1 ≤ run.2 := fun run hrun => hle run (List.mem_append_left _ hrun)
    rw [extend_last]
    split_ifs with hn
    · subst hn
      have hlonger : numbers (lo, hi + 1) = numbers (lo, hi) ++ [hi + 1] := by
        have hlen : hi + 1 + 1 - lo = hi + 1 - lo + 1 := by omega
        have hend : lo + (hi + 1 - lo) = hi + 1 := by omega
        rw [numbers, numbers, hlen, List.range'_concat, one_mul, hend]
      refine ⟨?_, ?_⟩
      · simp only [List.mem_append, List.mem_singleton]
        rintro run (hrun | rfl)
        · exact hout run hrun
        · exact hlast.trans (Nat.le_succ hi)
      · rw [List.flatMap_append, List.flatMap_append, List.flatMap_singleton,
          List.flatMap_singleton, hlonger, List.append_assoc]
    · refine ⟨?_, ?_⟩
      · intro run hrun
        rcases List.mem_append.mp hrun with hrun | hrun
        · exact hle run hrun
        · rw [List.mem_singleton.mp hrun]
      · rw [List.flatMap_append, List.flatMap_singleton, hsingle]

theorem runs_from (seqs : List ℕ) (hle : ∀ run ∈ out, run.1 ≤ run.2) :
    (∀ run ∈ seqs.foldl extend out, run.1 ≤ run.2) ∧
      (seqs.foldl extend out).flatMap numbers = out.flatMap numbers ++ seqs := by
  induction seqs generalizing out with
  | nil => exact ⟨hle, (List.append_nil _).symm⟩
  | cons n seqs ih =>
    obtain ⟨hle', hnumbers⟩ := extend_numbers hle n
    obtain ⟨hends, hall⟩ := ih hle'
    refine ⟨hends, ?_⟩
    rw [List.foldl_cons, hall, hnumbers, List.append_assoc]
    rfl

theorem run_ends (h : run ∈ runs seqs) : run.1 ≤ run.2 :=
  (@runs_from [] seqs nofun).1 run h

/-- The runs written out are the list. -/
theorem runs_numbers (seqs : List ℕ) : (runs seqs).flatMap numbers = seqs :=
  (@runs_from [] seqs nofun).2

theorem mem_of_run (h : run ∈ runs seqs) (hn : n ∈ numbers run) : n ∈ seqs := by
  rw [← runs_numbers seqs]
  exact List.mem_flatMap.mpr ⟨run, h, hn⟩

theorem ends_mem (h : run ∈ runs seqs) : run.1 ∈ seqs ∧ run.2 ∈ seqs :=
  ⟨mem_of_run h (mem_numbers.mpr ⟨le_rfl, run_ends h⟩),
    mem_of_run h (mem_numbers.mpr ⟨run_ends h, le_rfl⟩)⟩

/-- The runs are as long together as the list. -/
theorem runs_length (seqs : List ℕ) :
    ((runs seqs).map fun run => run.2 - run.1 + 1).sum = seqs.length := by
  have hlength := congrArg List.length (runs_numbers seqs)
  rw [List.length_flatMap] at hlength
  rw [← hlength]
  congr 1
  apply List.map_congr_left
  intro run hrun
  have := run_ends hrun
  rw [numbers, List.length_range']
  omega

/-- A property holds of as many numbers in the runs as in the list. -/
theorem runs_count (p : ℕ → Bool) (seqs : List ℕ) :
    ((runs seqs).map fun run => (numbers run).countP p).sum = seqs.countP p := by
  conv_rhs => rw [← runs_numbers seqs]
  rw [List.countP_flatMap]
  rfl

theorem sum_indicator (p : α → Prop) [DecidablePred p] (xs : List α) :
    (xs.map fun x => if p x then 1 else 0).sum = xs.countP (fun x => p x) := by
  induction xs with
  | nil => rfl
  | cons x xs ih =>
    rw [List.map_cons, List.sum_cons, ih, List.countP_cons, add_comm]
    simp

/-- A number of the list is in one run, any other in none. -/
theorem run_once (hseqs : seqs.Nodup) (n : ℕ) :
    (runs seqs).countP (fun run => run.1 ≤ n ∧ n ≤ run.2) = if n ∈ seqs then 1 else 0 := by
  have hcount : ∀ run : ℕ × ℕ, (numbers run).countP (· == n) =
      if run.1 ≤ n ∧ n ≤ run.2 then 1 else 0 := by
    intro run
    have hnodup : (numbers run).Nodup := List.nodup_range'
    rw [← List.count, hnodup.count]
    simp only [mem_numbers]
  have hall := runs_count (· == n) seqs
  rw [List.map_congr_left fun run _ => hcount run, sum_indicator, ← List.count, hseqs.count] at hall
  exact hall

end Caflow.Runs
