import Mathlib

namespace Caflow.Resumed

/-- Work on some lines, one row each, and how a row that is there already is taken up again. -/
structure Work (ι κ ρ ω ε σ : Type*) where
  key : ι → κ
  rowKey : ρ → κ
  record : List ρ → ι → Except ε (ρ × ω)
  /-- Why a row cannot be this line's. -/
  refusal : ρ → ι → Option σ
  /-- What a row still owes on behalf of its line, if anything. -/
  reuse : ρ → ι → Option ω

inductive Stop (ε σ : Type*) where
  | refused (s : σ)
  | failed (e : ε)

/-- What a walk over the lines wrote, how many of them it moved, what is owed for them, and what
stopped it. -/
structure Walk (ρ ω ε σ : Type*) where
  moved : ℕ
  written : List ρ
  owing : List (ρ × ω)
  stopped : Option (Stop ε σ)

variable {ι κ ρ ω ε σ : Type*}

namespace Work
variable (w : Work ι κ ρ ω ε σ)

/-- The lines one after another, each row recorded on those before it. -/
def run : List ρ → List ι → Walk ρ ω ε σ
  | _, [] => ⟨0, [], [], none⟩
  | log, line :: lines =>
    match w.record log line with
    | .error e => ⟨0, [], [], some (.failed e)⟩
    | .ok m =>
      let rest := run (log ++ [m.1]) lines
      ⟨rest.moved + 1, m.1 :: rest.written, m :: rest.owing, rest.stopped⟩

variable {w}

theorem run_failed {log : List ρ} {line : ι} (h : w.record log line = .error e) (lines : List ι) :
    w.run log (line :: lines) = ⟨0, [], [], some (.failed e)⟩ := by
  rw [run, h]

theorem run_moved {log : List ρ} {line : ι} (h : w.record log line = .ok m) (lines : List ι) :
    w.run log (line :: lines) =
      ⟨(w.run (log ++ [m.1]) lines).moved + 1, m.1 :: (w.run (log ++ [m.1]) lines).written,
        m :: (w.run (log ++ [m.1]) lines).owing, (w.run (log ++ [m.1]) lines).stopped⟩ := by
  rw [run, h]

/-- A first run owes for every row it writes. -/
theorem run_written (log : List ρ) (lines : List ι) :
    (w.run log lines).written = (w.run log lines).owing.map Prod.fst := by
  induction lines generalizing log with
  | nil => rfl
  | cons line lines ih =>
    cases hrecord : w.record log line with
    | error e =>
      rw [run_failed hrecord]
      rfl
    | ok m =>
      rw [run_moved hrecord]
      exact congrArg (m.1 :: ·) (ih _)

/-- What a first run owes for a line is what recording that line made. -/
theorem run_recorded (log : List ρ) (lines : List ι) :
    ∀ p ∈ lines.zip (w.run log lines).owing, ∃ before, w.record before p.1 = .ok p.2 := by
  induction lines generalizing log with
  | nil => simp
  | cons line lines ih =>
    cases hrecord : w.record log line with
    | error e =>
      rw [run_failed hrecord]
      simp
    | ok m =>
      rw [run_moved hrecord]
      exact List.forall_mem_cons.mpr ⟨⟨log, hrecord⟩, ih _⟩

/-- One row at most for each line. -/
theorem run_length (log : List ρ) (lines : List ι) :
    (w.run log lines).owing.length ≤ lines.length := by
  induction lines generalizing log with
  | nil => exact le_rfl
  | cons line lines ih =>
    cases hrecord : w.record log line with
    | error e =>
      rw [run_failed hrecord]
      exact Nat.zero_le _
    | ok m =>
      rw [run_moved hrecord]
      exact Nat.succ_le_succ (ih _)

end Work

variable [DecidableEq κ]

/-- The next row of a key, and the rows that are left. -/
def take (rowKey : ρ → κ) (k : κ) : List ρ → Option (ρ × List ρ)
  | [] => none
  | row :: rows =>
    if rowKey row = k then some (row, rows)
    else (take rowKey k rows).map fun taken => (taken.1, row :: taken.2)

namespace Work
variable (w : Work ι κ ρ ω ε σ)

/-- Each line with the row it is handed: a key's rows go to its lines in order. -/
def hand : List ρ → List ι → List (ι × Option ρ)
  | _, [] => []
  | pool, line :: lines =>
    match take w.rowKey (w.key line) pool with
    | some (row, rest) => (line, some row) :: hand rest lines
    | none => (line, none) :: hand pool lines

/-- The first refusal of a walk that writes nothing. -/
def rehearse : List ρ → List ι → Option σ
  | _, [] => none
  | pool, line :: lines =>
    match take w.rowKey (w.key line) pool with
    | some (row, rest) =>
      match w.refusal row line with
      | some s => some s
      | none => rehearse rest lines
    | none => rehearse pool lines

/-- The lines again, those that have a row taking it up. -/
def resume : List ρ → List ρ → List ι → Walk ρ ω ε σ
  | _, _, [] => ⟨0, [], [], none⟩
  | pool, log, line :: lines =>
    match take w.rowKey (w.key line) pool with
    | some (row, rest) =>
      match w.refusal row line with
      | some s => ⟨0, [], [], some (.refused s)⟩
      | none =>
        let walk := resume rest log lines
        { walk with
          moved := walk.moved + 1
          owing := ((w.reuse row line).map (row, ·)).toList ++ walk.owing }
    | none =>
      match w.record log line with
      | .error e => ⟨0, [], [], some (.failed e)⟩
      | .ok m =>
        let walk := resume pool (log ++ [m.1]) lines
        ⟨walk.moved + 1, m.1 :: walk.written, m :: walk.owing, walk.stopped⟩

variable {w}

/-- With no rows to take up there is nothing to refuse, and the lines run as if for the first time. -/
theorem resume_nil (log : List ρ) (lines : List ι) :
    w.rehearse [] lines = none ∧ w.resume [] log lines = w.run log lines := by
  induction lines generalizing log with
  | nil => exact ⟨rfl, rfl⟩
  | cons line lines ih =>
    refine ⟨(ih log).1, ?_⟩
    unfold resume run take
    dsimp only
    cases w.record log line with
    | error e => rfl
    | ok m =>
      dsimp only
      rw [(ih (log ++ [m.1])).2]

/-- A row a first run wrote may be taken up again by its own line, for what it was owed. -/
structure Taken (w : Work ι κ ρ ω ε σ) (line : ι) (m : ρ × ω) : Prop where
  accepted : w.refusal m.1 line = none
  owed : w.reuse m.1 line = some m.2

/-- The rows of a first run go back to the lines they were written for. -/
theorem hand_own (hkey : ∀ log line m, w.record log line = .ok m → w.rowKey m.1 = w.key line)
    (lines : List ι) (log : List ρ) (k : ℕ) (i : ℕ) :
    (w.hand ((w.run log lines).written.take k) lines)[i]? =
      lines[i]?.map fun line => (line, ((w.run log lines).written.take k)[i]?) := by
  have hbare (lines : List ι) : w.hand [] lines = lines.map fun line => (line, none) := by
    induction lines with
    | nil => rfl
    | cons line lines ih => rw [hand, take, ih, List.map_cons]
  induction lines generalizing log k i with
  | nil => rfl
  | cons line lines ih =>
    cases hrecord : w.record log line with
    | error e =>
      rw [run_failed hrecord, List.take_nil, hbare, List.getElem?_map]
      rfl
    | ok m =>
      rw [run_moved hrecord]
      cases k with
      | zero =>
        rw [List.take_zero, hbare, List.getElem?_map]
        rfl
      | succ k =>
        rw [List.take_succ_cons, hand, take, if_pos (hkey log line m hrecord)]
        cases i with
        | zero => rfl
        | succ i => exact ih (log ++ [m.1]) k i

/-- A run that stopped after some of its rows is completed by a resumed one: the rows it wrote go
to their own lines, and what is written after them and owed in all is what one run makes. -/
theorem resume_own (hkey : ∀ log line m, w.record log line = .ok m → w.rowKey m.1 = w.key line)
    (lines : List ι) (log : List ρ) (k : ℕ)
    (htaken : ∀ p ∈ lines.zip ((w.run log lines).owing.take k), Taken w p.1 p.2) :
    let whole := w.run log lines
    let own := whole.written.take k
    w.rehearse own lines = none ∧
      w.resume own (log ++ own) lines = { whole with written := whole.written.drop k } := by
  induction lines generalizing log k with
  | nil =>
    refine ⟨rfl, ?_⟩
    simp [run, resume]
  | cons line lines ih =>
    cases hrecord : w.record log line with
    | error e =>
      have hrun := run_failed hrecord lines
      intro whole own
      have hown : own = [] := by
        change (w.run log (line :: lines)).written.take k = []
        rw [hrun]
        exact List.take_nil
      have hwhole : whole = ⟨0, [], [], some (.failed e)⟩ := hrun
      rw [hown]
      refine ⟨(resume_nil log _).1, ?_⟩
      rw [List.append_nil, (resume_nil log _).2, hrun, hwhole, List.drop_nil]
    | ok m =>
      have hrun := run_moved hrecord lines
      cases k with
      | zero =>
        intro whole own
        refine ⟨(resume_nil log _).1, ?_⟩
        change w.resume [] (log ++ []) (line :: lines) = w.run log (line :: lines)
        rw [List.append_nil]
        exact (resume_nil log _).2
      | succ k =>
        rw [hrun] at htaken ⊢
        obtain ⟨hfirst, hrest⟩ := List.forall_mem_cons.mp htaken
        obtain ⟨hrehearse, hresume⟩ := ih (log ++ [m.1]) k hrest
        have hhead : ∀ rows, take w.rowKey (w.key line) (m.1 :: rows) = some (m.1, rows) :=
          fun rows => if_pos (hkey log line m hrecord)
        dsimp only
        rw [List.take_succ_cons, List.drop_succ_cons]
        refine ⟨?_, ?_⟩
        · rw [rehearse, hhead]
          dsimp only
          rw [hfirst.accepted]
          exact hrehearse
        · have hlog := List.append_cons log m.1 ((w.run (log ++ [m.1]) lines).written.take k)
          rw [resume, hhead, hlog]
          dsimp only
          rw [hfirst.accepted, hfirst.owed, hresume]
          rfl

/-- Every refusal comes before the first write. -/
theorem rehearsed_never_refused {pool : List ρ} {lines : List ι} (h : w.rehearse pool lines = none)
    (log : List ρ) (s : σ) : (w.resume pool log lines).stopped ≠ some (.refused s) := by
  induction lines generalizing pool log with
  | nil => simp [resume]
  | cons line lines ih =>
    unfold rehearse at h
    unfold resume
    cases htake : take w.rowKey (w.key line) pool with
    | some taken =>
      obtain ⟨row, rest⟩ := taken
      rw [htake] at h
      dsimp only at h ⊢
      cases hrefusal : w.refusal row line with
      | some s => rw [hrefusal] at h; cases h
      | none =>
        rw [hrefusal] at h
        exact ih h log
    | none =>
      rw [htake] at h
      dsimp only at h ⊢
      cases w.record log line with
      | error e => simp
      | ok m => exact ih h _

/-- A rehearsal refuses exactly when some line is handed a row that is not its own. -/
theorem rehearse_none_iff {pool : List ρ} {lines : List ι} :
    w.rehearse pool lines = none ↔
      ∀ p ∈ w.hand pool lines, ∀ row, p.2 = some row → w.refusal row p.1 = none := by
  induction lines generalizing pool with
  | nil => simp [rehearse, hand]
  | cons line lines ih =>
    unfold rehearse hand
    cases take w.rowKey (w.key line) pool with
    | some taken =>
      obtain ⟨row, rest⟩ := taken
      dsimp only
      rw [List.forall_mem_cons, ← ih]
      cases hrefusal : w.refusal row line with
      | some s => simp [hrefusal]
      | none => simp [hrefusal]
    | none =>
      dsimp only
      rw [List.forall_mem_cons, ← ih]
      simp

end Work

end Caflow.Resumed
