import Caflow.Lib.Interleaving
import Caflow.Lib.Interrupted
import Caflow.Scheduler.Claims

namespace Caflow.Scheduler
open Interleaving Interrupted

def leaseSeconds : ℤ := 600

def retentionDays : ℤ := 30

/-- One thread's turn at a job of a firm. -/
structure Call where
  jobName : String
  firmId : String
  owner : String
  force : Bool

/-- A row of `scheduler_runs`. -/
structure RunRow where
  jobName : String
  runDate : ℤ
  firmId : String
  status : Status

structure Store where
  clock : ℤ
  claims : ClaimTable
  runs : List RunRow

inductive Skip where
  | alreadySucceeded
  | heldByAnother
  | retryLater
  | storeUnavailable

/-- Where a turn stands. It asks the record, claims, does the job while it renews its claim, records
the run and ends the claim; a sweep that closes forgets old claims. -/
inductive Phase where
  | begun
  | asking
  | working (key : Key) (id : ℕ)
  | ended (key : Key) (id : ℕ) (ok : Bool)
  | recorded (key : Key) (id : ℕ) (ok : Bool)
  | finished (key : Key) (ok : Bool) (held : Option Bool)
  | skipped (why : Skip)
  | closing
  | closed

/-- What becomes of a statement: how long after the last one it comes, whether the database carries
it out, whether a turn at work only renews its claim, and how its job went. -/
structure Reply where
  elapsed : ℕ
  written : Outcome Failure
  renews : Bool
  ok : Bool

def Call.ask (call : Call) (now : ℤ) : Ask :=
  ⟨⟨call.jobName, istDay now, call.firmId, ""⟩, call.owner, leaseSeconds, call.force, 0⟩

def alreadyRanToday (call : Call) (store : Store) : Bool :=
  store.runs.any fun r => r.jobName = call.jobName ∧ r.runDate = istDay store.clock ∧
    r.firmId = call.firmId ∧ r.status = .success

def answered : Outcome Failure → Bool
  | .done => true
  | _ => false

/-- A write and its answer, where it has one. -/
def Store.write (store : Store) (written : Outcome Failure) (answer : α × ClaimTable) :
    Option α × Store :=
  match written with
  | .done => (some answer.1, { store with claims := answer.2 })
  | .refused _ => (none, store)
  | .lost _ => (none, { store with claims := answer.2 })

def skipOf : Status → Skip
  | .success => .alreadySucceeded
  | .running => .heldByAnother
  | .failed => .retryLater

/-- One statement of a turn. -/
def advance (calls : ι → Call) (i : ι) (before : Store) (phase : Phase) (r : Reply) :
    Store × Phase :=
  let store := { before with clock := before.clock + r.elapsed }
  match phase with
  | .begun =>
    -- a record that cannot be read does not stop the turn
    if !(calls i).force && answered r.written && alreadyRanToday (calls i) store then
      (store, .skipped .alreadySucceeded)
    else (store, .asking)
  | .asking =>
    let ask := (calls i).ask store.clock
    let answer := store.write r.written (claimSchedulerJob store.clock store.claims ask)
    match answer.1 with
    | some (.ok (.claimed id _)) => (answer.2, .working ask.key id)
    | some (.ok (.refused status _ _)) => (answer.2, .skipped (skipOf status))
    | _ => (answer.2, .skipped .storeUnavailable)
  | .working key id =>
    if r.renews then
      ((store.write r.written
        (renewSchedulerClaim store.clock store.claims id (calls i).owner leaseSeconds)).2,
        .working key id)
    else (store, .ended key id r.ok)
  | .ended key id ok =>
    let row : RunRow := ⟨(calls i).jobName, istDay store.clock, (calls i).firmId,
      if ok then .success else .failed⟩
    match r.written with
    | .refused _ => (store, .recorded key id ok)
    | _ => ({ store with runs := store.runs ++ [row] }, .recorded key id ok)
  | .recorded key id ok =>
    let answer := store.write r.written (finishSchedulerClaim store.clock store.claims id
      (calls i).owner (if ok then .success else .failed))
    (answer.2, .finished key ok answer.1)
  | .closing =>
    ((store.write r.written ((), pruneSchedulerClaims store.clock store.claims retentionDays)).2,
      .closed)
  | .finished key ok held => (store, .finished key ok held)
  | .skipped why => (store, .skipped why)
  | .closed => (store, .closed)

/-- The claim a turn believes it holds. -/
def Phase.held : Phase → Option (Key × ℕ)
  | .working key id => some (key, id)
  | .ended key id _ => some (key, id)
  | .recorded key id _ => some (key, id)
  | _ => none

/-- The leases of the claims of a key that are held still run. -/
def Live (w : World ι Store Phase) (now : ℤ) (key : Key) : Prop :=
  ∀ j, (w.phase j).held.map Prod.fst = some key →
    ∀ row ∈ w.store.claims.rows, row.key = key → now < row.expiresAt

def Phase.asks : Phase → Bool
  | .asking => true
  | _ => false

def Phase.closes : Phase → Bool
  | .closing => true
  | _ => false

/-- A statement of a run whose holders renew in time: nobody asks for a claim when the lease of its
holder has run out, and no claim grows old enough to be forgotten while it is held. -/
def Timely (calls : ι → Call) (w : World ι Store Phase) (i : ι) (r : Reply) : Prop :=
  let now := w.store.clock + r.elapsed
  ((w.phase i).asks → Live w now ((calls i).ask now).key) ∧
    ((w.phase i).closes → ∀ j, ∀ key ∈ (w.phase j).held.map Prod.fst,
      istDay now - retentionDays ≤ key.runDate)

structure Sound (calls : ι → Call) (w : World ι Store Phase) : Prop where
  holds : Holds w.store.claims (fun i => (calls i).owner) fun i => (w.phase i).held
  told : ∀ i key ok, w.phase i ≠ .finished key ok (some false)

section
variable {ι : Type*} [DecidableEq ι] {calls : ι → Call} {w : World ι Store Phase} {i : ι}
  {store : Store} {phase : Phase} {r : Reply}

theorem held_update (phases : ι → Phase) (i : ι) (phase : Phase) :
    (fun j => (Function.update phases i phase j).held) =
      Function.update (fun j => (phases j).held) i phase.held :=
  funext fun j => Function.apply_update (fun _ => Phase.held) phases i phase j

theorem Sound.move (h : Sound calls w)
    (hholds : Holds store.claims (fun j => (calls j).owner)
      (Function.update (fun j => (w.phase j).held) i phase.held))
    (htold : ∀ key ok, phase ≠ .finished key ok (some false)) :
    Sound calls ⟨store, Function.update w.phase i phase⟩ := by
  refine ⟨?_, fun j key ok => ?_⟩
  · dsimp only
    rw [held_update]
    exact hholds
  · dsimp only
    by_cases hji : j = i
    · subst hji
      rw [Function.update_self]
      exact htold key ok
    · rw [Function.update_of_ne hji]
      exact h.told j key ok

/-- A statement that leaves the claims, and what its turn believes to hold. -/
theorem Sound.quiet (h : Sound calls w) (hclaims : store.claims = w.store.claims)
    (hheld : phase.held = (w.phase i).held)
    (htold : ∀ key ok, phase ≠ .finished key ok (some false)) :
    Sound calls ⟨store, Function.update w.phase i phase⟩ := by
  refine h.move ?_ htold
  rw [hclaims, hheld, Function.update_eq_self]
  exact h.holds

theorem write_claims (store : Store) (written : Outcome Failure) (answer : α × ClaimTable) :
    (store.write written answer).2.claims = store.claims ∨
      (store.write written answer).2.claims = answer.2 := by
  cases written with
  | done => exact .inr rfl
  | refused raised => exact .inl rfl
  | lost raised => exact .inr rfl

omit [DecidableEq ι] in
theorem live_leases {now : ℤ} {key : Key} (h : Live w now key) (j : ι) (id : ℕ)
    (hj : (w.phase j).held = some (key, id)) (row : ClaimRow)
    (hat : w.store.claims.at? key = some row) : now < row.expiresAt := by
  obtain ⟨hmem, hkey⟩ := at_mem hat
  exact h j (by rw [hj]; rfl) row hmem hkey

/-- A claim that is asked for in time: it is granted to its asker, or what is held stays. -/
theorem asked_sound (h : Sound calls w) (hasks : w.phase i = .asking) (r : Reply)
    (hlive : Live w (w.store.clock + r.elapsed) ((calls i).ask (w.store.clock + r.elapsed)).key) :
    Sound calls (step (advance calls) w (i, r)) := by
  have hnone : (w.phase i).held = none := by rw [hasks]; rfl
  have hheld : Function.update (fun j => (w.phase j).held) i none =
      fun j => (w.phase j).held := by
    rw [← hnone]
    exact Function.update_eq_self i _
  have hasked := h.holds.asked (live_leases hlive)
  unfold step advance
  rw [hasks]
  dsimp only
  cases hwritten : r.written with
  | refused raised =>
    exact h.quiet rfl hnone.symm fun _ _ hne => nomatch hne
  | lost raised =>
    refine h.move ?_ fun _ _ hne => nomatch hne
    change Holds _ _ (Function.update _ i none)
    rw [hheld]
    exact hasked
  | done =>
    unfold Store.write
    dsimp only
    split
    · rename_i id attempt hgranted
      exact h.move (h.holds.granted rfl (live_leases hlive) (Option.some.inj hgranted))
        fun _ _ hne => nomatch hne
    · refine h.move ?_ fun _ _ hne => nomatch hne
      change Holds _ _ (Function.update _ i none)
      rw [hheld]
      exact hasked
    · refine h.move ?_ fun _ _ hne => nomatch hne
      change Holds _ _ (Function.update _ i none)
      rw [hheld]
      exact hasked

/-- A turn that ends the claim it holds is told it was its own. -/
theorem finished_sound (h : Sound calls w) {key : Key} {id : ℕ} {ok : Bool}
    (hphase : w.phase i = .recorded key id ok) (r : Reply) :
    Sound calls (step (advance calls) w (i, r)) := by
  have hheld : (w.phase i).held = some (key, id) := by rw [hphase]; rfl
  obtain ⟨htold, -, -, hfinished⟩ := h.holds.finished (i := i)
    (w.store.clock + r.elapsed) hheld (if ok then Status.success else Status.failed)
  unfold step advance
  rw [hphase]
  dsimp only
  cases hwritten : r.written with
  | refused raised => exact h.move (h.holds.release i) fun _ _ hne => nomatch hne
  | lost raised => exact h.move hfinished fun _ _ hne => nomatch hne
  | done =>
    refine h.move hfinished fun key' ok' hne => ?_
    injection hne with _ _ hanswer
    exact absurd (htold.symm.trans (Option.some.inj hanswer)) Bool.noConfusion

theorem step_sound (h : Sound calls w) (htimely : Timely calls w i r) :
    Sound calls (step (advance calls) w (i, r)) := by
  obtain ⟨hasks, hcloses⟩ := htimely
  cases hphase : w.phase i with
  | begun =>
    unfold step advance
    rw [hphase]
    dsimp only
    split <;> exact h.quiet rfl (by rw [hphase]; rfl) fun _ _ hne => nomatch hne
  | asking => exact asked_sound h hphase r (hasks (by rw [hphase]; rfl))
  | working key id =>
    unfold step advance
    rw [hphase]
    dsimp only
    split
    · have hself : (Phase.working key id).held = (w.phase i).held := by rw [hphase]
      refine h.move ?_ fun _ _ hne => nomatch hne
      rw [hself, Function.update_eq_self]
      rcases write_claims { w.store with clock := w.store.clock + r.elapsed } r.written
        (renewSchedulerClaim (w.store.clock + r.elapsed) w.store.claims id (calls i).owner
          leaseSeconds) with hkeep | hrenewed
      · rw [hkeep]
        exact h.holds
      · rw [hrenewed]
        exact h.holds.renewed id _ _
    · exact h.quiet rfl (by rw [hphase]; rfl) fun _ _ hne => nomatch hne
  | ended key id ok =>
    unfold step advance
    rw [hphase]
    dsimp only
    split <;> exact h.quiet rfl (by rw [hphase]; rfl) fun _ _ hne => nomatch hne
  | recorded key id ok => exact finished_sound h hphase r
  | closing =>
    have hnone : (w.phase i).held = none := by rw [hphase]; rfl
    have hself : Phase.closed.held = (w.phase i).held := by rw [hphase]; rfl
    unfold step advance
    rw [hphase]
    refine h.move ?_ fun _ _ hne => nomatch hne
    rw [hself, Function.update_eq_self]
    rcases write_claims { w.store with clock := w.store.clock + r.elapsed } r.written
      ((), pruneSchedulerClaims (w.store.clock + r.elapsed) w.store.claims retentionDays) with
      hkeep | hpruned
    · rw [hkeep]
      exact h.holds
    · rw [hpruned]
      refine h.holds.pruned fun j key id hj => ?_
      exact hcloses (by rw [hphase]; rfl) j key (by rw [hj]; rfl)
  | finished key ok held =>
    unfold step advance
    rw [hphase]
    exact h.quiet rfl (by rw [hphase]) fun key' ok' hne =>
      h.told i key' ok' (hphase.trans hne)
  | skipped why =>
    unfold step advance
    rw [hphase]
    exact h.quiet rfl (by rw [hphase]) fun _ _ hne => nomatch hne
  | closed =>
    unfold step advance
    rw [hphase]
    exact h.quiet rfl (by rw [hphase]) fun _ _ hne => nomatch hne

omit [DecidableEq ι]

theorem write_clock (store : Store) (written : Outcome Failure) (answer : α × ClaimTable) :
    (store.write written answer).2.clock = store.clock := by
  cases written <;> rfl

theorem advance_clock (calls : ι → Call) (i : ι) (store : Store) (phase : Phase) (r : Reply) :
    (advance calls i store phase r).1.clock = store.clock + r.elapsed := by
  unfold advance
  cases phase with
  | begun =>
    dsimp only
    split <;> rfl
  | asking =>
    dsimp only
    split <;> exact write_clock _ _ _
  | working key id =>
    dsimp only
    split
    · exact write_clock _ _ _
    · rfl
  | ended key id ok =>
    dsimp only
    split <;> rfl
  | recorded key id ok => exact write_clock _ _ _
  | closing => exact write_clock _ _ _
  | finished key ok held => rfl
  | skipped why => rfl
  | closed => rfl

/-- A turn comes to believe it holds a claim only where it asks for one, of the day it asks on. -/
theorem advance_held {key : Key}
    (h : (advance calls i store phase r).2.held.map Prod.fst = some key) :
    phase.held.map Prod.fst = some key ∨ key.runDate = istDay (store.clock + r.elapsed) := by
  unfold advance at h
  cases phase with
  | begun =>
    dsimp only at h
    split at h <;> cases h
  | asking =>
    dsimp only at h
    split at h
    · right
      rw [← Option.some.inj h]
      rfl
    · cases h
    · cases h
  | working key' id =>
    dsimp only at h
    split at h <;> exact .inl h
  | ended key' id ok =>
    dsimp only at h
    split at h <;> exact .inl h
  | recorded key' id ok => cases h
  | closing => cases h
  | finished key' ok held => cases h
  | skipped why => cases h
  | closed => cases h

/-- A claim that ended well stays, until it is forgotten, where nobody forces it. -/
theorem advance_rows (phase : Phase) (hforce : (calls i).force = false) {key : Key} {row : ClaimRow}
    (hat : store.claims.at? key = some row) (hsuccess : row.status = .success) :
    (advance calls i store phase r).1.claims.at? key = some row ∨
      key.runDate < istDay (store.clock + r.elapsed) - retentionDays := by
  have hnot (id : ℕ) (owner : String) : ¬ row.heldBy id owner := by
    rintro ⟨-, -, hrunning⟩
    rw [hsuccess] at hrunning
    cases hrunning
  have hupdated (f : ClaimRow → ClaimRow) (id : ℕ) (owner : String)
      (hf : ∀ row, (f row).key = row.key) :
      (store.claims.update id owner f).2.at? key = some row := by
    rw [update_at hf, hat, Option.map_some, if_neg (hnot id owner)]
  unfold advance
  cases phase with
  | begun =>
    left
    dsimp only
    split <;> exact hat
  | asking =>
    left
    have hasked : (claimSchedulerJob (store.clock + r.elapsed) store.claims
        ((calls i).ask (store.clock + r.elapsed))).2.at? key = some row := by
      by_cases hkey : key = ((calls i).ask (store.clock + r.elapsed)).key
      · subst hkey
        rw [(claim_refused hat (.inr ⟨hsuccess, hforce⟩)).1]
        exact hat
      · rcases claim_cases (store.clock + r.elapsed) store.claims
          ((calls i).ask (store.clock + r.elapsed)) with ⟨hkeep, -⟩ | ⟨-, -, -, -, -, -, -, hothers⟩
        · rw [hkeep]
          exact hat
        · rw [hothers key hkey]
          exact hat
    dsimp only
    cases hwritten : r.written with
    | refused raised => exact hat
    | lost raised => exact hasked
    | done =>
      unfold Store.write
      dsimp only
      split <;> exact hasked
  | working key' id =>
    left
    dsimp only
    split
    · rcases write_claims { store with clock := store.clock + r.elapsed } r.written
        (renewSchedulerClaim (store.clock + r.elapsed) store.claims id (calls i).owner
          leaseSeconds) with hkeep | hrenewed
      · rw [hkeep]
        exact hat
      · rw [hrenewed]
        exact hupdated _ id _ fun _ => rfl
    · exact hat
  | ended key' id ok =>
    left
    dsimp only
    split <;> exact hat
  | recorded key' id ok =>
    left
    dsimp only
    rcases write_claims { store with clock := store.clock + r.elapsed } r.written
      (finishSchedulerClaim (store.clock + r.elapsed) store.claims id (calls i).owner
        (if ok then .success else .failed)) with hkeep | hfinished
    · rw [hkeep]
      exact hat
    · rw [hfinished]
      exact hupdated _ id _ fun _ => rfl
  | closing =>
    dsimp only
    rcases write_claims { store with clock := store.clock + r.elapsed } r.written
      ((), pruneSchedulerClaims (store.clock + r.elapsed) store.claims retentionDays) with
      hkeep | hpruned
    · rw [hkeep]
      exact .inl hat
    · rw [hpruned]
      by_cases hday : istDay (store.clock + r.elapsed) - retentionDays ≤ key.runDate
      · left
        rw [prune_at _ _ hday]
        exact hat
      · exact .inr (not_le.mp hday)
  | finished key' ok held => exact .inl hat
  | skipped why => exact .inl hat
  | closed => exact .inl hat

/-- What has been done with a key for good: its claim ended well, or it did and is forgotten. -/
def Done (w : World ι Store Phase) (key : Key) : Prop :=
  (∃ row, w.store.claims.at? key = some row ∧ row.status = .success) ∨
    key.runDate < istDay w.store.clock - retentionDays ∧
      ∀ j, (w.phase j).held.map Prod.fst ≠ some key

theorem Done.unheld (h : Sound calls w) {key : Key} (hdone : Done w key) (j : ι) :
    (w.phase j).held.map Prod.fst ≠ some key := by
  rcases hdone with ⟨row, hat, hsuccess⟩ | ⟨-, hnone⟩
  · intro hheld
    obtain ⟨⟨key', id⟩, hj, rfl⟩ := Option.map_eq_some_iff.mp hheld
    obtain ⟨row', hat', -, -, hrunning⟩ := h.holds.own j key' id hj
    rw [hat] at hat'
    rw [← Option.some.inj hat', hsuccess] at hrunning
    cases hrunning
  · exact hnone j

variable [DecidableEq ι]

theorem step_clock (calls : ι → Call) (w : World ι Store Phase) (i : ι) (r : Reply) :
    (step (advance calls) w (i, r)).store.clock = w.store.clock + r.elapsed :=
  advance_clock _ _ _ _ _

theorem step_held {j : ι} {key : Key}
    (h : ((step (advance calls) w (i, r)).phase j).held.map Prod.fst = some key) :
    (w.phase j).held.map Prod.fst = some key ∨
      key.runDate = istDay (w.store.clock + r.elapsed) := by
  unfold step at h
  dsimp only at h
  by_cases hji : j = i
  · subst hji
    rw [Function.update_self] at h
    exact advance_held h
  · rw [Function.update_of_ne hji] at h
    exact .inl h

/-- What is done for good is not begun again. -/
theorem Done.step (h : Sound calls w) (hforce : (calls i).force = false) {key : Key}
    (hdone : Done w key) : Done (step (advance calls) w (i, r)) key := by
  have hclock := step_clock calls w i r
  have hunheld (hold : key.runDate < istDay (w.store.clock + r.elapsed) - retentionDays) (j : ι) :
      ((Interleaving.step (advance calls) w (i, r)).phase j).held.map Prod.fst ≠ some key := by
    intro hheld
    rcases step_held hheld with hbefore | hday
    · exact hdone.unheld h j hbefore
    · unfold retentionDays at hold
      omega
  rcases hdone with ⟨row, hat, hsuccess⟩ | ⟨hold, hnone⟩
  · rcases advance_rows (r := r) (w.phase i) hforce hat hsuccess with hkeep | hold
    · exact .inl ⟨row, hkeep, hsuccess⟩
    · exact .inr ⟨by rw [hclock]; exact hold, hunheld hold⟩
  · have hlater : istDay w.store.clock ≤ istDay (w.store.clock + r.elapsed) :=
      ist_day_mono (by omega)
    have hold' : key.runDate < istDay (w.store.clock + r.elapsed) - retentionDays := by omega
    exact .inr ⟨by rw [hclock]; exact hold', hunheld hold'⟩

omit [DecidableEq ι] in
theorem Sound.alone (h : Sound calls w) {j k : ι} {key : Key}
    (hj : (w.phase j).held.map Prod.fst = some key)
    (hk : (w.phase k).held.map Prod.fst = some key) : j = k := by
  obtain ⟨⟨key₁, id₁⟩, hj', hkey₁⟩ := Option.map_eq_some_iff.mp hj
  obtain ⟨⟨key₂, id₂⟩, hk', hkey₂⟩ := Option.map_eq_some_iff.mp hk
  obtain rfl : key₁ = key := hkey₁
  obtain rfl : key₂ = key₁ := hkey₂
  exact h.holds.alone j k key₂ id₁ id₂ hj' hk'

/-- A job of a firm and a day has ended well once at most, and is done with. -/
structure Once (calls : ι → Call) (w : World ι Store Phase) : Prop where
  done : ∀ i key, w.phase i = .finished key true (some true) → Done w key
  one : ∀ i j key, w.phase i = .finished key true (some true) →
    w.phase j = .finished key true (some true) → i = j

end

instance [Fintype ι] (w : World ι Store Phase) (now : ℤ) (key : Key) : Decidable (Live w now key) :=
  inferInstanceAs (Decidable (∀ _, _ → _))

instance [Fintype ι] (calls : ι → Call) (w : World ι Store Phase) (i : ι) (r : Reply) :
    Decidable (Timely calls w i r) :=
  inferInstanceAs (Decidable ((_ → _) ∧ (_ → ∀ _, ∀ _ ∈ _, _)))

def after (elapsed : ℕ) (renews : Bool) : Reply := ⟨elapsed, .done, renews, true⟩

end Caflow.Scheduler
