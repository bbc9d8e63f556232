import Caflow.Failure
import Mathlib

namespace Caflow.Scheduler

/-- The day in India, counted, of a moment in seconds. -/
def istDay (moment : ℤ) : ℤ := (moment + 19800) / 86400

theorem ist_day_mono {a b : ℤ} (h : a ≤ b) : istDay a ≤ istDay b := by
  unfold istDay
  omega

inductive Status where
  | running
  | success
  | failed
  deriving DecidableEq

/-- What a claim is of: a job of a firm on a day, and which occurrence of it. -/
structure Key where
  jobName : String
  runDate : ℤ
  firmId : String
  claimKey : String
  deriving DecidableEq

/-- A row of `scheduler_claims`. -/
structure ClaimRow where
  id : ℕ
  key : Key
  owner : String
  status : Status
  attempt : ℕ
  expiresAt : ℤ
  finishedAt : Option ℤ

/-- The claims, and how many ids have been drawn for them. -/
structure ClaimTable where
  rows : List ClaimRow
  drawn : ℕ

def ClaimTable.at? (table : ClaimTable) (key : Key) : Option ClaimRow :=
  table.rows.find? fun row => row.key = key

structure Ask where
  key : Key
  owner : String
  leaseSeconds : ℤ
  force : Bool
  retryFailedAfterSeconds : ℤ

inductive ClaimAnswer where
  | claimed (id attempt : ℕ)
  | refused (status : Status) (owner : String) (expiresAt : ℤ)

/-- A claim is taken over from a holder whose lease has run out, after a failure, or by force. -/
def ClaimRow.mayTake (now : ℤ) (ask : Ask) (row : ClaimRow) : Bool :=
  match row.status with
  | .running => row.expiresAt ≤ now
  | .failed => ask.retryFailedAfterSeconds ≤ 0 ||
      row.finishedAt.all (· ≤ now - ask.retryFailedAfterSeconds)
  | .success => ask.force

def ClaimRow.taken (now : ℤ) (ask : Ask) (row : ClaimRow) : ClaimRow :=
  { row with
    owner := ask.owner
    status := .running
    attempt := row.attempt + 1
    expiresAt := now + ask.leaseSeconds
    finishedAt := none }

/-- `claim_scheduler_job`: one statement that inserts the claim, or takes it over where it may. -/
def claimSchedulerJob (now : ℤ) (table : ClaimTable) (ask : Ask) :
    Except Failure ClaimAnswer × ClaimTable :=
  if ask.leaseSeconds < 30 ∨ 86400 < ask.leaseSeconds then
    (.error (.valueError "a lease is between 30 seconds and a day"), table)
  else
    match table.at? ask.key with
    | none =>
      (.ok (.claimed table.drawn 1),
        ⟨table.rows ++
          [⟨table.drawn, ask.key, ask.owner, .running, 1, now + ask.leaseSeconds, none⟩],
          table.drawn + 1⟩)
    | some row =>
      if row.mayTake now ask then
        (.ok (.claimed row.id (row.attempt + 1)),
          { table with
            rows := table.rows.map fun r => if r.key = ask.key then r.taken now ask else r })
      else (.ok (.refused row.status row.owner row.expiresAt), table)

/-- A claim that is still its owner's. -/
def ClaimRow.heldBy (row : ClaimRow) (id : ℕ) (owner : String) : Prop :=
  row.id = id ∧ row.owner = owner ∧ row.status = .running

instance (row : ClaimRow) (id : ℕ) (owner : String) : Decidable (row.heldBy id owner) :=
  inferInstanceAs (Decidable (_ ∧ _ ∧ _))

/-- What an update does to the claims that are still their owner's, and whether there was one. -/
def ClaimTable.update (table : ClaimTable) (id : ℕ) (owner : String) (f : ClaimRow → ClaimRow) :
    Bool × ClaimTable :=
  (table.rows.any fun row => row.heldBy id owner,
    { table with rows := table.rows.map fun row => if row.heldBy id owner then f row else row })

def renewSchedulerClaim (now : ℤ) (table : ClaimTable) (id : ℕ) (owner : String)
    (leaseSeconds : ℤ) : Bool × ClaimTable :=
  table.update id owner fun row => { row with expiresAt := now + leaseSeconds }

def finishSchedulerClaim (now : ℤ) (table : ClaimTable) (id : ℕ) (owner : String)
    (status : Status) : Bool × ClaimTable :=
  table.update id owner fun row => { row with status := status, finishedAt := some now }

/-- Forget the days before so many days ago. -/
def pruneSchedulerClaims (now : ℤ) (table : ClaimTable) (olderThanDays : ℤ) : ClaimTable :=
  { table with rows := table.rows.filter fun row => istDay now - olderThanDays ≤ row.key.runDate }

/-- An id stands for one key, and none is drawn twice. -/
structure ClaimTable.Numbered (table : ClaimTable) : Prop where
  drawn : ∀ row ∈ table.rows, row.id < table.drawn
  apart : ∀ row ∈ table.rows, ∀ row' ∈ table.rows, row.id = row'.id → row.key = row'.key

section
variable {now : ℤ} {table : ClaimTable} {ask : Ask} {key : Key} {row : ClaimRow}

theorem at_mem (h : table.at? key = some row) : row ∈ table.rows ∧ row.key = key :=
  ⟨List.mem_of_find?_eq_some h, by simpa using List.find?_some h⟩

/-- A change that leaves the keys leaves each claim at its key. -/
theorem at_map {f : ClaimRow → ClaimRow} (hf : ∀ row, (f row).key = row.key) (rows : List ClaimRow)
    (n m : ℕ) (key : Key) :
    (ClaimTable.mk (rows.map f) n).at? key = ((ClaimTable.mk rows m).at? key).map f := by
  unfold ClaimTable.at?
  dsimp only
  rw [List.find?_map]
  simp only [Function.comp_def, hf]

theorem numbered_map {f : ClaimRow → ClaimRow} (h : table.Numbered)
    (hf : ∀ row, (f row).key = row.key ∧ (f row).id = row.id) :
    (ClaimTable.mk (table.rows.map f) table.drawn).Numbered := by
  refine ⟨fun row hrow => ?_, fun row hrow row' hrow' hid => ?_⟩
  · obtain ⟨a, ha, rfl⟩ := List.mem_map.mp hrow
    rw [(hf a).2]
    exact h.drawn a ha
  · obtain ⟨a, ha, rfl⟩ := List.mem_map.mp hrow
    obtain ⟨b, hb, rfl⟩ := List.mem_map.mp hrow'
    rw [(hf a).2, (hf b).2] at hid
    rw [(hf a).1, (hf b).1]
    exact h.apart a ha b hb hid

/-- Everything a claim can come to: it is not granted and changes nothing, or it is granted, and
its row is the asker's, of its key alone. -/
theorem claim_cases (now : ℤ) (table : ClaimTable) (ask : Ask) :
    (claimSchedulerJob now table ask).2 = table ∧
      (∀ id attempt, (claimSchedulerJob now table ask).1 ≠ .ok (.claimed id attempt)) ∨
    ∃ row, (table.at? ask.key = none ∧ row.id = table.drawn ∨
        ∃ before, table.at? ask.key = some before ∧ before.mayTake now ask = true ∧
          row.id = before.id ∧ row.attempt = before.attempt + 1) ∧
      (claimSchedulerJob now table ask).1 = .ok (.claimed row.id row.attempt) ∧
      (claimSchedulerJob now table ask).2.at? ask.key = some row ∧
      row.owner = ask.owner ∧ row.status = .running ∧ row.expiresAt = now + ask.leaseSeconds ∧
      ∀ key, key ≠ ask.key → (claimSchedulerJob now table ask).2.at? key = table.at? key := by
  unfold claimSchedulerJob
  split_ifs
  · exact .inl ⟨rfl, fun _ _ h => nomatch h⟩
  · cases hat : table.at? ask.key with
    | none =>
      refine .inr ⟨⟨table.drawn, ask.key, ask.owner, .running, 1, now + ask.leaseSeconds, none⟩,
        .inl ⟨rfl, rfl⟩, rfl, ?_, rfl, rfl, rfl, fun key hkey => ?_⟩
      · unfold ClaimTable.at? at hat ⊢
        dsimp only
        rw [List.find?_append, hat]
        simp
      · unfold ClaimTable.at?
        dsimp only
        rw [List.find?_append, List.find?_singleton]
        simp [Ne.symm hkey]
    | some row =>
      dsimp only
      obtain ⟨-, hkey⟩ := at_mem hat
      have hkeys : ∀ r : ClaimRow,
          (if r.key = ask.key then r.taken now ask else r).key = r.key := by
        intro r
        split <;> rfl
      split_ifs with hmay
      · refine .inr ⟨row.taken now ask, .inr ⟨row, rfl, hmay, rfl, rfl⟩, rfl, ?_, rfl, rfl, rfl,
          fun key hother => ?_⟩
        · rw [at_map hkeys _ _ table.drawn]
          change (table.at? ask.key).map _ = _
          rw [hat, Option.map_some, if_pos hkey]
        · rw [at_map hkeys _ _ table.drawn]
          change (table.at? key).map _ = table.at? key
          cases hat' : table.at? key with
          | none => rfl
          | some r =>
            rw [Option.map_some, if_neg fun h => hother ((at_mem hat').2.symm.trans h)]
      · exact .inl ⟨rfl, fun _ _ h => nomatch h⟩

theorem claim_numbered (h : table.Numbered) :
    (claimSchedulerJob now table ask).2.Numbered := by
  unfold claimSchedulerJob
  split_ifs
  · exact h
  · cases hat : table.at? ask.key with
    | none =>
      refine ⟨fun row hrow => ?_, fun row hrow row' hrow' hid => ?_⟩
      · rcases List.mem_append.mp hrow with hold | hnew
        · exact (h.drawn row hold).trans (Nat.lt_succ_self _)
        · rw [List.mem_singleton.mp hnew]
          exact Nat.lt_succ_self _
      · rcases List.mem_append.mp hrow with hold | hnew <;>
          rcases List.mem_append.mp hrow' with hold' | hnew'
        · exact h.apart row hold row' hold' hid
        · rw [List.mem_singleton.mp hnew'] at hid
          exact absurd hid (h.drawn row hold).ne
        · rw [List.mem_singleton.mp hnew] at hid
          exact absurd hid.symm (h.drawn row' hold').ne
        · rw [List.mem_singleton.mp hnew, List.mem_singleton.mp hnew']
    | some row =>
      dsimp only
      split_ifs
      · refine numbered_map h fun r => ?_
        split <;> exact ⟨rfl, rfl⟩
      · exact h

section
variable {id : ℕ} {owner : String} {f : ClaimRow → ClaimRow}

theorem update_at (hf : ∀ row, (f row).key = row.key) (key : Key) :
    (table.update id owner f).2.at? key =
      (table.at? key).map fun row => if row.heldBy id owner then f row else row := by
  refine at_map (fun row => ?_) _ _ table.drawn key
  split
  · exact hf row
  · rfl

theorem update_numbered (h : table.Numbered)
    (hf : ∀ row, (f row).key = row.key ∧ (f row).id = row.id) :
    (table.update id owner f).2.Numbered := by
  refine numbered_map h fun row => ?_
  split
  · exact hf row
  · exact ⟨rfl, rfl⟩

theorem update_found (hrow : row ∈ table.rows) (hheld : row.heldBy id owner) :
    (table.update id owner f).1 = true :=
  List.any_eq_true.mpr ⟨row, hrow, decide_eq_true hheld⟩

end

theorem renew_at (id : ℕ) (owner : String) (seconds : ℤ) (key : Key) :
    (renewSchedulerClaim now table id owner seconds).2.at? key =
      (table.at? key).map fun row =>
        if row.heldBy id owner then { row with expiresAt := now + seconds } else row := by
  unfold renewSchedulerClaim
  rw [update_at]
  exact fun _ => rfl

theorem finish_at (id : ℕ) (owner : String) (status : Status) (key : Key) :
    (finishSchedulerClaim now table id owner status).2.at? key =
      (table.at? key).map fun row =>
        if row.heldBy id owner then { row with status := status, finishedAt := some now }
        else row := by
  unfold finishSchedulerClaim
  rw [update_at]
  exact fun _ => rfl

theorem prune_at (now olderThanDays : ℤ) (h : istDay now - olderThanDays ≤ key.runDate) :
    (pruneSchedulerClaims now table olderThanDays).at? key = table.at? key := by
  unfold ClaimTable.at? pruneSchedulerClaims
  dsimp only
  rw [List.find?_filter]
  congr 1
  funext row
  by_cases hkey : row.key = key
  · subst hkey
    simp [h]
  · simp [hkey]

theorem prune_numbered (h : table.Numbered) (now olderThanDays : ℤ) :
    (pruneSchedulerClaims now table olderThanDays).Numbered :=
  ⟨fun row hrow => h.drawn row (List.mem_filter.mp hrow).1,
    fun row hrow row' hrow' => h.apart row (List.mem_filter.mp hrow).1 row'
      (List.mem_filter.mp hrow').1⟩

/-- Nobody is granted a claim whose lease still runs, and nobody without force one that ended
well. -/
theorem claim_refused (hat : table.at? ask.key = some row)
    (h : row.status = .running ∧ now < row.expiresAt ∨ row.status = .success ∧ ask.force = false) :
    (claimSchedulerJob now table ask).2 = table ∧
      ∀ id attempt, (claimSchedulerJob now table ask).1 ≠ .ok (.claimed id attempt) := by
  rcases claim_cases now table ask with hkeep | ⟨granted, hbefore, -⟩
  · exact hkeep
  · rcases hbefore with ⟨hnone, -⟩ | ⟨before, hsome, hmay, -⟩
    · rw [hat] at hnone
      cases hnone
    · rw [hat] at hsome
      rw [← Option.some.inj hsome] at hmay
      unfold ClaimRow.mayTake at hmay
      rcases h with ⟨hstatus, hlease⟩ | ⟨hstatus, hforce⟩
      · rw [hstatus] at hmay
        exact absurd (of_decide_eq_true hmay) (not_le.mpr hlease)
      · rw [hstatus, hforce] at hmay
        cases hmay

end

/-- What is believed is so: each claim that is believed held is held, and by one alone. -/
structure Holds (table : ClaimTable) (owner : ι → String) (held : ι → Option (Key × ℕ)) : Prop where
  numbered : table.Numbered
  own : ∀ i key id, held i = some (key, id) →
    ∃ row, table.at? key = some row ∧ row.heldBy id (owner i)
  alone : ∀ i j key id id', held i = some (key, id) → held j = some (key, id') → i = j

section
variable {ι : Type*} [DecidableEq ι] {table : ClaimTable} {owner : ι → String}
  {held : ι → Option (Key × ℕ)} {i : ι} {now : ℤ}

theorem Holds.release (h : Holds table owner held) (i : ι) :
    Holds table owner (Function.update held i none) := by
  have hkept : ∀ j key id, Function.update held i none j = some (key, id) →
      held j = some (key, id) := by
    intro j key id hj
    by_cases hji : j = i
    · subst hji
      rw [Function.update_self] at hj
      cases hj
    · rwa [Function.update_of_ne hji] at hj
  exact ⟨h.numbered, fun j key id hj => h.own j key id (hkept j key id hj),
    fun j k key id id' hj hk => h.alone j k key id id' (hkept j key id hj) (hkept k key id' hk)⟩

omit [DecidableEq ι] in
/-- A claim is granted only where nobody believes to hold it, if every lease still runs. -/
theorem Holds.granted_free (h : Holds table owner held) {ask : Ask}
    (hlive : ∀ j id, held j = some (ask.key, id) → ∀ row, table.at? ask.key = some row →
      now < row.expiresAt)
    (hchanged : (claimSchedulerJob now table ask).2 ≠ table ∨
      ∃ id attempt, (claimSchedulerJob now table ask).1 = .ok (.claimed id attempt))
    (j : ι) (id : ℕ) : held j ≠ some (ask.key, id) := by
  intro hj
  obtain ⟨row, hat, -, -, hrunning⟩ := h.own j ask.key id hj
  obtain ⟨hkeep, hnone⟩ := claim_refused hat (.inl ⟨hrunning, hlive j id hj row hat⟩)
  rcases hchanged with hne | ⟨id', attempt, hgranted⟩
  · exact hne hkeep
  · exact hnone id' attempt hgranted

omit [DecidableEq ι] in
theorem Holds.asked (h : Holds table owner held) {ask : Ask}
    (hlive : ∀ j id, held j = some (ask.key, id) → ∀ row, table.at? ask.key = some row →
      now < row.expiresAt) :
    Holds (claimSchedulerJob now table ask).2 owner held := by
  refine ⟨claim_numbered h.numbered, fun j key id hj => ?_, h.alone⟩
  obtain ⟨row, hat, hheld⟩ := h.own j key id hj
  refine ⟨row, ?_, hheld⟩
  rcases claim_cases now table ask with ⟨hkeep, -⟩ | ⟨granted, -, hok, -, -, -, -, hothers⟩
  · rw [hkeep]
    exact hat
  · have hother : key ≠ ask.key := by
      rintro rfl
      exact h.granted_free hlive (.inr ⟨_, _, hok⟩) j id hj
    rw [hothers key hother]
    exact hat

/-- Who is granted a claim holds it. -/
theorem Holds.granted (h : Holds table owner held) {ask : Ask} (howner : ask.owner = owner i)
    (hlive : ∀ j id, held j = some (ask.key, id) → ∀ row, table.at? ask.key = some row →
      now < row.expiresAt)
    {id attempt : ℕ} (hgranted : (claimSchedulerJob now table ask).1 = .ok (.claimed id attempt)) :
    Holds (claimSchedulerJob now table ask).2 owner
      (Function.update held i (some (ask.key, id))) := by
  have hasked := h.asked hlive
  have hfree := h.granted_free hlive (.inr ⟨id, attempt, hgranted⟩)
  refine ⟨hasked.numbered, fun j key id' hj => ?_, fun j k key id₁ id₂ hj hk => ?_⟩
  · by_cases hji : j = i
    · subst hji
      rw [Function.update_self] at hj
      obtain ⟨rfl, rfl⟩ := Prod.mk.inj (Option.some.inj hj)
      rcases claim_cases now table ask with
        ⟨-, hnone⟩ | ⟨row, -, hok, hat, hrow, hrunning, -⟩
      · exact absurd hgranted (hnone _ _)
      · rw [hok] at hgranted
        refine ⟨row, hat, ?_, hrow.trans howner, hrunning⟩
        injection hgranted with hclaimed
        injection hclaimed
    · rw [Function.update_of_ne hji] at hj
      exact hasked.own j key id' hj
  · by_cases hji : j = i <;> by_cases hki : k = i
    · rw [hji, hki]
    · subst hji
      rw [Function.update_self] at hj
      rw [Function.update_of_ne hki] at hk
      obtain ⟨rfl, rfl⟩ := Prod.mk.inj (Option.some.inj hj)
      exact absurd hk (hfree k id₂)
    · subst hki
      rw [Function.update_self] at hk
      rw [Function.update_of_ne hji] at hj
      obtain ⟨rfl, rfl⟩ := Prod.mk.inj (Option.some.inj hk)
      exact absurd hj (hfree j id₁)
    · rw [Function.update_of_ne hji] at hj
      rw [Function.update_of_ne hki] at hk
      exact h.alone j k key id₁ id₂ hj hk

omit [DecidableEq ι] in
theorem Holds.renewed (h : Holds table owner held) (id : ℕ) (own : String) (seconds : ℤ) :
    Holds (renewSchedulerClaim now table id own seconds).2 owner held := by
  refine ⟨update_numbered h.numbered fun _ => ⟨rfl, rfl⟩, fun j key id' hj => ?_, h.alone⟩
  obtain ⟨row, hat, hheld⟩ := h.own j key id' hj
  refine ⟨if row.heldBy id own then { row with expiresAt := now + seconds } else row, ?_, ?_⟩
  · rw [renew_at, hat, Option.map_some]
  · split <;> exact hheld

/-- Who ends a claim it holds is told so, and leaves the claims of the others. -/
theorem Holds.finished (h : Holds table owner held) (now : ℤ) {key : Key} {id : ℕ}
    (hi : held i = some (key, id)) (status : Status) :
    (finishSchedulerClaim now table id (owner i) status).1 = true ∧
      (∃ row, (finishSchedulerClaim now table id (owner i) status).2.at? key = some row ∧
        row.status = status) ∧
      (∀ key', key' ≠ key →
        (finishSchedulerClaim now table id (owner i) status).2.at? key' = table.at? key') ∧
      Holds (finishSchedulerClaim now table id (owner i) status).2 owner
        (Function.update held i none) := by
  obtain ⟨row, hat, hheld⟩ := h.own i key id hi
  have hothers : ∀ key', key' ≠ key →
      (finishSchedulerClaim now table id (owner i) status).2.at? key' = table.at? key' := by
    intro key' hother
    rw [finish_at]
    cases hat' : table.at? key' with
    | none => rfl
    | some row' =>
      have hnot : ¬ row'.heldBy id (owner i) := by
        intro hheld'
        obtain ⟨hmem, hkey⟩ := at_mem hat
        obtain ⟨hmem', hkey'⟩ := at_mem hat'
        have hsame := h.numbered.apart row' hmem' row hmem (hheld'.1.trans hheld.1.symm)
        exact hother (hkey'.symm.trans (hsame.trans hkey))
      rw [Option.map_some, if_neg hnot]
  refine ⟨update_found (at_mem hat).1 hheld, ?_, hothers, ?_⟩
  · refine ⟨{ row with status := status, finishedAt := some now }, ?_, rfl⟩
    rw [finish_at, hat, Option.map_some, if_pos hheld]
  · have hfree := h.release i
    refine ⟨update_numbered h.numbered fun _ => ⟨rfl, rfl⟩, fun j key' id' hj => ?_, hfree.alone⟩
    have hji : j ≠ i := by
      rintro rfl
      rw [Function.update_self] at hj
      cases hj
    rw [Function.update_of_ne hji] at hj
    have hother : key' ≠ key := by
      rintro rfl
      exact hji (h.alone j i key' id' id hj hi)
    rw [hothers key' hother]
    exact h.own j key' id' hj

omit [DecidableEq ι] in
theorem Holds.pruned (h : Holds table owner held) {days : ℤ}
    (hkept : ∀ j key id, held j = some (key, id) → istDay now - days ≤ key.runDate) :
    Holds (pruneSchedulerClaims now table days) owner held := by
  refine ⟨prune_numbered h.numbered now days, fun j key id hj => ?_, h.alone⟩
  rw [prune_at now days (hkept j key id hj)]
  exact h.own j key id hj

end

end Caflow.Scheduler
