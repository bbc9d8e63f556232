import Caflow.Recurring.OncePerOccurrence

namespace Caflow.Recurring
open Interleaving
open Calendar (Day)

/-- The occurrences a run is to see to: up to its date, within the template's end and the catch-up
bound from where its schedule stood. -/
def Wanted (asOf : Day) (t : Template) (n₀ j : ℕ) : Prop :=
  t.schedule j ≤ asOf ∧ (∀ last, t.endDate = some last → t.schedule j ≤ last) ∧
    j < n₀ + maxCatchupPerRun

def Settled (s : Store) (asOf : Day) (t : Template) : Prop :=
  ∀ n₀, t.nextRunDate = some (t.schedule n₀) → ∀ j, Wanted asOf t n₀ j →
    Stamped s (t.id, t.schedule j)

theorem Settled.grow {s s' : Store} {asOf : Day} {t : Template} (h : Settled s asOf t)
    (hgrows : Grows s s') : Settled s' asOf t := fun n₀ hnext j hj =>
  hgrows.stamped _ (h n₀ hnext j hj)

/-- A template is left when its next occurrence is not due in this run: none after it is either. -/
theorem settled_of_not_due {s : Store} {asOf : Day} {t : Template} {n₀ steps : ℕ}
    (hnext : t.nextRunDate = some (t.schedule n₀)) (hcovered : Covered s t (n₀ + steps))
    (hdue : due asOf t (t.schedule (n₀ + steps)) steps = false) : Settled s asOf t := by
  intro n hn j hwanted
  have hsame : n₀ = n := (occurrence_strict t.frequency t.startDate).injective
    (Option.some.inj (hnext.symm.trans hn))
  subst hsame
  by_cases hj : j < n₀ + steps
  · exact hcovered j hj
  · obtain ⟨hasOf, hend, hbound⟩ := hwanted
    have hle : t.schedule (n₀ + steps) ≤ t.schedule j :=
      (occurrence_strict t.frequency t.startDate).monotone (not_lt.mp hj)
    have hstill : due asOf t (t.schedule (n₀ + steps)) steps = true := by
      unfold due
      rw [Bool.and_eq_true, Bool.and_eq_true, decide_eq_true_eq, decide_eq_true_eq]
      refine ⟨⟨hle.trans hasOf, ?_⟩, by omega⟩
      cases hlast : t.endDate with
      | none => rfl
      | some last => simpa using hle.trans (hend last hlast)
    rw [hdue] at hstill
    cases hstill

/-- How far the last call has come: it is at a step of its template, and those behind it are
settled. -/
structure Job.Underway (s : Store) (asOf : Day) (ts : List Template) (job : Job) : Prop where
  counted : ∃ n₀, job.template.nextRunDate = some (job.template.schedule n₀) ∧
    job.occ = job.template.schedule (n₀ + job.steps)
  others : ∀ t ∈ ts, t = job.template ∨ t ∈ job.rest ∨ Settled s asOf t

/-- The phases of a call whose draft lost to another's. -/
def Phase.beaten : Phase → Bool
  | .deleteLines _ _ | .deleteDraft _ _ | .findWinner _ => true
  | _ => false

/-- The phases of a call that has begun and that nothing has failed. -/
def Phase.going : Phase → Bool
  | .begin | .recordFailed _ => false
  | _ => true

structure Progress (s : Store) (asOf : Day) (ts : List Template) (p : Phase) : Prop where
  going : p.going
  underway : ∀ job, p.job = some job → job.Underway s asOf ts
  beaten : ∀ job, p.job = some job → p.beaten → Stamped s job.key
  settled : p = .ended → ∀ t ∈ ts, Settled s asOf t

theorem Job.Underway.grow {s s' : Store} {asOf : Day} {ts : List Template} {job : Job}
    (h : job.Underway s asOf ts) (hgrows : Grows s s') : job.Underway s' asOf ts := by
  refine ⟨h.counted, fun t ht => ?_⟩
  rcases h.others t ht with hown | hrest | hsettled
  · exact Or.inl hown
  · exact Or.inr (Or.inl hrest)
  · exact Or.inr (Or.inr (hsettled.grow hgrows))

theorem progress_next_template {s : Store} {asOf : Day} {ts rest : List Template}
    (hts : ∀ t ∈ ts, t ∈ rest ∨ Settled s asOf t) (hknown : ∀ t ∈ rest, Known s t) :
    Progress s asOf ts (nextTemplate asOf rest) := by
  induction rest with
  | nil =>
    refine ⟨rfl, fun job hjob => absurd hjob (Option.some_ne_none job).symm,
      fun job hjob => absurd hjob (Option.some_ne_none job).symm, fun _ t ht => ?_⟩
    rcases hts t ht with hmem | hsettled
    · cases hmem
    · exact hsettled
  | cons first rest ih =>
    have hrest : ∀ u ∈ rest, Known s u := fun u hu => hknown u (List.mem_cons_of_mem _ hu)
    obtain ⟨n₀, hnext, hcovered⟩ := (hknown first List.mem_cons_self).reached
    unfold nextTemplate
    rw [hnext]
    dsimp only
    split
    · refine ⟨rfl, ?_, fun job _ hbeaten => absurd hbeaten Bool.false_ne_true,
        fun hended => by cases hended⟩
      rintro job hjob
      cases hjob
      refine ⟨⟨n₀, hnext, rfl⟩, fun t ht => ?_⟩
      rcases hts t ht with hmem | hsettled
      · rcases List.mem_cons.mp hmem with hfirst | hlater
        · exact Or.inl hfirst
        · exact Or.inr (Or.inl hlater)
      · exact Or.inr (Or.inr hsettled)
    · rename_i hdue
      refine ih (fun t ht => ?_) hrest
      rcases hts t ht with hmem | hsettled
      · rcases List.mem_cons.mp hmem with rfl | hlater
        · exact Or.inr (@settled_of_not_due _ _ _ _ 0 hnext hcovered (by simpa using hdue))
        · exact Or.inl hlater
      · exact Or.inr hsettled

/-- A job that goes on with the same occurrence. -/
theorem Job.Underway.progress {s : Store} {asOf : Day} {ts : List Template} {job : Job}
    (h : job.Underway s asOf ts) {p : Phase} (hjob : p.job = some job)
    (hgoing : p.going) (hbeaten : p.beaten → Stamped s job.key) :
    Progress s asOf ts p := by
  refine ⟨hgoing, fun job' hjob' => ?_, fun job' hjob' hlost => ?_, ?_⟩
  · rw [hjob] at hjob'
    cases hjob'
    exact h
  · rw [hjob] at hjob'
    cases hjob'
    exact hbeaten hlost
  · rintro rfl
    cases hjob

theorem careful_done (i : ι) (s : Store) (p : Phase) : Careful i s p .done := by
  unfold Careful
  split
  · exact fun _ => rfl
  · exact Or.inl rfl
  · rfl
  · rfl
  · trivial

theorem Job.Underway.next_step {s : Store} {asOf : Day} {ts : List Template} {job : Job}
    (h : job.Underway s asOf ts) (hstands : job.Stands s) (hstamped : Stamped s job.key) :
    Progress s asOf ts (nextStep asOf job) := by
  obtain ⟨n₀, hnext, hocc⟩ := h.counted
  obtain ⟨n, hat, hcovered⟩ := hstands.reached
  have hn : n = n₀ + job.steps := (occurrence_strict _ _).injective (hat.symm.trans hocc)
  subst hn
  have hafter : nextOccurrence job.template.frequency job.template.startDate job.occ =
      job.template.schedule (n₀ + (job.steps + 1)) := by
    rw [hocc]
    exact next_occurrence_succ _ _ _
  have hmore : Covered s job.template (n₀ + (job.steps + 1)) := by
    refine hcovered.succ ?_
    rw [← hocc]
    exact hstamped
  unfold nextStep
  dsimp only
  split
  · refine @Job.Underway.progress _ _ _ { job with
      occ := nextOccurrence job.template.frequency job.template.startDate job.occ
      steps := job.steps + 1 } ⟨⟨n₀, hnext, hafter⟩, h.others⟩ _ rfl rfl nofun
  · rename_i hdue
    refine progress_next_template (fun t ht => ?_) hstands.rest
    rcases h.others t ht with rfl | hrest | hsettled
    · rw [hafter] at hdue
      exact Or.inr (settled_of_not_due hnext hmore (by simpa using hdue))
    · exact Or.inl hrest
    · exact Or.inr hsettled

theorem Progress.step {call : Call} {s : Store} {ts : List Template} {p : Phase} (hready : Ready s p)
    (h : Progress s call.asOf ts p) :
    Progress (advanceCall call s p .done).1 call.asOf ts (advanceCall call s p .done).2 := by
  have hgrows := (@advance_call_moves call _ _ _ hready (careful_done () s p)).grows
  unfold advanceCall at hgrows ⊢
  cases p with
  | begin => exact absurd h.going Bool.false_ne_true
  | look job =>
    have hunderway := h.underway job rfl
    dsimp only
    rw [if_pos rfl]
    split
    · exact hunderway.progress rfl rfl nofun
    · exact hunderway.progress rfl rfl nofun
  | create job => exact ((h.underway job rfl).grow hgrows).progress rfl rfl nofun
  | stamp job draft =>
    have hunderway := h.underway job rfl
    dsimp only at hgrows ⊢
    split
    · rename_i hdup
      exact hunderway.progress rfl rfl fun _ => stamped_of_duplicate hdup
    · rename_i hfree
      rw [if_neg hfree] at hgrows
      exact (hunderway.grow hgrows).progress rfl rfl nofun
  | deleteLines job draft =>
    have hstamped := hgrows.stamped _ (h.beaten job rfl rfl)
    exact ((h.underway job rfl).grow hgrows).progress rfl rfl fun _ => hstamped
  | deleteDraft job draft =>
    have hstamped := hgrows.stamped _ (h.beaten job rfl rfl)
    exact ((h.underway job rfl).grow hgrows).progress rfl rfl fun _ => hstamped
  | findWinner job =>
    obtain ⟨winner, hwinner⟩ :=
      Option.isSome_iff_exists.mp (find_of_stamped (h.beaten job rfl rfl))
    dsimp only
    rw [if_pos rfl, hwinner]
    exact (h.underway job rfl).progress rfl rfl nofun
  | record job invoice => exact ((h.underway job rfl).grow hgrows).progress rfl rfl nofun
  | recordFailed job => exact absurd h.going Bool.false_ne_true
  | setNext job =>
    have hstands := (hready.standing.job job rfl).grow hgrows
    have hstamped := hgrows.stamped _ (hready.standing.past job rfl rfl)
    exact ((h.underway job rfl).grow hgrows).next_step hstands hstamped
  | ended =>
    exact ⟨h.going, h.underway, h.beaten, h.settled⟩

/-! ### The last call comes to its end -/

def Job.weight (job : Job) : ℕ := job.rest.length * 1300 + (maxCatchupPerRun - job.steps) * 10

/-- What a call still has before it, at the most. -/
def Phase.rank : Phase → ℕ
  | .begin | .ended => 0
  | .look job => job.weight + 9
  | .create job => job.weight + 8
  | .stamp job _ => job.weight + 7
  | .deleteLines job _ => job.weight + 6
  | .deleteDraft job _ => job.weight + 5
  | .findWinner job => job.weight + 4
  | .record job _ => job.weight + 3
  | .recordFailed job => job.weight + 2
  | .setNext job => job.weight + 1

theorem rank_next_template (asOf : Day) (ts : List Template) :
    (nextTemplate asOf ts).rank ≤ ts.length * 1300 := by
  induction ts with
  | nil => exact Nat.le_refl 0
  | cons t rest ih =>
    have hrest : (nextTemplate asOf rest).rank ≤ (t :: rest).length * 1300 :=
      ih.trans (Nat.mul_le_mul_right 1300 (Nat.le_succ _))
    unfold nextTemplate
    split
    · exact hrest
    · split
      · simp only [Phase.rank, Job.weight, maxCatchupPerRun, List.length_cons]
        clear ih hrest
        omega
      · exact hrest

theorem rank_next_step (asOf : Day) (job : Job) : (nextStep asOf job).rank < job.weight + 1 := by
  unfold nextStep
  dsimp only
  split
  · rename_i hdue
    unfold due at hdue
    rw [Bool.and_eq_true, decide_eq_true_eq] at hdue
    have hsteps := hdue.2
    simp only [Phase.rank, Job.weight]
    omega
  · exact Nat.lt_succ_of_le ((rank_next_template asOf job.rest).trans (Nat.le_add_right _ _))

theorem next_template_begun (asOf : Day) (ts : List Template) : nextTemplate asOf ts ≠ .begin := by
  induction ts with
  | nil => nofun
  | cons t rest ih =>
    unfold nextTemplate
    split
    · exact ih
    · split
      · nofun
      · exact ih

theorem rank_step (call : Call) (s : Store) {p : Phase} (hbegin : p ≠ .begin) (hended : p ≠ .ended) :
    (advanceCall call s p .done).2.rank < p.rank ∧ (advanceCall call s p .done).2 ≠ .begin := by
  have hrest : ∀ job : Job, (nextTemplate call.asOf job.rest).rank ≤ job.weight := by
    intro job
    exact (rank_next_template call.asOf job.rest).trans (Nat.le_add_right _ _)
  unfold advanceCall
  cases p with
  | begin => exact absurd rfl hbegin
  | ended => exact absurd rfl hended
  | look job =>
    dsimp only
    rw [if_pos rfl]
    split
    · exact ⟨by simp only [Phase.rank]; omega, nofun⟩
    · exact ⟨by simp only [Phase.rank]; omega, nofun⟩
  | create job => exact ⟨by simp only [Phase.rank]; omega, nofun⟩
  | stamp job draft =>
    dsimp only
    split
    · exact ⟨by simp only [Phase.rank]; omega, nofun⟩
    · exact ⟨by simp only [Phase.rank, if_true]; omega, nofun⟩
  | deleteLines job draft => exact ⟨by simp only [Phase.rank, if_true]; omega, nofun⟩
  | deleteDraft job draft => exact ⟨by simp only [Phase.rank, if_true]; omega, nofun⟩
  | findWinner job =>
    dsimp only
    rw [if_pos rfl]
    split
    · exact ⟨by simp only [Phase.rank]; omega, nofun⟩
    · exact ⟨Nat.lt_of_le_of_lt (hrest job) (Nat.lt_add_of_pos_right (by decide)), next_template_begun _ _⟩
  | record job invoice => exact ⟨by simp only [Phase.rank]; omega, nofun⟩
  | recordFailed job =>
    exact ⟨Nat.lt_of_le_of_lt (hrest job) (Nat.lt_add_of_pos_right (by decide)), next_template_begun _ _⟩
  | setNext job =>
    refine ⟨rank_next_step call.asOf job, ?_⟩
    dsimp only
    rw [if_pos rfl]
    unfold nextStep
    dsimp only
    split
    · nofun
    · exact next_template_begun _ _

variable [DecidableEq ι]

/-- A call that runs on undisturbed, every statement of it done. -/
def undisturbed (calls : ι → Call) (k : ι) (n : ℕ) (w : World ι Store Phase) : World ι Store Phase :=
  run (advance calls) w (List.replicate n (k, .done))

theorem undisturbed_succ (calls : ι → Call) (k : ι) (n : ℕ) (w : World ι Store Phase) :
    undisturbed calls k (n + 1) w = undisturbed calls k n (step (advance calls) w (k, .done)) := rfl

theorem step_phase (calls : ι → Call) (k : ι) (w : World ι Store Phase) :
    (step (advance calls) w (k, .done)).store = (advanceCall (calls k) w.store (w.phase k) .done).1 ∧
      (step (advance calls) w (k, .done)).phase k =
        (advanceCall (calls k) w.store (w.phase k) .done).2 := by
  constructor
  · rfl
  · unfold step
    dsimp only
    rw [Function.update_self]
    rfl

theorem undisturbed_ends (calls : ι → Call) (k : ι) (w : World ι Store Phase)
    (hbegin : w.phase k ≠ .begin) : ∃ n, (undisturbed calls k n w).phase k = .ended := by
  induction hrank : (w.phase k).rank using Nat.strong_induction_on generalizing w with
  | _ rank ih =>
    by_cases hended : w.phase k = .ended
    · exact ⟨0, hended⟩
    · obtain ⟨hless, hbegun⟩ := rank_step (calls k) w.store hbegin hended
      rw [← (step_phase calls k w).2] at hless hbegun
      obtain ⟨n, hn⟩ := ih _ (hrank ▸ hless) _ hbegun rfl
      exact ⟨n + 1, hn⟩

/-- The first statement of a call reads its templates. -/
theorem step_begin {calls : ι → Call} {k : ι} {w : World ι Store Phase} (hbegin : w.phase k = .begin) :
    (step (advance calls) w (k, .done)).store = w.store ∧
      (step (advance calls) w (k, .done)).phase k =
        nextTemplate (calls k).asOf ((calls k).templates w.store) := by
  obtain ⟨hstore, hphase⟩ := step_phase calls k w
  rw [hstore, hphase, hbegin]
  exact ⟨rfl, rfl⟩

/-- Only one call moves: the others stand where they stood. -/
theorem undisturbed_others (calls : ι → Call) {k j : ι} (hj : j ≠ k) (n : ℕ)
    (w : World ι Store Phase) : (undisturbed calls k n w).phase j = w.phase j := by
  induction n generalizing w with
  | zero => rfl
  | succ n ih =>
    rw [undisturbed_succ, ih]
    exact Function.update_of_ne hj _ _

theorem undisturbed_sound {calls : ι → Call} {k : ι} {w : World ι Store Phase} (h : Sound w)
    {ts : List Template} (hprogress : Progress w.store (calls k).asOf ts (w.phase k)) (n : ℕ) :
    Sound (undisturbed calls k n w) ∧ Progress (undisturbed calls k n w).store (calls k).asOf ts
      ((undisturbed calls k n w).phase k) := by
  induction n generalizing w with
  | zero => exact ⟨h, hprogress⟩
  | succ n ih =>
    rw [undisturbed_succ]
    refine ih (h.step (careful_done k _ _)) ?_
    obtain ⟨hstore, hphase⟩ := step_phase calls k w
    rw [hstore, hphase]
    exact hprogress.step (h.ready k)

/-! ### Exactly once -/

/-- An occurrence has one draft, of all that were made for it. -/
def Once (s : Store) (t : Template) (j : ℕ) : Prop :=
  (s.drafts.filter (·.madeFor = (t.id, t.schedule j))).length = 1

omit [DecidableEq ι] in
theorem Sound.once {w : World ι Store Phase} (h : Sound w)
    (hfree : ∀ i, (w.phase i).holding = none) {t : Template} {j : ℕ}
    (hstamped : Stamped w.store (t.id, t.schedule j)) : Once w.store t j := by
  obtain ⟨d, hd, hstamp⟩ := hstamped
  have hfor := h.tidy.right d hd _ hstamp
  have honly : ∀ e ∈ w.store.drafts.filter (·.madeFor = (t.id, t.schedule j)), e = d := by
    intro e he
    obtain ⟨hmem, hmade⟩ := List.mem_filter.mp he
    rw [decide_eq_true_eq] at hmade
    cases hnone : e.stamp with
    | none =>
      obtain ⟨i, hi⟩ := h.owned e hmem hnone
      rw [hfree i] at hi
      cases hi
    | some key =>
      have hkey := h.tidy.right e hmem key hnone
      rw [hmade] at hkey
      exact h.tidy.once e hmem d hd _ (hkey ▸ hnone) hstamp
  have hmem : d ∈ w.store.drafts.filter (·.madeFor = (t.id, t.schedule j)) :=
    List.mem_filter.mpr ⟨hd, decide_eq_true hfor.symm⟩
  have hnodup : (w.store.drafts.filter (·.madeFor = (t.id, t.schedule j))).Nodup :=
    (List.Nodup.of_map _ h.tidy.ids).filter _
  have hsingle : w.store.drafts.filter (·.madeFor = (t.id, t.schedule j)) = [d] := by
    refine List.perm_singleton.mp ((List.perm_ext_iff_of_nodup hnodup (List.nodup_singleton d)).mpr ?_)
    intro e
    rw [List.mem_singleton]
    exact ⟨honly e, fun heq => heq ▸ hmem⟩
  unfold Once
  rw [hsingle]
  rfl

/-- No template's schedule has moved past an occurrence that does not have one draft. -/
def NoneSkipped (s : Store) : Prop :=
  ∀ t ∈ s.templates, ∃ n, t.nextRunDate = some (t.schedule n) ∧ ∀ j < n, Once s t j

/-- What a call is to leave behind, by the templates and the schedules it finds: one draft of each
occurrence it is to see to, from the first of all. -/
def CaughtUp (found s : Store) (call : Call) : Prop :=
  ∀ t ∈ call.templates found, ∃ n₀, t.nextRunDate = some (t.schedule n₀) ∧
    ∀ j, Wanted call.asOf t n₀ j → Once s t j

omit [DecidableEq ι] in
theorem sound_start {s : Store} (hids : (s.templates.map (·.id)).Nodup)
    (hfirst : ∀ t ∈ s.templates, t.nextRunDate = some t.startDate) (hdrafts : s.drafts = []) :
    Sound (start s : World ι Store Phase) := by
  have hnone : ∀ d, d ∉ s.drafts := by
    rw [hdrafts]
    exact fun _ => List.not_mem_nil
  refine ⟨⟨?_, fun d hd => absurd hd (hnone d), fun d hd => absurd hd (hnone d),
    fun d hd => absurd hd (hnone d)⟩, hids, fun t ht => ⟨List.mem_map_of_mem ht, 0, ?_, nofun⟩,
    fun _ => ⟨nofun, nofun, nofun⟩, nofun, fun d hd => absurd hd (hnone d)⟩
  · change (s.drafts.map (·.id)).Nodup
    rw [hdrafts]
    exact List.nodup_nil
  · rw [hfirst t ht]
    exact congrArg some (occurrence_zero t.frequency t.startDate).symm

/-- Where no call dies with a draft in hand and no stamp is lost on its way back, whatever the calls
do side by side, a last call that runs on by itself comes to its end with one draft of each occurrence
and none skipped. -/
theorem occurrences_once (calls : ι → Call) (s : Store) (hids : (s.templates.map (·.id)).Nodup)
    (hfirst : ∀ t ∈ s.templates, t.nextRunDate = some t.startDate) (hdrafts : s.drafts = [])
    (events : List (ι × Reply)) (halong : Along (advance calls) Careful (start s) events) (k : ι)
    (hlast : (run (advance calls) (start s) events).phase k = .begin)
    (hothers : ∀ j ≠ k, (run (advance calls) (start s) events).phase j = .begin ∨
      (run (advance calls) (start s) events).phase j = .ended) :
    let found := run (advance calls) (start s) events
    (∃ n, (undisturbed calls k n found).phase k = .ended) ∧
      ∀ n, (undisturbed calls k n found).phase k = .ended →
        CaughtUp found.store (undisturbed calls k n found).store (calls k) ∧
          NoneSkipped (undisturbed calls k n found).store := by
  dsimp only
  have hsound := (sound_start hids hfirst hdrafts).run halong
  generalize run (advance calls) (start s) events = found at hsound hlast hothers
  obtain ⟨hstore, hphase⟩ := @step_begin _ _ calls _ _ hlast
  have hknown := templates_known hsound.known (calls k)
  have hbegun : (step (advance calls) found (k, .done)).phase k ≠ .begin := by
    rw [hphase]
    exact next_template_begun _ _
  have hprogress : Progress (step (advance calls) found (k, .done)).store (calls k).asOf
      ((calls k).templates found.store) ((step (advance calls) found (k, .done)).phase k) := by
    rw [hstore, hphase]
    exact progress_next_template (fun t ht => Or.inl ht) hknown
  constructor
  · obtain ⟨n, hn⟩ := undisturbed_ends calls k (step (advance calls) found (k, .done)) hbegun
    exact ⟨n + 1, hn⟩
  · intro n hended
    cases n with
    | zero =>
      rw [show (undisturbed calls k 0 found).phase k = found.phase k from rfl, hlast] at hended
      cases hended
    | succ n =>
      rw [undisturbed_succ] at hended ⊢
      obtain ⟨hthen, hsettled⟩ :=
        undisturbed_sound (hsound.step (careful_done k _ _)) hprogress n
      generalize hw : undisturbed calls k n (step (advance calls) found (k, .done)) = w at *
      have hfree : ∀ i, (w.phase i).holding = none := by
        intro i
        by_cases hi : i = k
        · rw [hi, hended]
          rfl
        · have hsame : w.phase i = found.phase i := by
            rw [← hw, undisturbed_others calls hi]
            exact Function.update_of_ne hi _ _
          rw [hsame]
          rcases hothers i hi with hbegin | hend
          · rw [hbegin]
            rfl
          · rw [hend]
            rfl
      constructor
      · intro t ht
        obtain ⟨n₀, hnext, -⟩ := (hknown t ht).reached
        exact ⟨n₀, hnext, fun j hj => hthen.once hfree (hsettled.settled hended t ht n₀ hnext j hj)⟩
      · intro t ht
        obtain ⟨m, hnext, hcovered⟩ := (hthen.known t ht).reached
        exact ⟨m, hnext, fun j hj => hthen.once hfree (hcovered j hj)⟩

/-- Two calls make a draft of one occurrence: the later stamp is refused, its draft deleted, and a
third call finds all in place. -/
theorem occurrences_once_overlapping :
    let day : Day := .of 2025 1 31
    let template : Template := ⟨7, 1, true, .monthly, day, none, some day⟩
    let calls : Fin 3 → Call := fun i => if i = 0 then .runForTemplate 7 day else .generateDue none day
    let found := run (advance calls) (start ⟨[template], [], 0, []⟩)
      [(0, .done), (0, .done), (0, .done), (1, .done), (1, .done), (1, .done), (1, .done), (1, .done),
        (1, .done), (0, .done), (0, .done), (0, .done), (0, .done), (0, .lost), (0, .done)]
    (∃ n, (undisturbed calls 2 n found).phase 2 = .ended) ∧
      ∀ n, (undisturbed calls 2 n found).phase 2 = .ended →
        CaughtUp found.store (undisturbed calls 2 n found).store (calls 2) ∧
          NoneSkipped (undisturbed calls 2 n found).store :=
  occurrences_once _ _ (by decide) (by decide) rfl _ (by decide +kernel) 2 (by decide +kernel)
    (by decide +kernel)

/-- A call stops with its draft made and not yet stamped; the next makes another. -/
theorem stopped_draft_doubles :
    let day : Day := .of 2025 1 31
    let template : Template := ⟨7, 1, true, .monthly, day, none, some day⟩
    let calls : Bool → Call := fun _ => .generateDue none day
    let found := run (advance calls) (start ⟨[template], [], 0, []⟩)
      [(false, .done), (false, .done), (false, .done), (false, .stopped)]
    let last := undisturbed calls true 6 found
    found.phase true = .begin ∧ found.phase false = .ended ∧ last.phase true = .ended ∧
      ¬ CaughtUp found.store last.store (calls true) := by
  refine ⟨by decide +kernel, by decide +kernel, by decide +kernel, fun h => ?_⟩
  obtain ⟨n₀, hnext, hall⟩ := h _ List.mem_cons_self
  have hzero : n₀ = 0 := by
    have hfirst := (occurrence_zero .monthly _).trans (Option.some.inj hnext)
    exact ((occurrence_strict .monthly _).injective hfirst).symm
  subst hzero
  have honce := hall 0 ⟨by decide +kernel, nofun, by decide⟩
  unfold Once at honce
  revert honce
  decide +kernel

end Caflow.Recurring
