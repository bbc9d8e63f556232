import Caflow.Recurring.Invoices

namespace Caflow.Recurring
open Interleaving
open Calendar (Day)

/-- A template but for where its schedule stands. -/
def Template.plan (t : Template) : Template := { t with nextRunDate := none }

def Template.schedule (t : Template) (n : ℕ) : Day := occurrence t.frequency t.startDate n

theorem schedule_of_plan {t t' : Template} (h : t.plan = t'.plan) : t.schedule = t'.schedule := by
  simp only [Template.plan, Template.mk.injEq] at h
  obtain ⟨-, -, -, hfrequency, hstart, -, -⟩ := h
  funext n
  unfold Template.schedule
  rw [hfrequency, hstart]

theorem id_of_plan {t t' : Template} (h : t.plan = t'.plan) : t.id = t'.id := by
  simp only [Template.plan, Template.mk.injEq] at h
  exact h.1

def Stamped (s : Store) (key : ℕ × Day) : Prop := ∃ d ∈ s.drafts, d.stamp = some key

/-- Every occurrence before a number has its invoice. -/
def Covered (s : Store) (t : Template) (n : ℕ) : Prop :=
  ∀ j < n, Stamped s (t.id, t.schedule j)

/-- What is true of the invoices: each stamp is its draft's own, and is there once. -/
structure Store.Tidy (s : Store) : Prop where
  ids : (s.drafts.map (·.id)).Nodup
  fresh : ∀ d ∈ s.drafts, d.id < s.made
  right : ∀ d ∈ s.drafts, ∀ key, d.stamp = some key → key = d.madeFor
  once : ∀ d ∈ s.drafts, ∀ e ∈ s.drafts, ∀ key, d.stamp = some key → e.stamp = some key → d = e

/-- A template as a call may have read it: its schedule never stood past an occurrence without an
invoice. -/
structure Known (s : Store) (t : Template) : Prop where
  listed : t.plan ∈ s.templates.map Template.plan
  reached : ∃ n, t.nextRunDate = some (t.schedule n) ∧ Covered s t n

structure Job.Stands (s : Store) (job : Job) : Prop where
  listed : job.template.plan ∈ s.templates.map Template.plan
  rest : ∀ t ∈ job.rest, Known s t
  reached : ∃ n, job.occ = job.template.schedule n ∧ Covered s job.template n

def Phase.job : Phase → Option Job
  | .begin | .ended => none
  | .look job | .create job | .stamp job _ | .deleteLines job _ | .deleteDraft job _
  | .findWinner job | .record job _ | .recordFailed job | .setNext job => some job

/-- The draft a call has made and neither stamped nor deleted yet. -/
def Phase.holding : Phase → Option ℕ
  | .stamp _ draft | .deleteLines _ draft | .deleteDraft _ draft => some draft
  | _ => none

def Phase.past : Phase → Bool
  | .record _ _ | .setNext _ => true
  | _ => false

structure Standing (s : Store) (p : Phase) : Prop where
  job : ∀ job, p.job = some job → job.Stands s
  held : ∀ job draft, p.job = some job → p.holding = some draft →
    ∃ d ∈ s.drafts, d.id = draft ∧ d.stamp = none ∧ d.madeFor = job.key
  past : ∀ job, p.job = some job → p.past → Stamped s job.key

structure Sound (w : World ι Store Phase) : Prop where
  tidy : w.store.Tidy
  templates : (w.store.templates.map (·.id)).Nodup
  known : ∀ t ∈ w.store.templates, Known w.store t
  standing : ∀ i, Standing w.store (w.phase i)
  alone : ∀ i j draft, (w.phase i).holding = some draft → (w.phase j).holding = some draft → i = j
  owned : ∀ d ∈ w.store.drafts, d.stamp = none → ∃ i, (w.phase i).holding = some d.id

/-- Stamps stay, and so do the templates' plans. -/
structure Grows (s s' : Store) : Prop where
  plans : s'.templates.map Template.plan = s.templates.map Template.plan
  stamped : ∀ key, Stamped s key → Stamped s' key

theorem Grows.refl (s : Store) : Grows s s := ⟨rfl, fun _ h => h⟩

theorem Covered.grow {s s' : Store} {t : Template} {n : ℕ} (h : Covered s t n) (hgrows : Grows s s') :
    Covered s' t n := fun j hj => hgrows.stamped _ (h j hj)

theorem Known.grow {s s' : Store} {t : Template} (h : Known s t) (hgrows : Grows s s') :
    Known s' t := by
  obtain ⟨n, hnext, hcovered⟩ := h.reached
  exact ⟨hgrows.plans ▸ h.listed, n, hnext, hcovered.grow hgrows⟩

theorem Job.Stands.grow {s s' : Store} {job : Job} (h : job.Stands s) (hgrows : Grows s s') :
    job.Stands s' := by
  obtain ⟨n, hocc, hcovered⟩ := h.reached
  exact ⟨hgrows.plans ▸ h.listed, fun t ht => (h.rest t ht).grow hgrows, n, hocc,
    hcovered.grow hgrows⟩

/-- Another call's statement leaves a call standing, if it leaves its draft. -/
theorem Standing.grow {s s' : Store} {p : Phase} (h : Standing s p) (hgrows : Grows s s')
    (hkept : ∀ d ∈ s.drafts, p.holding = some d.id → d ∈ s'.drafts) : Standing s' p := by
  refine ⟨fun job hjob => (h.job job hjob).grow hgrows, fun job draft hjob hholding => ?_,
    fun job hjob hpast => hgrows.stamped _ (h.past job hjob hpast)⟩
  obtain ⟨d, hd, hid, hstamp, hfor⟩ := h.held job draft hjob hholding
  exact ⟨d, hkept d hd (hid ▸ hholding), hid, hstamp, hfor⟩

/-- What one statement does, seen from the other calls. -/
structure Moves (s s' : Store) (p p' : Phase) : Prop where
  tidy : s'.Tidy
  grows : Grows s s'
  known : ∀ t ∈ s'.templates, Known s' t
  kept : ∀ d ∈ s.drafts, p.holding ≠ some d.id → d ∈ s'.drafts
  back : ∀ d ∈ s'.drafts, d.stamp = none →
    p'.holding = some d.id ∨ d ∈ s.drafts ∧ p.holding ≠ some d.id
  taken : ∀ draft, p'.holding = some draft → p.holding = some draft ∨ draft = s.made
  standing : Standing s' p'

/-- A statement that leaves the drafts as they are. -/
theorem Moves.plain {s s' : Store} {p p' : Phase} (htidy : s.Tidy) (hdrafts : s'.drafts = s.drafts)
    (hmade : s'.made = s.made)
    (hplans : s'.templates.map Template.plan = s.templates.map Template.plan)
    (hknown : ∀ t ∈ s'.templates, Known s' t) (hholding : p'.holding = p.holding)
    (hstanding : Standing s' p') : Moves s s' p p' := by
  refine ⟨⟨?_, ?_, ?_, ?_⟩, ⟨hplans, fun key ⟨d, hd, hstamp⟩ => ⟨d, hdrafts ▸ hd, hstamp⟩⟩, hknown,
    fun d hd _ => hdrafts ▸ hd, fun d hd _ => ?_, fun draft hdraft => Or.inl (hholding ▸ hdraft),
    hstanding⟩
  · rw [hdrafts]
    exact htidy.ids
  · rw [hdrafts, hmade]
    exact htidy.fresh
  · rw [hdrafts]
    exact htidy.right
  · rw [hdrafts]
    exact htidy.once
  · by_cases hown : p'.holding = some d.id
    · exact Or.inl hown
    · exact Or.inr ⟨hdrafts ▸ hd, hholding ▸ hown⟩

theorem Sound.moved [DecidableEq ι] {w : World ι Store Phase} {i : ι} {s' : Store} {p' : Phase}
    (h : Sound w) (hmoves : Moves w.store s' (w.phase i) p') :
    Sound ⟨s', Function.update w.phase i p'⟩ := by
  have hmine : ∀ {j}, j ≠ i → ∀ draft, (w.phase j).holding = some draft →
      (w.phase i).holding ≠ some draft ∧ draft < w.store.made := by
    intro j hj draft hholding
    refine ⟨fun hown => hj (h.alone j i draft hholding hown), ?_⟩
    obtain ⟨job, hjob⟩ : ∃ job, (w.phase j).job = some job := by
      cases hphase : w.phase j with
      | stamp job | deleteLines job | deleteDraft job => exact ⟨job, rfl⟩
      | _ =>
        rw [hphase] at hholding
        cases hholding
    obtain ⟨d, hd, rfl, -, -⟩ := (h.standing j).held job draft hjob hholding
    exact h.tidy.fresh d hd
  have halone : ∀ j, j ≠ i → ∀ draft, p'.holding = some draft → (w.phase j).holding ≠ some draft := by
    intro j hj draft hnew hother
    obtain ⟨hnot, hlt⟩ := hmine hj draft hother
    rcases hmoves.taken draft hnew with hold | hfresh
    · exact hnot hold
    · omega
  refine ⟨hmoves.tidy, ?_, hmoves.known, fun j => ?_, fun j k draft hj hk => ?_, fun d hd hnone => ?_⟩
  · have hids : ∀ l : List Template, l.map (·.id) = (l.map Template.plan).map (·.id) := by
      intro l
      rw [List.map_map]
      rfl
    dsimp only
    rw [hids, hmoves.grows.plans, ← hids]
    exact h.templates
  · dsimp only
    by_cases hj : j = i
    · rw [hj, Function.update_self]
      exact hmoves.standing
    · rw [Function.update_of_ne hj]
      refine (h.standing j).grow hmoves.grows fun d hd hholding => ?_
      exact hmoves.kept d hd (hmine hj d.id hholding).1
  · dsimp only at hj hk
    by_cases hji : j = i <;> by_cases hki : k = i
    · rw [hji, hki]
    · rw [hji, Function.update_self] at hj
      rw [Function.update_of_ne hki] at hk
      exact absurd hk (halone k hki draft hj)
    · rw [hki, Function.update_self] at hk
      rw [Function.update_of_ne hji] at hj
      exact absurd hj (halone j hji draft hk)
    · rw [Function.update_of_ne hji] at hj
      rw [Function.update_of_ne hki] at hk
      exact h.alone j k draft hj hk
  · dsimp only
    rcases hmoves.back d hd hnone with hnew | ⟨hold, hnot⟩
    · exact ⟨i, by rw [Function.update_self]; exact hnew⟩
    · obtain ⟨j, hj⟩ := h.owned d hold hnone
      have hne : j ≠ i := by
        rintro rfl
        exact hnot hj
      exact ⟨j, by rw [Function.update_of_ne hne]; exact hj⟩

/-! ### What each statement does -/

/-- What a call finds when it turns to a statement: the part of what is sound that concerns it. -/
structure Ready (s : Store) (p : Phase) : Prop where
  tidy : s.Tidy
  templates : (s.templates.map (·.id)).Nodup
  known : ∀ t ∈ s.templates, Known s t
  standing : Standing s p

theorem Standing.ended (s : Store) : Standing s .ended :=
  ⟨nofun, nofun, nofun⟩

theorem Standing.next_template {s : Store} (asOf : Day) {ts : List Template}
    (h : ∀ t ∈ ts, Known s t) : Standing s (nextTemplate asOf ts) ∧
      (nextTemplate asOf ts).holding = none := by
  induction ts with
  | nil => exact ⟨Standing.ended s, rfl⟩
  | cons t rest ih =>
    have hrest : ∀ u ∈ rest, Known s u := fun u hu => h u (List.mem_cons_of_mem _ hu)
    unfold nextTemplate
    split
    · exact ih hrest
    · rename_i occ hnext
      split
      · refine ⟨⟨?_, nofun, nofun⟩, rfl⟩
        rintro job hjob
        cases hjob
        have hknown := h t List.mem_cons_self
        obtain ⟨n, hn, hcovered⟩ := hknown.reached
        rw [hnext] at hn
        exact ⟨hknown.listed, hrest, n, Option.some.inj hn, hcovered⟩
      · exact ih hrest

/-- A job whose next statement needs no more of the store than the job itself. -/
theorem Job.Stands.standing {s : Store} {job : Job} (h : job.Stands s) {p : Phase}
    (hjob : p.job = some job) (hholding : p.holding = none) (hpast : p.past = false) :
    Standing s p := by
  refine ⟨fun job' hjob' => ?_, fun job' draft _ hheld => ?_, fun job' _ hpast' => ?_⟩
  · rw [hjob] at hjob'
    cases hjob'
    exact h
  · rw [hholding] at hheld
    cases hheld
  · rw [hpast] at hpast'
    cases hpast'

theorem Job.Stands.past {s : Store} {job : Job} (h : job.Stands s) (hstamped : Stamped s job.key)
    {p : Phase} (hjob : p.job = some job) (hholding : p.holding = none) : Standing s p := by
  refine ⟨fun job' hjob' => ?_, fun job' draft _ hheld => ?_, fun job' hjob' _ => ?_⟩
  · rw [hjob] at hjob'
    cases hjob'
    exact h
  · rw [hholding] at hheld
    cases hheld
  · rw [hjob] at hjob'
    cases hjob'
    exact hstamped

theorem Job.Stands.holding {s : Store} {job : Job} (h : job.Stands s) {d : Draft}
    (hd : d ∈ s.drafts) (hnone : d.stamp = none) (hfor : d.madeFor = job.key) {p : Phase}
    (hjob : p.job = some job) (hholding : p.holding = some d.id) (hpast : p.past = false) :
    Standing s p := by
  refine ⟨fun job' hjob' => ?_, fun job' draft hjob' hheld => ?_, fun job' _ hpast' => ?_⟩
  · rw [hjob] at hjob'
    cases hjob'
    exact h
  · rw [hjob] at hjob'
    rw [hholding] at hheld
    cases hjob'
    cases hheld
    exact ⟨d, hd, rfl, hnone, hfor⟩
  · rw [hpast] at hpast'
    cases hpast'

theorem stamped_of_find {s : Store} {key : ℕ × Day} (h : (s.findGenerated key).isSome) :
    Stamped s key := by
  obtain ⟨d, hd⟩ := Option.isSome_iff_exists.mp h
  exact ⟨d, List.mem_of_find?_eq_some hd, by simpa using List.find?_some hd⟩

theorem find_of_stamped {s : Store} {key : ℕ × Day} (h : Stamped s key) :
    (s.findGenerated key).isSome := by
  obtain ⟨d, hd, hstamp⟩ := h
  exact List.find?_isSome.mpr ⟨d, hd, by simpa using hstamp⟩

theorem stamped_of_duplicate {s : Store} {draft : ℕ} {key : ℕ × Day}
    (h : s.duplicate draft key = true) : Stamped s key := by
  obtain ⟨d, hd, hdup⟩ := List.any_eq_true.mp h
  simp only [Bool.and_eq_true, decide_eq_true_eq] at hdup
  exact ⟨d, hd, hdup.1⟩

/-- A statement that reads, or writes nothing of the drafts and the templates. -/
theorem Ready.stays {s s' : Store} {p p' : Phase} (h : Ready s p) (hdrafts : s'.drafts = s.drafts)
    (hmade : s'.made = s.made) (htemplates : s'.templates = s.templates)
    (hholding : p'.holding = p.holding) (hstanding : Standing s p') : Moves s s' p p' := by
  have hgrows : Grows s s' :=
    ⟨by rw [htemplates], fun key ⟨d, hd, hstamp⟩ => ⟨d, hdrafts ▸ hd, hstamp⟩⟩
  refine Moves.plain h.tidy hdrafts hmade hgrows.plans (fun t ht => ?_) hholding ?_
  · exact (h.known t (htemplates ▸ ht)).grow hgrows
  · exact hstanding.grow hgrows fun d hd _ => hdrafts ▸ hd

theorem Ready.create {s : Store} {job : Job} (h : Ready s (.create job)) :
    Moves s (s.createInvoice job.template job.occ) (.create job) (.stamp job s.made) := by
  have hsplit : ∀ d ∈ (s.createInvoice job.template job.occ).drafts, d ∈ s.drafts ∨
      d.id = s.made ∧ d.stamp = none ∧ d.madeFor = job.key := by
    intro d hd
    rcases List.mem_append.mp hd with hold | hnew
    · exact Or.inl hold
    · rw [List.mem_singleton.mp hnew]
      exact Or.inr ⟨rfl, rfl, rfl⟩
  have hgrows : Grows s (s.createInvoice job.template job.occ) :=
    ⟨rfl, fun key ⟨d, hd, hstamp⟩ => ⟨d, List.mem_append_left _ hd, hstamp⟩⟩
  have hold : ∀ d ∈ (s.createInvoice job.template job.occ).drafts, ∀ key, d.stamp = some key →
      d ∈ s.drafts := by
    intro d hd key hstamp
    rcases hsplit d hd with hmem | ⟨-, hnone, -⟩
    · exact hmem
    · rw [hnone] at hstamp
      cases hstamp
  refine ⟨⟨?_, fun d hd => ?_, fun d hd key hstamp => ?_, fun d hd e he key hd' he' => ?_⟩, hgrows,
    fun t ht => (h.known t ht).grow hgrows, fun d hd _ => List.mem_append_left _ hd,
    fun d hd hnone => ?_, fun draft hdraft => Or.inr (Option.some.inj hdraft).symm, ?_⟩
  · simp only [Store.createInvoice, List.map_append, List.map_cons, List.map_nil]
    rw [List.nodup_append]
    refine ⟨h.tidy.ids, List.nodup_singleton _, ?_⟩
    intro a ha b hb heq
    obtain ⟨d, hd, rfl⟩ := List.mem_map.mp ha
    have hlt := h.tidy.fresh d hd
    rw [List.mem_singleton] at hb
    omega
  · change d.id < s.made + 1
    rcases hsplit d hd with hmem | ⟨hid, -, -⟩
    · have hlt := h.tidy.fresh d hmem
      omega
    · omega
  · exact h.tidy.right d (hold d hd key hstamp) key hstamp
  · exact h.tidy.once d (hold d hd key hd') e (hold e he key he') key hd' he'
  · rcases hsplit d hd with hmem | ⟨hid, -, -⟩
    · exact Or.inr ⟨hmem, nofun⟩
    · exact Or.inl (congrArg some hid.symm)
  · have hstands := (h.standing.job job rfl).grow hgrows
    exact hstands.holding (List.mem_append_right _ List.mem_cons_self) rfl rfl rfl rfl rfl

/-- The draft a call holds is the only one with its number. -/
theorem Ready.own {s : Store} {p : Phase} {job : Job} {draft : ℕ} (h : Ready s p)
    (hjob : p.job = some job) (hholding : p.holding = some draft) :
    ∃ own ∈ s.drafts, own.id = draft ∧ own.stamp = none ∧ own.madeFor = job.key ∧
      ∀ d ∈ s.drafts, d.id = draft → d = own := by
  obtain ⟨own, hown, hid, hnone, hfor⟩ := h.standing.held job draft hjob hholding
  exact ⟨own, hown, hid, hnone, hfor, fun d hd hsame =>
    List.inj_on_of_nodup_map h.tidy.ids hd hown (hsame.trans hid.symm)⟩

/-- Rewriting the draft in hand leaves every draft's number, and every other draft. -/
theorem map_ids (s : Store) (draft : ℕ) (f : Draft → Draft) (hf : ∀ d, (f d).id = d.id) :
    ((s.drafts.map fun d => if d.id = draft then f d else d).map (·.id)) = s.drafts.map (·.id) := by
  rw [List.map_map]
  refine List.map_congr_left fun d _ => ?_
  rw [Function.comp_apply]
  split
  · exact hf d
  · rfl

theorem mem_map_other {s : Store} {draft : ℕ} {f : Draft → Draft} {d : Draft} (hd : d ∈ s.drafts)
    (hne : d.id ≠ draft) : d ∈ s.drafts.map fun d => if d.id = draft then f d else d :=
  List.mem_map.mpr ⟨d, hd, if_neg hne⟩

theorem mem_map_split {s : Store} {draft : ℕ} {f : Draft → Draft} {d : Draft}
    (hd : d ∈ s.drafts.map fun d => if d.id = draft then f d else d) :
    (∃ own ∈ s.drafts, own.id = draft ∧ d = f own) ∨ d ∈ s.drafts ∧ d.id ≠ draft := by
  obtain ⟨e, he, heq⟩ := List.mem_map.mp hd
  split at heq
  · rename_i hid
    exact Or.inl ⟨e, he, hid, heq.symm⟩
  · rename_i hid
    exact Or.inr ⟨heq ▸ he, heq ▸ hid⟩

theorem Ready.stamp {s : Store} {job : Job} {draft : ℕ} (h : Ready s (.stamp job draft))
    (hfree : s.duplicate draft job.key = false) :
    Moves s (s.stampRecurring draft job.key) (.stamp job draft) (.record job draft) := by
  obtain ⟨own, hown, hid, hnone, hfor, honly⟩ := h.own rfl rfl
  have hclash : ∀ d ∈ s.drafts, d.stamp = some job.key → d.id = draft := by
    intro d hd hstamp
    by_contra hne
    have hdup : s.duplicate draft job.key = true :=
      List.any_eq_true.mpr ⟨d, hd, by simp [hstamp, hne]⟩
    rw [hfree] at hdup
    cases hdup
  have hnobody : ∀ d ∈ s.drafts, d.stamp ≠ some job.key := by
    intro d hd hstamp
    rw [honly d hd (hclash d hd hstamp), hnone] at hstamp
    cases hstamp
  have hgrows : Grows s (s.stampRecurring draft job.key) := by
    refine ⟨rfl, fun key ⟨d, hd, hstamp⟩ => ?_⟩
    have hne : d.id ≠ draft := by
      intro hsame
      rw [honly d hd hsame, hnone] at hstamp
      cases hstamp
    exact ⟨d, mem_map_other hd hne, hstamp⟩
  have hsplit : ∀ d ∈ (s.stampRecurring draft job.key).drafts,
      d = { own with stamp := some job.key } ∨ d ∈ s.drafts ∧ d.id ≠ draft := by
    intro d hd
    rcases mem_map_split hd with ⟨e, he, hsame, rfl⟩ | hother
    · exact Or.inl (by rw [honly e he hsame])
    · exact Or.inr hother
  refine ⟨⟨?_, fun d hd => ?_, fun d hd key hstamp => ?_, fun d hd e he key hd' he' => ?_⟩, hgrows,
    fun t ht => (h.known t ht).grow hgrows, fun d hd hne => ?_, fun d hd hnone' => ?_, nofun, ?_⟩
  · rw [Store.stampRecurring, map_ids s draft (fun d => { d with stamp := some job.key }) fun _ => rfl]
    exact h.tidy.ids
  · rcases hsplit d hd with rfl | ⟨hold, -⟩
    · exact h.tidy.fresh own hown
    · exact h.tidy.fresh d hold
  · rcases hsplit d hd with rfl | ⟨hold, -⟩
    · cases hstamp
      exact hfor.symm
    · exact h.tidy.right d hold key hstamp
  · rcases hsplit d hd with rfl | ⟨hold, -⟩ <;> rcases hsplit e he with rfl | ⟨hold', -⟩
    · rfl
    · cases hd'
      exact absurd he' (hnobody e hold')
    · cases he'
      exact absurd hd' (hnobody d hold)
    · exact h.tidy.once d hold e hold' key hd' he'
  · exact mem_map_other hd fun hsame => hne (congrArg some hsame.symm)
  · rcases hsplit d hd with rfl | ⟨hold, hne⟩
    · cases hnone'
    · exact Or.inr ⟨hold, fun hsame => hne (Option.some.inj hsame).symm⟩
  · have hstands := (h.standing.job job rfl).grow hgrows
    refine hstands.past ⟨{ own with stamp := some job.key }, ?_, rfl⟩ rfl rfl
    exact List.mem_map.mpr ⟨own, hown, if_pos hid⟩

theorem Ready.delete_lines {s : Store} {job : Job} {draft : ℕ}
    (h : Ready s (.deleteLines job draft)) :
    Moves s (s.deleteLines draft) (.deleteLines job draft) (.deleteDraft job draft) := by
  obtain ⟨own, hown, hid, hnone, hfor, honly⟩ := h.own rfl rfl
  have hsplit : ∀ d ∈ (s.deleteLines draft).drafts,
      d = { own with hasLines := false } ∨ d ∈ s.drafts ∧ d.id ≠ draft := by
    intro d hd
    rcases mem_map_split hd with ⟨e, he, hsame, rfl⟩ | hother
    · exact Or.inl (by rw [honly e he hsame])
    · exact Or.inr hother
  have hold : ∀ d ∈ (s.deleteLines draft).drafts, ∀ key, d.stamp = some key → d ∈ s.drafts := by
    intro d hd key hstamp
    rcases hsplit d hd with rfl | ⟨hmem, -⟩
    · rw [show ({ own with hasLines := false } : Draft).stamp = none from hnone] at hstamp
      cases hstamp
    · exact hmem
  have hgrows : Grows s (s.deleteLines draft) := by
    refine ⟨rfl, fun key ⟨d, hd, hstamp⟩ => ?_⟩
    have hne : d.id ≠ draft := by
      intro hsame
      rw [honly d hd hsame, hnone] at hstamp
      cases hstamp
    exact ⟨d, mem_map_other hd hne, hstamp⟩
  refine ⟨⟨?_, fun d hd => ?_, fun d hd key hstamp => ?_, fun d hd e he key hd' he' => ?_⟩, hgrows,
    fun t ht => (h.known t ht).grow hgrows, fun d hd hne => ?_, fun d hd hnone' => ?_,
    fun draft' hdraft => Or.inl hdraft, ?_⟩
  · rw [Store.deleteLines, map_ids s draft (fun d => { d with hasLines := false }) fun _ => rfl]
    exact h.tidy.ids
  · rcases hsplit d hd with rfl | ⟨hmem, -⟩
    · exact h.tidy.fresh own hown
    · exact h.tidy.fresh d hmem
  · exact h.tidy.right d (hold d hd key hstamp) key hstamp
  · exact h.tidy.once d (hold d hd key hd') e (hold e he key he') key hd' he'
  · exact mem_map_other hd fun hsame => hne (congrArg some hsame.symm)
  · rcases hsplit d hd with rfl | ⟨hmem, hne⟩
    · exact Or.inl (congrArg some hid.symm)
    · exact Or.inr ⟨hmem, fun hsame => hne (Option.some.inj hsame).symm⟩
  · have hstands := (h.standing.job job rfl).grow hgrows
    refine hstands.holding (d := { own with hasLines := false }) ?_ hnone hfor rfl ?_ rfl
    · exact List.mem_map.mpr ⟨own, hown, if_pos hid⟩
    · exact congrArg some hid.symm

theorem Ready.delete_draft {s : Store} {job : Job} {draft : ℕ}
    (h : Ready s (.deleteDraft job draft)) {p' : Phase} (hholding : p'.holding = none)
    (hstanding : ∀ s', Grows s s' → Standing s' p') :
    Moves s (s.deleteDraft draft) (.deleteDraft job draft) p' := by
  obtain ⟨own, hown, hid, hnone, hfor, honly⟩ := h.own rfl rfl
  have hsub : ∀ d ∈ (s.deleteDraft draft).drafts, d ∈ s.drafts ∧ d.id ≠ draft := by
    intro d hd
    obtain ⟨hmem, hne⟩ := List.mem_filter.mp hd
    exact ⟨hmem, by simpa using hne⟩
  have hgrows : Grows s (s.deleteDraft draft) := by
    refine ⟨rfl, fun key ⟨d, hd, hstamp⟩ => ⟨d, List.mem_filter.mpr ⟨hd, ?_⟩, hstamp⟩⟩
    have hne : d.id ≠ draft := by
      intro hsame
      rw [honly d hd hsame, hnone] at hstamp
      cases hstamp
    simpa using hne
  refine ⟨⟨(List.filter_sublist.map _).nodup h.tidy.ids, fun d hd => h.tidy.fresh d (hsub d hd).1,
      fun d hd => h.tidy.right d (hsub d hd).1,
      fun d hd e he => h.tidy.once d (hsub d hd).1 e (hsub e he).1⟩,
    hgrows, fun t ht => (h.known t ht).grow hgrows, fun d hd hne => ?_, fun d hd _ => ?_,
    fun draft' hdraft => ?_, hstanding _ hgrows⟩
  · refine List.mem_filter.mpr ⟨hd, ?_⟩
    have hother : d.id ≠ draft := fun hsame => hne (congrArg some hsame.symm)
    simpa using hother
  · obtain ⟨hmem, hne⟩ := hsub d hd
    exact Or.inr ⟨hmem, fun hsame => hne (Option.some.inj hsame).symm⟩
  · rw [hholding] at hdraft
    cases hdraft

theorem plan_set_next (s : Store) (templateId : ℕ) (next : Day) :
    (s.setNextRun templateId next).templates.map Template.plan = s.templates.map Template.plan := by
  simp only [Store.setNextRun, List.map_map]
  refine List.map_congr_left fun t _ => ?_
  rw [Function.comp_apply]
  split
  · rfl
  · rfl

theorem Covered.succ {s : Store} {t : Template} {n : ℕ} (h : Covered s t n)
    (hstamped : Stamped s (t.id, t.schedule n)) : Covered s t (n + 1) := by
  intro j hj
  rcases Nat.lt_succ_iff_lt_or_eq.mp hj with hlt | rfl
  · exact h j hlt
  · exact hstamped

theorem covered_of_plan {s : Store} {t t' : Template} {n : ℕ} (h : Covered s t n)
    (hplan : t.plan = t'.plan) : Covered s t' n := by
  intro j hj
  rw [← id_of_plan hplan, ← schedule_of_plan hplan]
  exact h j hj

/-- What the schedule moves on to is the occurrence after the one that has its invoice. -/
theorem Ready.set_next {s : Store} {job : Job} (h : Ready s (.setNext job)) {p' : Phase}
    (hholding : p'.holding = none) (hstanding : ∀ s', Grows s s' → Standing s' p') :
    Moves s (s.setNextRun job.template.id
      (nextOccurrence job.template.frequency job.template.startDate job.occ)) (.setNext job) p' := by
  have hstands := h.standing.job job rfl
  have hstamped := h.standing.past job rfl rfl
  obtain ⟨n, hocc, hcovered⟩ := hstands.reached
  have hnext : nextOccurrence job.template.frequency job.template.startDate job.occ =
      job.template.schedule (n + 1) := by
    rw [hocc]
    exact next_occurrence_succ _ _ n
  rw [hnext]
  have hgrows : Grows s (s.setNextRun job.template.id (job.template.schedule (n + 1))) :=
    ⟨plan_set_next s _ _, fun _ hkey => hkey⟩
  refine Moves.plain h.tidy rfl rfl hgrows.plans (fun t' ht' => ?_) hholding (hstanding _ hgrows)
  obtain ⟨t, ht, heq⟩ := List.mem_map.mp ht'
  split at heq
  · rename_i hid
    obtain ⟨t₀, ht₀, hplan₀⟩ := List.mem_map.mp hstands.listed
    have hsame : t = t₀ :=
      List.inj_on_of_nodup_map h.templates ht ht₀ (hid.trans (id_of_plan hplan₀).symm)
    have hplan : job.template.plan = t'.plan := by
      rw [← heq, ← hplan₀, hsame]
      rfl
    have hnextRun : t'.nextRunDate = some (job.template.schedule (n + 1)) := by rw [← heq]
    refine ⟨hgrows.plans ▸ hplan ▸ hstands.listed, n + 1, ?_, ?_⟩
    · rw [hnextRun, schedule_of_plan hplan]
    · apply covered_of_plan _ hplan
      apply (hcovered.grow hgrows).succ
      rw [← hocc]
      exact hgrows.stamped _ hstamped
  · rw [← heq]
    exact (h.known t ht).grow hgrows

theorem Job.Stands.next_step {s : Store} {job : Job} (h : job.Stands s)
    (hstamped : Stamped s job.key) (asOf : Day) :
    Standing s (nextStep asOf job) ∧ (nextStep asOf job).holding = none := by
  unfold nextStep
  dsimp only
  split
  · refine ⟨?_, rfl⟩
    obtain ⟨n, hocc, hcovered⟩ := h.reached
    have hnext : nextOccurrence job.template.frequency job.template.startDate job.occ =
        job.template.schedule (n + 1) := by
      rw [hocc]
      exact next_occurrence_succ _ _ n
    refine @Job.Stands.standing _ { job with
      occ := nextOccurrence job.template.frequency job.template.startDate job.occ
      steps := job.steps + 1 } ⟨h.listed, h.rest, n + 1, hnext, hcovered.succ ?_⟩ _ rfl rfl rfl
    rw [← hocc]
    exact hstamped
  · exact Standing.next_template asOf h.rest

/-- Where a run can come to no harm: a draft, once it is there, is answered for, stamped and kept, or
deleted when its stamp is refused. -/
def Careful (_ : ι) (_ : Store) (p : Phase) (r : Reply) : Prop :=
  match p with
  | .create _ => r.takes = true → r = .done
  | .stamp _ _ => r = .done ∨ r = .refused
  | .deleteLines _ _ => r = .done
  | .deleteDraft _ _ => r.takes = true
  | _ => True

instance (i : ι) (s : Store) (p : Phase) (r : Reply) : Decidable (Careful i s p r) := by
  unfold Careful
  split <;> infer_instance

theorem Ready.stopped {s : Store} {p : Phase} (h : Ready s p) (hnone : p.holding = none) :
    Moves s s p .ended :=
  h.stays rfl rfl rfl hnone.symm (Standing.ended s)

theorem templates_known {s : Store} (h : ∀ t ∈ s.templates, Known s t) (call : Call) :
    ∀ t ∈ call.templates s, Known s t := by
  intro t ht
  cases call with
  | generateDue clientId asOf => exact h t (List.mem_of_mem_filter ht)
  | runForTemplate templateId asOf =>
    have hfound := List.mem_of_mem_filter ht
    rw [Option.mem_toList] at hfound
    exact h t (List.mem_of_find?_eq_some hfound)

theorem advance_call_moves {call : Call} {s : Store} {p : Phase} {r : Reply} (h : Ready s p)
    (hcareful : Careful () s p r) :
    Moves s (advanceCall call s p r).1 p (advanceCall call s p r).2 := by
  have hrest : ∀ {s'} {job : Job}, p.job = some job → Grows s s' →
      Standing s' (nextTemplate call.asOf job.rest) ∧
        (nextTemplate call.asOf job.rest).holding = none := by
    intro s' job hjob hgrows
    exact Standing.next_template call.asOf ((h.standing.job job hjob).grow hgrows).rest
  have hleaves : ∀ {s'} {job : Job}, p.job = some job → p.holding = none → s'.drafts = s.drafts →
      s'.made = s.made → s'.templates = s.templates →
      Moves s s' p (nextTemplate call.asOf job.rest) := by
    intro s' job hjob hholding hdrafts hmade htemplates
    obtain ⟨hstanding, hnone⟩ := hrest hjob (Grows.refl s)
    exact h.stays hdrafts hmade htemplates (hnone.trans hholding.symm) hstanding
  unfold advanceCall
  cases p with
  | begin =>
    dsimp only
    split
    · obtain ⟨hstanding, hnone⟩ := Standing.next_template call.asOf (templates_known h.known call)
      exact h.stays rfl rfl rfl hnone hstanding
    · exact h.stopped rfl
  | look job =>
    have hstands := h.standing.job job rfl
    dsimp only
    split
    · split
      · rename_i hfound
        exact h.stays rfl rfl rfl rfl (hstands.past (stamped_of_find hfound) rfl rfl)
      · exact h.stays rfl rfl rfl rfl (hstands.standing rfl rfl rfl)
    · exact hleaves rfl rfl rfl rfl rfl
  | create job =>
    have hstands := h.standing.job job rfl
    cases r with
    | done => exact h.create
    | refused => exact hleaves rfl rfl rfl rfl rfl
    | lost => cases hcareful rfl
    | unsuccessful took =>
      cases took with
      | true => cases hcareful rfl
      | false => exact h.stays rfl rfl rfl rfl (hstands.standing rfl rfl rfl)
    | stopped => exact hleaves rfl rfl rfl rfl rfl
  | stamp job draft =>
    obtain ⟨own, hown, hid, hnone, hfor, -⟩ := h.own rfl rfl
    have hdelete : Standing s (.deleteLines job draft) :=
      (h.standing.job job rfl).holding hown hnone hfor rfl (congrArg some hid.symm) rfl
    dsimp only
    split
    · exact h.stays rfl rfl rfl rfl hdelete
    · rename_i hfree
      rcases hcareful with rfl | rfl
      · exact h.stamp (by simpa using hfree)
      · exact h.stays rfl rfl rfl rfl hdelete
  | deleteLines job draft =>
    cases hcareful
    exact h.delete_lines
  | deleteDraft job draft =>
    have htakes : r.takes = true := hcareful
    dsimp only
    rw [if_pos htakes]
    split
    · refine h.delete_draft rfl fun s' hgrows => ?_
      exact ((h.standing.job job rfl).grow hgrows).standing rfl rfl rfl
    · exact h.delete_draft (hrest rfl (Grows.refl s)).2 fun s' hgrows => (hrest rfl hgrows).1
  | findWinner job =>
    dsimp only
    split
    · split
      · rename_i winner hfound
        have hstamped := stamped_of_find (Option.isSome_iff_exists.mpr ⟨winner, hfound⟩)
        exact h.stays rfl rfl rfl rfl ((h.standing.job job rfl).past hstamped rfl rfl)
      · exact hleaves rfl rfl rfl rfl rfl
    · exact hleaves rfl rfl rfl rfl rfl
  | record job invoice =>
    have hstanding := (h.standing.job job rfl).past (h.standing.past job rfl rfl)
      (p := .setNext job) rfl rfl
    dsimp only
    split
    · exact h.stays rfl rfl rfl rfl hstanding
    · exact h.stays rfl rfl rfl rfl hstanding
  | recordFailed job =>
    dsimp only
    split
    · exact hleaves rfl rfl rfl rfl rfl
    · exact hleaves rfl rfl rfl rfl rfl
  | setNext job =>
    have hstep : ∀ s', Grows s s' → Standing s' (nextStep call.asOf job) ∧
        (nextStep call.asOf job).holding = none := by
      intro s' hgrows
      exact ((h.standing.job job rfl).grow hgrows).next_step
        (hgrows.stamped _ (h.standing.past job rfl rfl)) call.asOf
    dsimp only
    split
    · split
      · exact h.set_next (hstep s (Grows.refl s)).2 fun s' hgrows => (hstep s' hgrows).1
      · exact h.set_next rfl fun s' _ => Standing.ended s'
    · rename_i hnot
      have hundone : r ≠ .done := by
        rintro rfl
        exact hnot rfl
      rw [if_neg hundone]
      exact h.stopped rfl
  | ended => exact h.stopped rfl

theorem Sound.ready {w : World ι Store Phase} (h : Sound w) (i : ι) : Ready w.store (w.phase i) :=
  ⟨h.tidy, h.templates, h.known, h.standing i⟩

variable [DecidableEq ι] {calls : ι → Call}

theorem Sound.step {w : World ι Store Phase} {i : ι} {r : Reply} (h : Sound w)
    (hcareful : Careful i w.store (w.phase i) r) : Sound (step (advance calls) w (i, r)) := by
  apply h.moved
  dsimp only
  unfold advance
  split
  · rename_i hstopped
    subst hstopped
    refine (h.ready i).stopped ?_
    cases hphase : w.phase i with
    | stamp job draft =>
      rw [hphase] at hcareful
      rcases hcareful with hdone | hrefused
      · cases hdone
      · cases hrefused
    | deleteLines job draft =>
      rw [hphase] at hcareful
      cases hcareful
    | deleteDraft job draft =>
      rw [hphase] at hcareful
      cases hcareful
    | _ => rfl
  · exact advance_call_moves (h.ready i) hcareful

theorem Sound.run {w : World ι Store Phase} (h : Sound w) {events : List (ι × Reply)}
    (halong : Along (advance calls) Careful w events) : Sound (run (advance calls) w events) :=
  run_keeps Sound (fun _ _ _ hsound hcareful => hsound.step hcareful) events h halong

end Caflow.Recurring
