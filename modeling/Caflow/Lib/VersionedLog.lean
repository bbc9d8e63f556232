import Caflow.Lib.GrowingLog

namespace Caflow.VersionedLog
open GrowingLog

/-- Where one writer stands: it reads the version, then the tail, claims the version it read,
and inserts the row it computed. -/
inductive Phase (ε Row : Type) where
  | readVersion (attempt : ℕ)
  | readTail (attempt version : ℕ)
  | claim (attempt version : ℕ) (row : Row)
  | insert (row : Row)
  | recorded (row : Row)
  | nothing
  | raised (error : ε)
  | conflict
  deriving DecidableEq

/-- The writer is done, one way or another. -/
def Phase.Ended : Phase ε Row → Prop
  | .readVersion _ | .readTail _ _ | .claim _ _ _ | .insert _ => False
  | _ => True

/-- A log guarded by a version counter that may never have been set, and its writers. -/
structure State (ι ε Row : Type) where
  version : Option ℕ
  log : List (ι × Row)
  phase : ι → Phase ε Row

def Phase.inserting : Phase ε Row → Bool
  | .insert _ => true
  | _ => false

instance : DecidablePred (@Phase.Ended ε Row)
  | .readVersion _ | .readTail _ _ | .claim _ _ _ | .insert _ => isFalse id
  | .recorded _ | .nothing | .raised _ | .conflict => isTrue trivial

def tail (log : List (ι × Row)) : Option Row := log.getLast?.map Prod.snd

@[simp] theorem tail_nil : tail ([] : List (ι × Row)) = none := rfl

@[simp] theorem tail_concat (log : List (ι × Row)) (p : ι × Row) :
    tail (log ++ [p]) = some p.2 := by simp [tail]

section
variable {ι ε Row : Type} [DecidableEq ι]
variable (compute : ι → ℕ → Option Row → Except ε (Option Row)) (maxAttempts : ℕ)

/-- A claim finds the version it expects; a counter never set counts as zero. -/
def claims (stored : Option ℕ) (expected : ℕ) : Bool :=
  stored = some expected ∨ (expected = 0 ∧ stored = none)

theorem claims_iff {stored : Option ℕ} : claims stored v ↔ stored.getD 0 = v := by
  cases stored <;> simp [claims, eq_comm]

/-- The next step of one writer. -/
def step (s : State ι ε Row) (i : ι) : Option (State ι ε Row) :=
  let move (p : Phase ε Row) : State ι ε Row := { s with phase := Function.update s.phase i p }
  match s.phase i with
  | .readVersion k => some (move (.readTail k (s.version.getD 0)))
  | .readTail k v =>
    match compute i k (tail s.log) with
    | .error e => some (move (.raised e))
    | .ok none => some (move .nothing)
    | .ok (some row) => some (move (.claim k v row))
  | .claim k v row =>
    if claims s.version v then some { move (.insert row) with version := some (v + 1) }
    else if k + 1 < maxAttempts then some (move (.readVersion (k + 1)))
    else some (move .conflict)
  | .insert row => some { move (.recorded row) with log := s.log ++ [(i, row)] }
  | _ => none

/-- The steps of several writers, in the order given. -/
def run (s : State ι ε Row) : List ι → Option (State ι ε Row)
  | [] => some s
  | i :: is => (step compute maxAttempts s i).bind fun s' => run s' is

def start (version : Option ℕ) : State ι ε Row := ⟨version, [], fun _ => .readVersion 0⟩

def State.Claimed (s : State ι ε Row) (i : ι) : Prop := ∃ row, s.phase i = .insert row

/-- The next step of a writer is undisturbed: the tail it reads is not about to be overtaken by
a row already claimed for, and it does not lose the last claim it has. -/
def Undisturbed (s : State ι ε Row) (i : ι) : Prop :=
  match s.phase i with
  | .readTail _ v => s.version.getD 0 = v → ∀ j, ¬ s.Claimed j
  | .claim k v _ => s.version.getD 0 = v ∨ k + 1 < maxAttempts
  | _ => True

/-- Every step of a run is undisturbed. -/
def Clean (s : State ι ε Row) : List ι → Prop
  | [] => True
  | i :: is => Undisturbed maxAttempts s i ∧
    ∀ s', step compute maxAttempts s i = some s' → Clean s' is

instance (s : State ι ε Row) (i : ι) : Decidable (s.Claimed i) :=
  decidable_of_iff ((s.phase i).inserting = true) (by
    cases h : s.phase i <;> simp [State.Claimed, Phase.inserting, h])

instance [Fintype ι] (s : State ι ε Row) (i : ι) : Decidable (Undisturbed maxAttempts s i) :=
  match h : s.phase i with
  | .readTail _ v => decidable_of_iff (s.version.getD 0 = v → ∀ j, ¬ s.Claimed j)
      (by simp only [Undisturbed, h])
  | .claim k v _ => decidable_of_iff (s.version.getD 0 = v ∨ k + 1 < maxAttempts)
      (by simp only [Undisturbed, h])
  | .readVersion _ | .insert _ | .recorded _ | .nothing | .raised _ | .conflict =>
      isTrue (by simp only [Undisturbed, h])

instance decidableClean [Fintype ι] : (s : State ι ε Row) → (is : List ι) →
    Decidable (Clean compute maxAttempts s is)
  | _, [] => isTrue trivial
  | s, i :: is =>
    haveI : DecidablePred fun s' => Clean compute maxAttempts s' is :=
      fun s' => decidableClean s' is
    inferInstanceAs (Decidable (Undisturbed maxAttempts s i ∧
      ∀ s' ∈ step compute maxAttempts s i, Clean compute maxAttempts s' is))

/-- Everything a step can do. -/
theorem step_cases {s s' : State ι ε Row} (h : step compute maxAttempts s i = some s') :
    (∃ k, s.phase i = .readVersion k ∧
      s' = { s with phase := Function.update s.phase i (.readTail k (s.version.getD 0)) }) ∨
    (∃ k v p, s.phase i = .readTail k v ∧
      s' = { s with phase := Function.update s.phase i p } ∧
      ((∃ e, p = .raised e ∧ compute i k (tail s.log) = .error e) ∨
        (p = .nothing ∧ compute i k (tail s.log) = .ok none) ∨
        (∃ row, p = .claim k v row ∧ compute i k (tail s.log) = .ok (some row)))) ∨
    (∃ k v row, s.phase i = .claim k v row ∧ s.version.getD 0 = v ∧
      s' = { s with version := some (v + 1), phase := Function.update s.phase i (.insert row) }) ∨
    (∃ k v row, s.phase i = .claim k v row ∧ s.version.getD 0 ≠ v ∧ k + 1 < maxAttempts ∧
      s' = { s with phase := Function.update s.phase i (.readVersion (k + 1)) }) ∨
    (∃ k v row, s.phase i = .claim k v row ∧ s.version.getD 0 ≠ v ∧ ¬ k + 1 < maxAttempts ∧
      s' = { s with phase := Function.update s.phase i .conflict }) ∨
    (∃ row, s.phase i = .insert row ∧
      s' = { s with log := s.log ++ [(i, row)],
                    phase := Function.update s.phase i (.recorded row) }) := by
  unfold step at h
  cases hp : s.phase i with
  | readVersion k =>
    simp only [hp] at h
    cases h
    exact .inl ⟨k, rfl, rfl⟩
  | readTail k v =>
    simp only [hp] at h
    right; left
    cases hc : compute i k (tail s.log) with
    | error e =>
      simp only [hc] at h
      cases h
      exact ⟨k, v, _, rfl, rfl, .inl ⟨e, rfl, hc⟩⟩
    | ok r =>
      cases r with
      | none =>
        simp only [hc] at h
        cases h
        exact ⟨k, v, _, rfl, rfl, .inr (.inl ⟨rfl, hc⟩)⟩
      | some row =>
        simp only [hc] at h
        cases h
        exact ⟨k, v, _, rfl, rfl, .inr (.inr ⟨row, rfl, hc⟩)⟩
  | claim k v row =>
    simp only [hp, claims_iff] at h
    right; right
    split at h
    · rename_i hv
      cases h
      exact .inl ⟨k, v, row, rfl, hv, rfl⟩
    · rename_i hv
      split at h <;> cases h
      · rename_i hk
        exact .inr (.inl ⟨k, v, row, rfl, hv, hk, rfl⟩)
      · rename_i hk
        exact .inr (.inr (.inl ⟨k, v, row, rfl, hv, hk, rfl⟩))
  | insert row =>
    simp only [hp] at h
    cases h
    exact .inr (.inr (.inr (.inr (.inr ⟨row, rfl, rfl⟩))))
  | recorded row => simp [hp] at h
  | nothing => simp [hp] at h
  | raised e => simp [hp] at h
  | conflict => simp [hp] at h

/-- A row was computed from the row before it. -/
def Chained (log : List (ι × Row)) (p : ι × Row) : Prop :=
  ∃ k, compute p.1 k (tail log) = .ok (some p.2)

def ids (log : List (ι × Row)) : List ι := log.map Prod.fst

/-- What a writer's phase may rely on: a claim that would still succeed was computed from the
tail with nobody claimed, and a writer that is claimed is the only one. -/
def Fits (s : State ι ε Row) (i : ι) : Phase ε Row → Prop
  | .readVersion _ => True
  | .readTail _ v => v ≤ s.version.getD 0
  | .claim _ v row => v ≤ s.version.getD 0 ∧
      (s.version.getD 0 = v → Chained compute s.log (i, row) ∧ ∀ j, ¬ s.Claimed j)
  | .insert row => Chained compute s.log (i, row) ∧ ∀ j, s.Claimed j → j = i
  | .recorded _ => i ∈ ids s.log
  | .nothing => ∃ k t, compute i k t = .ok none
  | .raised e => ∃ k t, compute i k t = .error e
  | .conflict => False

/-- What every undisturbed step keeps. -/
structure Inv (s : State ι ε Row) : Prop where
  grown : Grown (Chained compute) s.log
  fits : ∀ i, Fits compute s i (s.phase i)
  recorded : ∀ i ∈ ids s.log, ∃ row, s.phase i = .recorded row
  nodup : (ids s.log).Nodup

omit [DecidableEq ι] in
theorem inv_start (version : Option ℕ) : Inv compute (start version : State ι ε Row) where
  grown := .start
  fits _ := trivial
  recorded := by simp [start, ids]
  nodup := by simp [start, ids]

/-- A step that leaves log, version and claims alone keeps the invariant. -/
theorem Inv.move {s : State ι ε Row} (h : Inv compute s) (hold : ¬ s.Claimed i)
    (hnew : ∀ row, p ≠ .insert row) (hids : i ∉ ids s.log) (hp : Fits compute s i p) :
    Inv compute { s with phase := Function.update s.phase i p } := by
  have hclaimed : ∀ j, State.Claimed { s with phase := Function.update s.phase i p } j ↔
      s.Claimed j := by
    intro j
    rcases eq_or_ne j i with rfl | hj
    · exact iff_of_false (fun ⟨row, hr⟩ => hnew row (by simpa using hr)) hold
    · simp [State.Claimed, hj]
  have hcongr : ∀ j q, Fits compute s j q →
      Fits compute { s with phase := Function.update s.phase i p } j q := by
    intro j q hq
    cases q with
    | claim | insert => simpa only [Fits, hclaimed] using hq
    | _ => exact hq
  refine ⟨h.grown, fun j => hcongr j _ ?_, fun j hj => ?_, h.nodup⟩
  · rcases eq_or_ne j i with rfl | hne
    · simpa using hp
    · simpa [hne] using h.fits j
  · have hne : j ≠ i := fun he => hids (he ▸ hj)
    simpa [hne] using h.recorded j hj

/-- A claim that succeeds was computed from the tail, and nobody else is claimed. -/
theorem Inv.claim {s : State ι ε Row} (h : Inv compute s) (hp : s.phase i = .claim k v row)
    (hv : s.version.getD 0 = v) :
    Inv compute { s with version := some (v + 1),
                         phase := Function.update s.phase i (.insert row) } := by
  have hi := h.fits i
  rw [hp] at hi
  obtain ⟨hchain, hnone⟩ := hi.2 hv
  refine ⟨h.grown, fun j => ?_, fun j hj => ?_, h.nodup⟩
  · rcases eq_or_ne j i with rfl | hne
    · simp only [Function.update_self]
      refine ⟨hchain, fun j ⟨row', hr⟩ => ?_⟩
      by_contra hj
      exact hnone j ⟨row', by simpa [hj] using hr⟩
    · have hj := h.fits j
      simp only [Function.update_of_ne hne]
      cases hq : s.phase j with
      | readTail k' v' =>
        rw [hq] at hj
        simp only [Fits, Option.getD_some] at hj ⊢
        omega
      | claim k' v' row' =>
        rw [hq] at hj
        simp only [Fits, Option.getD_some] at hj ⊢
        exact ⟨by omega, fun he => by omega⟩
      | insert row' => exact absurd ⟨row', hq⟩ (hnone j)
      | _ =>
        rw [hq] at hj
        exact hj
  · have hne : j ≠ i := by
      rintro rfl
      obtain ⟨row', hr⟩ := h.recorded j hj
      simp [hp] at hr
    simpa [hne] using h.recorded j hj

/-- The one writer that is claimed inserts its row after the tail it was computed from. -/
theorem Inv.insert {s : State ι ε Row} (h : Inv compute s) (hp : s.phase i = .insert row) :
    Inv compute { s with log := s.log ++ [(i, row)],
                         phase := Function.update s.phase i (.recorded row) } := by
  have hi := h.fits i
  rw [hp] at hi
  obtain ⟨hchain, honly⟩ := hi
  have hfresh : i ∉ ids s.log := by
    intro hmem
    obtain ⟨row', hr⟩ := h.recorded i hmem
    simp [hp] at hr
  refine ⟨.record h.grown hchain, fun j => ?_, fun j hj => ?_, ?_⟩
  · rcases eq_or_ne j i with rfl | hne
    · simp [Fits, ids]
    · have hj := h.fits j
      simp only [Function.update_of_ne hne]
      cases hq : s.phase j with
      | claim k' v' row' =>
        rw [hq] at hj
        exact ⟨hj.1, fun he => absurd ⟨row, hp⟩ ((hj.2 he).2 i)⟩
      | insert row' => exact absurd (honly j ⟨row', hq⟩) hne
      | recorded row' =>
        rw [hq] at hj
        simp only [Fits, ids, List.map_append, List.mem_append] at hj ⊢
        exact .inl hj
      | _ =>
        rw [hq] at hj
        exact hj
  · rcases eq_or_ne j i with rfl | hne
    · exact ⟨row, by simp⟩
    · have hmem : j ∈ ids s.log := by simpa [ids, hne] using hj
      simpa [hne] using h.recorded j hmem
  · rw [ids, List.map_append]
    refine List.nodup_append.mpr ⟨h.nodup, by simp, fun a ha b hb he => ?_⟩
    rw [List.map_singleton, List.mem_singleton] at hb
    have hai : a = i := he.trans hb
    exact hfresh (hai ▸ ha)

/-- An undisturbed step keeps the invariant. -/
theorem Inv.step {s s' : State ι ε Row} (h : Inv compute s)
    (hs : step compute maxAttempts s i = some s') (hu : Undisturbed maxAttempts s i) :
    Inv compute s' := by
  have hi := h.fits i
  have hids : (∀ row, s.phase i ≠ .recorded row) → i ∉ ids s.log := fun hn hm => by
    obtain ⟨row, hr⟩ := h.recorded i hm
    exact hn row hr
  rcases step_cases compute maxAttempts hs with ⟨k, hp, rfl⟩ | ⟨k, v, p, hp, rfl, hc⟩ |
      ⟨k, v, row, hp, hv, rfl⟩ | ⟨k, v, row, hp, hv, hk, rfl⟩ |
      ⟨k, v, row, hp, hv, hk, rfl⟩ | ⟨row, hp, rfl⟩
  · exact h.move compute (by simp [State.Claimed, hp]) (by simp) (hids (by simp [hp])) le_rfl
  · rw [hp] at hi
    rcases hc with ⟨e, rfl, hc⟩ | ⟨rfl, hc⟩ | ⟨row, rfl, hc⟩
    · exact h.move compute (by simp [State.Claimed, hp]) (by simp) (hids (by simp [hp])) ⟨k, _, hc⟩
    · exact h.move compute (by simp [State.Claimed, hp]) (by simp) (hids (by simp [hp])) ⟨k, _, hc⟩
    · simp only [Undisturbed, hp] at hu
      exact h.move compute (by simp [State.Claimed, hp]) (by simp) (hids (by simp [hp]))
        ⟨hi, fun hv => ⟨⟨k, hc⟩, hu hv⟩⟩
  · exact h.claim compute hp hv
  · exact h.move compute (by simp [State.Claimed, hp]) (by simp) (hids (by simp [hp])) trivial
  · simp only [Undisturbed, hp] at hu
    exact absurd hu (by simp [hv, hk])
  · exact h.insert compute hp

/-- A clean run keeps the invariant. -/
theorem Inv.run {s s' : State ι ε Row} (h : Inv compute s)
    (hr : run compute maxAttempts s is = some s') (hc : Clean compute maxAttempts s is) :
    Inv compute s' := by
  induction is generalizing s with
  | nil =>
    cases hr
    exact h
  | cons i is ih =>
    obtain ⟨s₁, hs, hr⟩ := Option.bind_eq_some_iff.mp hr
    exact ih (h.step compute maxAttempts hs hc.1) hr (hc.2 s₁ hs)

omit [DecidableEq ι] in
/-- Where nothing is refused and no row is left out, a clean run that has ended has recorded
every writer once. -/
theorem Inv.all_recorded [Fintype ι] {s : State ι ε Row} (h : Inv compute s)
    (hrow : ∀ i k t, ∃ row, compute i k t = .ok (some row)) (he : ∀ i, (s.phase i).Ended) :
    (ids s.log).Perm Finset.univ.toList := by
  refine (List.perm_ext_iff_of_nodup h.nodup (Finset.nodup_toList _)).mpr fun i => ?_
  refine iff_of_true ?_ (by simp)
  have hf := h.fits i
  have hi := he i
  cases hp : s.phase i with
  | recorded row => simpa [hp, Fits] using hf
  | nothing =>
    rw [hp] at hf
    obtain ⟨k, t, hc⟩ := hf
    obtain ⟨row, hrow⟩ := hrow i k t
    simp [hc] at hrow
  | raised e =>
    rw [hp] at hf
    obtain ⟨k, t, hc⟩ := hf
    obtain ⟨row, hrow⟩ := hrow i k t
    simp [hc] at hrow
  | conflict => simp [hp, Fits] at hf
  | _ => simp [hp, Phase.Ended] at hi

end

end Caflow.VersionedLog
