import Mathlib

namespace Caflow.Interrupted

/-- What becomes of a statement sent to the store. -/
inductive Outcome (ε : Type*) where
  | done
  | refused (e : ε)
  /-- It was carried out and its answer never came back. -/
  | lost (e : ε)

def statement (o : Outcome ε) (effect : σ → σ) : EStateM ε σ Unit :=
  match o with
  | .done => modify effect
  | .refused e => throw e
  | .lost e => do
    modify effect
    throw e

theorem bind_ok {m : EStateM ε σ α} (h : m s = .ok a s') (f : α → EStateM ε σ β) :
    (m >>= f) s = f a s' := by
  change EStateM.bind m f s = _
  rw [EStateM.bind, h]

theorem bind_error {m : EStateM ε σ α} (h : m s = .error e s') (f : α → EStateM ε σ β) :
    (m >>= f) s = .error e s' := by
  change EStateM.bind m f s = _
  rw [EStateM.bind, h]

/-- A write to one place of what is watched: what it makes of the value there, and what becomes
of it. -/
structure Write (ε κ β : Type*) where
  key : κ
  change : β → β
  outcome : β → Outcome ε

section
variable [DecidableEq κ]

/-- What a write makes of all that is watched. -/
def Write.applied (w : Write ε κ β) (v : κ → β) : κ → β :=
  Function.update v w.key (w.change (v w.key))

/-- Writes one after another, until one raises. -/
def carry : List (Write ε κ β) → (κ → β) → Option ε × (κ → β)
  | [], v => (none, v)
  | w :: ws, v =>
    match w.outcome (v w.key) with
    | .done => carry ws (w.applied v)
    | .refused e => (some e, v)
    | .lost e => (some e, w.applied v)

/-- Some write that changes a value is carried out. -/
def reaches [DecidableEq β] (v : κ → β) : List (Write ε κ β) → Bool
  | [] => false
  | w :: ws =>
    match w.outcome (v w.key) with
    | .done => w.change (v w.key) ≠ v w.key || reaches v ws
    | .refused _ => false
    | .lost _ => w.change (v w.key) ≠ v w.key

/-- Every write is answered. -/
def Answered (v : κ → β) (ws : List (Write ε κ β)) : Prop :=
  ∀ w ∈ ws, w.outcome (v w.key) = .done

@[simp] theorem carry_nil (v : κ → β) : carry ([] : List (Write ε κ β)) v = (none, v) := rfl

theorem carry_append (ws ws' : List (Write ε κ β)) (v : κ → β) :
    carry (ws ++ ws') v =
      match carry ws v with
      | (none, v') => carry ws' v'
      | (some e, v') => (some e, v') := by
  induction ws generalizing v with
  | nil => rfl
  | cons w ws ih =>
    simp only [List.cons_append, carry]
    cases w.outcome (v w.key) with
    | done => exact ih _
    | refused e => rfl
    | lost e => rfl

theorem applied_other {w : Write ε κ β} (h : k ≠ w.key) : w.applied v k = v k :=
  Function.update_of_ne h _ _

theorem applied_self (w : Write ε κ β) (v : κ → β) : w.applied v w.key = w.change (v w.key) :=
  Function.update_self _ _ _

theorem applied_unchanged {w : Write ε κ β} (h : w.change (v w.key) = v w.key) : w.applied v = v := by
  unfold Write.applied
  rw [h, Function.update_eq_self]

/-- What no write names stays. -/
theorem carry_other {ws : List (Write ε κ β)} (h : k ∉ ws.map Write.key) :
    (carry ws v).2 k = v k := by
  induction ws generalizing v with
  | nil => rfl
  | cons w ws ih =>
    rw [List.map_cons, List.mem_cons, not_or] at h
    unfold carry
    split
    · rw [ih h.2, applied_other h.1]
    · rfl
    · exact applied_other h.1

/-- The watched values are as they were exactly when no write carried out changes one. -/
theorem carry_unchanged_iff [DecidableEq β] {ws : List (Write ε κ β)}
    (hkeys : (ws.map Write.key).Nodup) : (carry ws v).2 = v ↔ reaches v ws = false := by
  induction ws generalizing v with
  | nil => simp [reaches]
  | cons w ws ih =>
    rw [List.map_cons, List.nodup_cons] at hkeys
    have hone : w.applied v = v ↔ w.change (v w.key) = v w.key := by
      refine ⟨fun h => ?_, applied_unchanged⟩
      rw [← applied_self, h]
    unfold carry reaches
    split
    · by_cases hchange : w.change (v w.key) = v w.key
      · rw [applied_unchanged hchange, ih hkeys.2]
        simp [hchange]
      · -- the value it leaves at its place stays there to the end
        have hplace : (carry ws (w.applied v)).2 w.key = w.change (v w.key) := by
          rw [carry_other hkeys.1, applied_self]
        refine iff_of_false (fun h => hchange ?_) (by simp [hchange])
        rw [← hplace, h]
    · simp
    · rw [hone]
      simp

theorem carry_completed_iff {ws : List (Write ε κ β)} (hkeys : (ws.map Write.key).Nodup) :
    (carry ws v).1 = none ↔ Answered v ws := by
  unfold Answered
  induction ws generalizing v with
  | nil => simp
  | cons w ws ih =>
    rw [List.map_cons, List.nodup_cons] at hkeys
    rw [List.forall_mem_cons]
    unfold carry
    split
    · rename_i hdone
      rw [ih hkeys.2]
      have hsame : ∀ u ∈ ws, w.applied v u.key = v u.key := by
        intro u hu
        apply applied_other
        rintro heq
        exact hkeys.1 (heq ▸ List.mem_map_of_mem hu)
      constructor
      · intro h
        exact ⟨hdone, fun u hu => (congrArg u.outcome (hsame u hu)).symm.trans (h u hu)⟩
      · intro h u hu
        exact (congrArg u.outcome (hsame u hu)).trans (h.2 u hu)
    · rename_i hrefused
      simp [hrefused]
    · rename_i hlost
      simp [hlost]

/-- When every write is answered, each has changed its place once. -/
theorem carry_completed {ws : List (Write ε κ β)} (hkeys : (ws.map Write.key).Nodup)
    (h : (carry ws v).1 = none) (hw : w ∈ ws) : (carry ws v).2 w.key = w.change (v w.key) := by
  induction ws generalizing v with
  | nil => cases hw
  | cons u us ih =>
    rw [List.map_cons, List.nodup_cons] at hkeys
    unfold carry at h ⊢
    cases hu : u.outcome (v u.key) with
    | done =>
      simp only [hu] at h ⊢
      rcases List.mem_cons.mp hw with rfl | hrest
      · rw [carry_other hkeys.1, applied_self]
      · have hne : w.key ≠ u.key := fun heq => hkeys.1 (heq ▸ List.mem_map_of_mem hrest)
        rw [ih hkeys.2 h hrest, applied_other hne]
    | refused e => simp [hu] at h
    | lost e => simp [hu] at h

variable (view : σ → κ → β) (rest : σ → ρ)

/-- A program does to what is watched what the writes do, raises when they raise, and leaves the
rest. -/
def Performs (m : EStateM ε σ Unit) (ws : List (Write ε κ β)) : Prop :=
  ∀ s, ∃ s', view s' = (carry ws (view s)).2 ∧ rest s' = rest s ∧
    m s = match (carry ws (view s)).1 with
      | none => .ok () s'
      | some e => .error e s'

variable {view rest}

/-- What a program does, from one state, that does one write. -/
def DoesFrom (view : σ → κ → β) (rest : σ → ρ) (m : EStateM ε σ Unit) (w : Write ε κ β)
    (s : σ) : Prop :=
  match w.outcome (view s w.key) with
  | .done => ∃ s', m s = .ok () s' ∧ view s' = w.applied (view s) ∧ rest s' = rest s
  | .refused e => ∃ s', m s = .error e s' ∧ view s' = view s ∧ rest s' = rest s
  | .lost e => ∃ s', m s = .error e s' ∧ view s' = w.applied (view s) ∧ rest s' = rest s

theorem performs_one {m : EStateM ε σ Unit} {w : Write ε κ β}
    (h : ∀ s, DoesFrom view rest m w s) : Performs view rest m [w] := by
  intro s
  have hs := h s
  unfold DoesFrom at hs
  unfold carry
  split at hs <;> rename_i houtcome <;> rw [houtcome]
  all_goals
    obtain ⟨s', hm, hview, hrest⟩ := hs
    exact ⟨s', hview, hrest, hm⟩

theorem performs_nothing : Performs view rest (pure () : EStateM ε σ Unit) [] :=
  fun s => ⟨s, rfl, rfl, rfl⟩

theorem Performs.andThen {m m' : EStateM ε σ Unit} (h : Performs view rest m ws)
    (h' : Performs view rest m' ws') :
    Performs view rest (do m; m') (ws ++ ws') := by
  intro s
  obtain ⟨s₁, hview, hrest, hm⟩ := h s
  rw [carry_append]
  cases hcarry : carry ws (view s) with
  | mk raised v =>
    rw [hcarry] at hview hm
    cases raised with
    | none =>
      obtain ⟨s₂, hview', hrest', hm'⟩ := h' s₁
      rw [hview] at hview' hm'
      exact ⟨s₂, hview', hrest'.trans hrest, (bind_ok hm _).trans hm'⟩
    | some e => exact ⟨s₁, hview, hrest, bind_error hm _⟩

theorem performs_statement (o : Outcome ε) (effect : σ → σ) (key : κ) (change : β → β)
    (hview : ∀ s, view (effect s) = Function.update (view s) key (change (view s key)))
    (hrest : ∀ s, rest (effect s) = rest s) :
    Performs view rest (statement o effect) [⟨key, change, fun _ => o⟩] := by
  apply performs_one
  intro s
  cases o with
  | done => exact ⟨effect s, rfl, hview s, hrest s⟩
  | refused e => exact ⟨s, rfl, rfl, rfl⟩
  | lost e => exact ⟨effect s, rfl, hview s, hrest s⟩

end

end Caflow.Interrupted
