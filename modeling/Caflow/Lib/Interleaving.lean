import Mathlib

namespace Caflow.Interleaving

variable {ι σ π ρ : Type*} [DecidableEq ι]

/-- Calls that share a store: what it holds, and where each call stands. -/
structure World (ι σ π : Type*) where
  store : σ
  phase : ι → π

variable (advance : ι → σ → π → ρ → σ × π)

/-- One statement of one call, with what becomes of it. -/
def step (w : World ι σ π) (event : ι × ρ) : World ι σ π :=
  let next := advance event.1 w.store (w.phase event.1) event.2
  ⟨next.1, Function.update w.phase event.1 next.2⟩

def run (w : World ι σ π) (events : List (ι × ρ)) : World ι σ π := events.foldl (step advance) w

/-- Every statement of a run is of a kind. -/
def Along (ok : ι → σ → π → ρ → Prop) : World ι σ π → List (ι × ρ) → Prop
  | _, [] => True
  | w, event :: events =>
    ok event.1 w.store (w.phase event.1) event.2 ∧ Along ok (step advance w event) events

variable {advance}

@[simp] theorem run_nil (w : World ι σ π) : run advance w [] = w := rfl

@[simp] theorem run_cons (w : World ι σ π) (event : ι × ρ) (events : List (ι × ρ)) :
    run advance w (event :: events) = run advance (step advance w event) events := rfl

instance decidableAlong {ok : ι → σ → π → ρ → Prop} [∀ i s p r, Decidable (ok i s p r)] :
    (w : World ι σ π) → (events : List (ι × ρ)) → Decidable (Along advance ok w events)
  | _, [] => isTrue trivial
  | w, event :: events =>
    haveI : Decidable (Along advance ok (step advance w event) events) := decidableAlong _ _
    inferInstanceAs (Decidable (ok event.1 w.store (w.phase event.1) event.2 ∧
      Along advance ok (step advance w event) events))

/-- What each statement of a kind keeps, a run of such statements keeps. -/
theorem run_keeps (Inv : World ι σ π → Prop) {ok : ι → σ → π → ρ → Prop}
    (hstep : ∀ w i r, Inv w → ok i w.store (w.phase i) r → Inv (step advance w (i, r)))
    {w : World ι σ π} (events : List (ι × ρ)) (h : Inv w) (halong : Along advance ok w events) :
    Inv (run advance w events) := by
  induction events generalizing w with
  | nil => exact h
  | cons event events ih =>
    obtain ⟨hfirst, hrest⟩ := halong
    exact ih (hstep w event.1 event.2 h hfirst) hrest

/-- Every statement of a run meets a condition that may look at where the other calls stand. -/
def Throughout (advance : ι → σ → π → ρ → σ × π) (ok : World ι σ π → ι → ρ → Prop) :
    World ι σ π → List (ι × ρ) → Prop
  | _, [] => True
  | w, event :: events =>
    ok w event.1 event.2 ∧ Throughout advance ok (step advance w event) events

instance decidableThroughout {ok : World ι σ π → ι → ρ → Prop} [∀ w i r, Decidable (ok w i r)] :
    (w : World ι σ π) → (events : List (ι × ρ)) → Decidable (Throughout advance ok w events)
  | _, [] => isTrue trivial
  | w, event :: events =>
    haveI : Decidable (Throughout advance ok (step advance w event) events) :=
      decidableThroughout _ _
    inferInstanceAs (Decidable (ok w event.1 event.2 ∧
      Throughout advance ok (step advance w event) events))

theorem run_keeps_throughout (Inv : World ι σ π → Prop) {ok : World ι σ π → ι → ρ → Prop}
    (hstep : ∀ w i r, Inv w → ok w i r → Inv (step advance w (i, r)))
    {w : World ι σ π} (events : List (ι × ρ)) (h : Inv w)
    (hall : Throughout advance ok w events) : Inv (run advance w events) := by
  induction events generalizing w with
  | nil => exact h
  | cons event events ih =>
    obtain ⟨hfirst, hrest⟩ := hall
    exact ih (hstep w event.1 event.2 h hfirst) hrest

theorem along_of_all {ok : ι → σ → π → ρ → Prop} (hall : ∀ i s p r, ok i s p r)
    (w : World ι σ π) (events : List (ι × ρ)) : Along advance ok w events := by
  induction events generalizing w with
  | nil => trivial
  | cons event events ih => exact ⟨hall _ _ _ _, ih _⟩

/-- What holds of a call's own place stays while another moves, if the move leaves it standing. -/
theorem step_standing_apart {Standing : ι → σ → π → Prop} {w : World ι σ π} {i : ι} {r : ρ}
    (hown : Standing i (advance i w.store (w.phase i) r).1 (advance i w.store (w.phase i) r).2)
    (hothers : ∀ j, j ≠ i → Standing j (advance i w.store (w.phase i) r).1 (w.phase j))
    (j : ι) : Standing j (step advance w (i, r)).store ((step advance w (i, r)).phase j) := by
  unfold step
  dsimp only
  by_cases hj : j = i
  · subst hj
    rw [Function.update_self]
    exact hown
  · rw [Function.update_of_ne hj]
    exact hothers j hj

theorem step_standing {Standing : ι → σ → π → Prop} {w : World ι σ π} {i : ι} {r : ρ}
    (h : ∀ j, Standing j w.store (w.phase j))
    (hown : Standing i (advance i w.store (w.phase i) r).1 (advance i w.store (w.phase i) r).2)
    (hothers : ∀ j p, Standing j w.store p → Standing j (advance i w.store (w.phase i) r).1 p)
    (j : ι) : Standing j (step advance w (i, r)).store ((step advance w (i, r)).phase j) :=
  step_standing_apart hown (fun j _ => hothers j _ (h j)) j

/-- No two calls hold the one thing there is to hold. -/
def Alone (holds : π → Bool) (phase : ι → π) : Prop :=
  ∀ i j, holds (phase i) → holds (phase j) → i = j

omit [DecidableEq ι] in
theorem Alone.others_free {holds : π → Bool} {phase : ι → π} (h : Alone holds phase)
    (hi : holds (phase i) = true) (j : ι) (hj : j ≠ i) : holds (phase j) = false := by
  cases hholds : holds (phase j) with
  | false => rfl
  | true => exact absurd (h j i hholds hi) hj

/-- A call that comes to hold held before, or takes what nobody held. -/
theorem Alone.update {holds : π → Bool} {phase : ι → π} (h : Alone holds phase) {i : ι} {p : π}
    (hp : holds p → holds (phase i) ∨ ∀ j, holds (phase j) = false) :
    Alone holds (Function.update phase i p) := by
  intro j k hj hk
  by_cases hji : j = i <;> by_cases hki : k = i
  · rw [hji, hki]
  · subst hji
    rw [Function.update_self] at hj
    rw [Function.update_of_ne hki] at hk
    rcases hp hj with hown | hnone
    · exact h j k hown hk
    · rw [hnone k] at hk
      cases hk
  · subst hki
    rw [Function.update_self] at hk
    rw [Function.update_of_ne hji] at hj
    rcases hp hk with hown | hnone
    · exact h j k hj hown
    · rw [hnone j] at hj
      cases hj
  · rw [Function.update_of_ne hji] at hj
    rw [Function.update_of_ne hki] at hk
    exact h j k hj hk

/-- When one call moves, what all calls hold changes by what that one holds. -/
theorem sum_update [Fintype ι] {M : Type*} [AddCommMonoid M] (held : ι → π → M) (phase : ι → π)
    (i : ι) (p : π) : ∑ j, held j (Function.update phase i p j) + held i (phase i) =
      ∑ j, held j (phase j) + held i p := by
  have hupdate : ∀ j, held j (Function.update phase i p j) =
      Function.update (fun k => held k (phase k)) i (held i p) j := by
    intro j
    exact Function.apply_update held phase i p j
  simp only [hupdate]
  rw [Finset.sum_update_of_mem (Finset.mem_univ i),
    Finset.sum_eq_sum_sdiff_singleton_add (Finset.mem_univ i) fun k => held k (phase k)]
  abel

/-- A call that runs alone, a statement for each reply. -/
def solo (advance : σ → π → ρ → σ × π) (s : σ × π) (replies : List ρ) : σ × π :=
  replies.foldl (fun s r => advance s.1 s.2 r) s

/-- Every statement of a call that runs alone is of a kind. -/
def SoloAlong (advance : σ → π → ρ → σ × π) (ok : σ → π → ρ → Prop) : σ × π → List ρ → Prop
  | _, [] => True
  | s, r :: replies => ok s.1 s.2 r ∧ SoloAlong advance ok (advance s.1 s.2 r) replies

instance decidableSoloAlong {advance : σ → π → ρ → σ × π} {ok : σ → π → ρ → Prop}
    [∀ s p r, Decidable (ok s p r)] :
    (s : σ × π) → (replies : List ρ) → Decidable (SoloAlong advance ok s replies)
  | _, [] => isTrue trivial
  | s, r :: replies =>
    have : Decidable (SoloAlong advance ok (advance s.1 s.2 r) replies) :=
      decidableSoloAlong (advance s.1 s.2 r) replies
    inferInstanceAs (Decidable (_ ∧ _))

theorem solo_keeps {advance : σ → π → ρ → σ × π} (Inv : σ → π → Prop) {ok : σ → π → ρ → Prop}
    (hstep : ∀ s p r, Inv s p → ok s p r → Inv (advance s p r).1 (advance s p r).2)
    {s : σ × π} (replies : List ρ) (h : Inv s.1 s.2) (halong : SoloAlong advance ok s replies) :
    Inv (solo advance s replies).1 (solo advance s replies).2 := by
  induction replies generalizing s with
  | nil => exact h
  | cons r replies ih =>
    obtain ⟨hfirst, hrest⟩ := halong
    exact ih (hstep s.1 s.2 r h hfirst) hrest

theorem solo_along_of_all {advance : σ → π → ρ → σ × π} {ok : σ → π → ρ → Prop}
    (hall : ∀ s p r, ok s p r) (s : σ × π) (replies : List ρ) : SoloAlong advance ok s replies := by
  induction replies generalizing s with
  | nil => trivial
  | cons r replies ih => exact ⟨hall _ _ _, ih _⟩

end Caflow.Interleaving
