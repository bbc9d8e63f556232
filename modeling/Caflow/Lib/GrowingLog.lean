import Mathlib

namespace Caflow.GrowingLog

/-- A log that only grows at its end, each row allowed by the rows before it. -/
inductive Grown (step : List α → α → Prop) : List α → Prop where
  | start : Grown step []
  | record (h : Grown step log) (hs : step log row) : Grown step (log ++ [row])

/-- Something holds of every row, given the rows before it. -/
def Everywhere (P : List α → α → Prop) (log : List α) : Prop :=
  ∀ before row after, log = before ++ row :: after → P before row

@[simp] theorem everywhere_nil {P : List α → α → Prop} : Everywhere P [] := by
  intro before row after h
  simp at h

theorem everywhere_concat {P : List α → α → Prop} :
    Everywhere P (log ++ [row]) ↔ Everywhere P log ∧ P log row := by
  refine ⟨fun h => ⟨?_, h log row [] rfl⟩, ?_⟩
  · rintro before r after rfl
    exact h before r (after ++ [row]) (by simp)
  · rintro ⟨hlog, hrow⟩ before r after he
    rcases List.eq_nil_or_concat after with rfl | ⟨init, last, rfl⟩
    · obtain ⟨rfl, hr⟩ := List.append_inj' he rfl
      cases hr
      exact hrow
    · have hsplit : log ++ [row] = (before ++ r :: init) ++ [last] := by simpa using he
      obtain ⟨rfl, -⟩ := List.append_inj' hsplit rfl
      exact hlog before r init rfl

theorem Everywhere.at {P : List α → α → Prop} (h : Everywhere P log) (hrow : log[n]? = some row) :
    P (log.take n) row := by
  obtain ⟨hn, rfl⟩ := List.getElem?_eq_some_iff.mp hrow
  refine h _ _ (log.drop (n + 1)) ?_
  rw [← List.drop_eq_getElem_cons hn, List.take_append_drop]

theorem grown_iff_everywhere {step : List α → α → Prop} : Grown step log ↔ Everywhere step log := by
  refine ⟨fun h => ?_, fun h => ?_⟩
  · induction h with
    | start => exact everywhere_nil
    | record _ hs ih => exact everywhere_concat.mpr ⟨ih, hs⟩
  · induction log using List.reverseRecOn with
    | nil => exact .start
    | append_singleton log row ih =>
      obtain ⟨hlog, hrow⟩ := everywhere_concat.mp h
      exact .record (ih hlog) hrow

/-- The earlier part of a grown log was grown the same way. -/
theorem Grown.before (h : Grown step (log ++ rest)) : Grown step log := by
  rw [grown_iff_everywhere] at h ⊢
  rintro before row after rfl
  exact h before row (after ++ rest) (by simp)

/-- What the empty log has and every step preserves, the whole log has. -/
theorem Grown.invariant {I : List α → Prop} (h : Grown step log) (hi : I [])
    (hs : ∀ log row, Grown step log → I log → step log row → I (log ++ [row])) : I log := by
  induction h with
  | start => exact hi
  | record hg hstep ih => exact hs _ _ hg ih hstep

/-- A property of rows that a step settles one way or the other, given that it held so far,
holds everywhere exactly when every step settles it. -/
theorem Grown.everywhere_iff {P Q : List α → α → Prop} (h : Grown step log)
    (hs : ∀ log row, Grown step log → Everywhere P log → step log row → (P log row ↔ Q log row)) :
    Everywhere P log ↔ Everywhere Q log := by
  induction h with
  | start => simp
  | record hg hstep ih =>
    rw [everywhere_concat, everywhere_concat, ← ih]
    exact and_congr_right fun hp => hs _ _ hg hp hstep

end Caflow.GrowingLog
