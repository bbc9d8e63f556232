import Mathlib

namespace Caflow.GreedyMatching

variable {ε κ : Type*} [DecidableEq κ] (left right : ε → κ)

/-- The edges in their order, each taken unless one of its ends is used up. -/
def take : List κ → List ε → List ε
  | _, [] => []
  | used, e :: es =>
    if left e ∈ used ∨ right e ∈ used then take used es
    else e :: take (left e :: right e :: used) es

/-- Two edges with an end in common. -/
def Meets (e f : ε) : Prop :=
  left e = left f ∨ left e = right f ∨ right e = left f ∨ right e = right f

variable {left right} {used : List κ} {es : List ε} {e f : ε}

theorem take_sublist (used : List κ) (es : List ε) : (take left right used es).Sublist es := by
  induction es generalizing used with
  | nil => exact .slnil
  | cons e es ih =>
    unfold take
    split
    · exact (ih used).cons e
    · exact (ih _).cons_cons e

/-- Nothing is taken at an end that is used up before. -/
theorem take_unused (h : e ∈ take left right used es) : left e ∉ used ∧ right e ∉ used := by
  induction es generalizing used with
  | nil => cases h
  | cons f es ih =>
    unfold take at h
    split at h
    · exact ih h
    · rename_i hfree
      rcases List.mem_cons.mp h with rfl | h
      · exact not_or.mp hfree
      · obtain ⟨hl, hr⟩ := ih h
        simp only [List.mem_cons, not_or] at hl hr
        exact ⟨hl.2.2, hr.2.2⟩

/-- No two edges that are taken meet. -/
theorem take_apart (used : List κ) (es : List ε) :
    (take left right used es).Pairwise fun e f => ¬ Meets left right e f := by
  induction es generalizing used with
  | nil => exact .nil
  | cons e es ih =>
    unfold take
    split
    · exact ih used
    · refine List.pairwise_cons.mpr ⟨fun f hf => ?_, ih _⟩
      obtain ⟨hl, hr⟩ := take_unused hf
      simp only [List.mem_cons, not_or] at hl hr
      unfold Meets
      tauto

/-- An edge that is not taken has an end that is used up, or meets one that is taken. -/
theorem take_maximal (h : e ∈ es) : (left e ∈ used ∨ right e ∈ used) ∨
    ∃ f ∈ take left right used es, Meets left right e f := by
  induction es generalizing used with
  | nil => cases h
  | cons f es ih =>
    unfold take
    split
    · rename_i hused
      rcases List.mem_cons.mp h with rfl | h
      · exact .inl hused
      · exact ih h
    · rcases List.mem_cons.mp h with rfl | h
      · exact .inr ⟨e, List.mem_cons_self, .inl rfl⟩
      · rcases @ih (left f :: right f :: used) h with hused | ⟨f', hf', hmeets⟩
        · simp only [List.mem_cons] at hused
          rcases hused with (hl | hl | hl) | hr | hr | hr
          · exact .inr ⟨f, List.mem_cons_self, .inl hl⟩
          · exact .inr ⟨f, List.mem_cons_self, .inr (.inl hl)⟩
          · exact .inl (.inl hl)
          · exact .inr ⟨f, List.mem_cons_self, .inr (.inr (.inl hr))⟩
          · exact .inr ⟨f, List.mem_cons_self, .inr (.inr (.inr hr))⟩
          · exact .inl (.inr hr)
        · exact .inr ⟨f', List.mem_cons_of_mem _ hf', hmeets⟩

/-- With nothing used up before, every edge meets one that is taken. -/
theorem take_covers (left right : ε → κ) (h : e ∈ es) :
    ∃ f ∈ take left right [] es, Meets left right e f := by
  have hmax : (left e ∈ ([] : List κ) ∨ right e ∈ ([] : List κ)) ∨
      ∃ f ∈ take left right [] es, Meets left right e f := take_maximal h
  simpa using hmax

/-- An edge that meets no other one is taken, whatever the order. -/
theorem take_alone (h : e ∈ es) (halone : ∀ f ∈ es, Meets left right e f → f = e) :
    e ∈ take left right [] es := by
  obtain ⟨f, hf, hmeets⟩ := take_covers left right h
  rwa [halone f ((take_sublist [] es).subset hf) hmeets] at hf

end Caflow.GreedyMatching
