import Mathlib

namespace Caflow.OnePerGroup

section
variable [DecidableEq γ] (group : α → γ)

/-- The entries of a group give way to one other entry of it, or to none. -/
def replaced (g : γ) (new : Option α) (es : List α) : List α :=
  es.filter (fun e => group e ≠ g) ++ new.toList

/-- What is held for one group. -/
def heldFor (g : γ) (es : List α) : List α := es.filter (fun e => group e = g)

variable {group}

theorem mem_replaced : e ∈ replaced group g new es ↔ e ∈ es ∧ group e ≠ g ∨ new = some e := by
  unfold replaced
  simp

theorem replaced_nodup (hes : (es.map group).Nodup) (hnew : ∀ e, new = some e → group e = g) :
    ((replaced group g new es).map group).Nodup := by
  unfold replaced
  rw [List.map_append, List.nodup_append]
  refine ⟨hes.sublist (List.filter_sublist.map group), ?_, ?_⟩
  · cases new <;> simp
  · intro a ha b hb hab
    obtain ⟨x, hx, rfl⟩ := List.mem_map.mp ha
    obtain ⟨y, hy, rfl⟩ := List.mem_map.mp hb
    have hgroup : group x ≠ g := by simpa using (List.mem_filter.mp hx).2
    have hsome : new = some y := by simpa using hy
    exact hgroup (hab.trans (hnew y hsome))

/-- What stands outside a group is what stood there. -/
theorem filter_replaced (hnew : ∀ e, new = some e → group e = g) :
    (replaced group g new es).filter (fun e => group e ≠ g) = es.filter (fun e => group e ≠ g) := by
  unfold replaced
  rw [List.filter_append, List.filter_filter]
  cases new with
  | none => simp
  | some e => simp [hnew e rfl]

/-- A group other than the one replaced keeps what it holds. -/
theorem held_for_replaced (hnew : ∀ e, new = some e → group e = g) (hk : k ≠ g) :
    heldFor group k (replaced group g new es) = heldFor group k es := by
  unfold heldFor replaced
  have hnone : new.toList.filter (fun e => group e = k) = [] := by
    apply List.filter_eq_nil_iff.mpr
    intro e he heq
    have hsome : new = some e := by simpa using he
    exact hk ((of_decide_eq_true heq).symm.trans (hnew e hsome))
  rw [List.filter_append, hnone, List.append_nil, List.filter_filter]
  apply List.filter_congr
  intro e _
  by_cases he : group e = k
  · simp [he, hk]
  · simp [he]

theorem held_for_length (h : (es.map group).Nodup) (g : γ) : (heldFor group g es).length ≤ 1 := by
  have hcount : (es.map group).count g ≤ 1 := List.nodup_iff_count_le_one.mp h g
  rw [List.count_eq_countP, List.countP_map, List.countP_eq_length_filter] at hcount
  exact hcount

end

/-- The amounts outside a group never exceed them all. -/
theorem sum_filter_le {es : List α} (amount : α → ℤ) (p : α → Bool) (hes : ∀ e ∈ es, 0 ≤ amount e) :
    ((es.filter p).map amount).sum ≤ (es.map amount).sum := by
  induction es with
  | nil => simp
  | cons e es ih =>
    have htail := ih (fun x hx => hes x (List.mem_cons_of_mem e hx))
    have hhead : 0 ≤ amount e := hes e (by simp)
    rw [List.filter_cons]
    split
    · simp only [List.map_cons, List.sum_cons]
      omega
    · simp only [List.map_cons, List.sum_cons]
      omega

end Caflow.OnePerGroup
