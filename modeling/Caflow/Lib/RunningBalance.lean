import Mathlib

namespace Caflow.RunningBalance

/-- One period of a balance that carries forward. -/
structure Period where
  opening : ℤ
  inflow : ℤ
  outflow : ℤ
  closing : ℤ

def Period.Balanced (p : Period) : Prop := p.outflow + p.closing = p.opening + p.inflow

/-- The next period opens with what this one closed with. -/
def Carried (p q : Period) : Prop := q.opening = p.closing

/-- Over periods that carry forward, all that came in is what went out and what is left. -/
theorem carried_total (h : (p :: ps).IsChain Carried) (hb : ∀ q ∈ p :: ps, q.Balanced) :
    p.opening + ((p :: ps).map Period.inflow).sum =
      ((p :: ps).map Period.outflow).sum + ((p :: ps).getLast (List.cons_ne_nil p ps)).closing := by
  induction ps generalizing p with
  | nil =>
    have hp : p.Balanced := hb p (by simp)
    unfold Period.Balanced at hp
    simp only [List.map_cons, List.map_nil, List.sum_cons, List.sum_nil, List.getLast_singleton]
    omega
  | cons q ps ih =>
    obtain ⟨hcarried, hrest⟩ := List.isChain_cons_cons.mp h
    have hp : p.Balanced := hb p (by simp)
    have htail := ih hrest (fun r hr => hb r (List.mem_cons_of_mem _ hr))
    unfold Period.Balanced at hp
    unfold Carried at hcarried
    rw [List.getLast_cons (List.cons_ne_nil q ps)]
    simp only [List.map_cons, List.sum_cons] at htail ⊢
    omega

/-- The amounts of a list, each with the balance it leaves. -/
def running {α : Type*} (amount : α → ℤ) : ℤ → List α → List (α × ℤ)
  | _, [] => []
  | balance, a :: as => (a, balance + amount a) :: running amount (balance + amount a) as

/-- A list goes on from the balance that the one before it left. -/
theorem running_append {α : Type*} (amount : α → ℤ) (balance : ℤ) (as bs : List α) :
    running amount balance (as ++ bs) =
      running amount balance as ++ running amount (balance + (as.map amount).sum) bs := by
  induction as generalizing balance with
  | nil => simp [running]
  | cons a as ih =>
    rw [List.cons_append, running, running, ih, List.cons_append, List.map_cons, List.sum_cons,
      add_assoc]

end Caflow.RunningBalance
