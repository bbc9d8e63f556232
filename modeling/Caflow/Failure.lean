import Mathlib

namespace Caflow

/-- What a call raises: a refused value, an answer to the caller, or a fault of the
database or the network under it. -/
inductive Failure where
  | valueError (message : String)
  | http (status : ℕ) (detail : String)
  | fault
  deriving DecidableEq

/-- Where two calls in a row come to an answer, the first of them did. -/
theorem bind_answered {α β : Type} {m : Except Failure α} {f : α → Except Failure β} {b : β}
    (h : m >>= f = .ok b) : ∃ a, m = .ok a ∧ f a = .ok b := by
  cases m with
  | ok a => exact ⟨a, rfl, h⟩
  | error failure => cases h

end Caflow
