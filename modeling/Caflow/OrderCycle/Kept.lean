import Caflow.OrderCycle.Delivered
import Caflow.OrderCycle.Received

namespace Caflow.OrderCycle
open Drawdown Interleaving

/-- In a run whose documents fit, no order line is delivered or received beyond what was ordered,
every line that names an order line names one that exists, and every order's status is the one its
lines give it, unless a status they do not bear out was the last thing given to it by hand. -/
theorem orders_kept :
    (∀ calls, SoloAlong Sales.advance (fun b _ call => call.Fits b) Sales.start calls →
      Sales.Kept (solo Sales.advance Sales.start calls).1
        (solo Sales.advance Sales.start calls).2) ∧
    (∀ calls, SoloAlong Purchases.advance (fun b _ call => call.Fits b) Purchases.start calls →
      Purchases.Kept (solo Purchases.advance Purchases.start calls).1
        (solo Purchases.advance Purchases.start calls).2) :=
  ⟨fun _ => Sales.run_keeps, fun _ => Purchases.run_keeps⟩

instance (b : Sales.Books) (call : Sales.Call) : Decidable (call.Fits b) := by
  cases call <;> unfold Sales.Call.Fits <;> infer_instance

instance (b : Purchases.Books) (call : Purchases.Call) : Decidable (call.Fits b) := by
  cases call <;> unfold Purchases.Call.Fits <;> infer_instance

/-- An order of ten delivered on two challans of four and six. -/
def deliveredInTwo : List Sales.Call :=
  [.createOrder ⟨[10], by simp⟩, .updateOrder 0 ⟨some .confirmed, none⟩,
    .createChallan ⟨some 0, [⟨some 0, 4⟩]⟩, .createChallan ⟨some 0, [⟨some 0, 6⟩]⟩,
    .issueChallan 0, .issueChallan 1]

/-- An order of ten of which four are received, the receipt cancelled and recorded again. -/
def receivedAgain : List Purchases.Call :=
  [.createOrder ⟨[10], by simp⟩, .updateOrder 0 ⟨some .approved, none⟩,
    .createReceipt ⟨some 0, none, none, [⟨some 0, 5, 1⟩]⟩,
    .updateReceipt 0 ⟨some .cancelled, none, none⟩, .updateReceipt 0 ⟨some .recorded, none, none⟩]

theorem orders_kept_twice :
    Sales.Kept (solo Sales.advance Sales.start deliveredInTwo).1
      (solo Sales.advance Sales.start deliveredInTwo).2 ∧
    Purchases.Kept (solo Purchases.advance Purchases.start receivedAgain).1
      (solo Purchases.advance Purchases.start receivedAgain).2 :=
  ⟨orders_kept.1 deliveredInTwo (by decide +kernel), orders_kept.2 receivedAgain (by decide +kernel)⟩

/-- An order of ten given the status delivered by hand, with nothing delivered. -/
def deliveredByHand : List Sales.Call :=
  [.createOrder ⟨[10], by simp⟩, .updateOrder 0 ⟨some .delivered, none⟩]

/-- One challan that names the one order line twice, for all ten of it each time. -/
def namedTwice : List Sales.Call :=
  [.createOrder ⟨[10], by simp⟩, .updateOrder 0 ⟨some .confirmed, none⟩,
    .createChallan ⟨some 0, [⟨some 0, 10⟩, ⟨some 0, 10⟩]⟩, .issueChallan 0]

/-- A cancelled receipt of all ten recorded again after another has received them. -/
def receivedTwice : List Purchases.Call :=
  [.createOrder ⟨[10], by simp⟩, .updateOrder 0 ⟨some .approved, none⟩,
    .createReceipt ⟨some 0, none, none, [⟨some 0, 10, 0⟩]⟩,
    .updateReceipt 0 ⟨some .cancelled, none, none⟩, .updateOrder 0 ⟨some .approved, none⟩,
    .createReceipt ⟨some 0, none, none, [⟨some 0, 10, 0⟩]⟩,
    .updateReceipt 0 ⟨some .recorded, none, none⟩]

theorem orders_not_kept :
    ¬ Sales.Kept (solo Sales.advance Sales.start deliveredByHand).1 [] ∧
    ¬ Sales.Kept (solo Sales.advance Sales.start namedTwice).1 [] ∧
    ¬ Purchases.Kept (solo Purchases.advance Purchases.start receivedTwice).1 [] := by
  refine ⟨?_, ?_, ?_⟩
  · intro h
    have hstatus := h.settled 0 ⟨.delivered, [⟨0, 10000⟩]⟩ (by decide +kernel) nofun
    exact absurd hstatus (by decide +kernel)
  · intro h
    have hwithin := h.within ⟨.delivered, [⟨0, 10000⟩]⟩ (by decide +kernel) ⟨0, 10000, 20000⟩
      (by decide +kernel)
    exact absurd hwithin (by decide)
  · intro h
    have hwithin := h.within ⟨.received, [⟨0, 10000⟩]⟩ (by decide +kernel) ⟨0, 10000, 20000⟩
      (by decide +kernel)
    exact absurd hwithin (by decide)

end Caflow.OrderCycle
