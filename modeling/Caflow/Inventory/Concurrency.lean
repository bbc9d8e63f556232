import Caflow.Inventory.Movements
import Caflow.Lib.VersionedLog

namespace Caflow.Inventory.Concurrency
open GrowingLog VersionedLog

/-- One call of `record_stock_in`, `record_stock_out` or `record_stock_out_at_value`. -/
inductive Request where
  | stockIn (quantity : ℚ) (totalCostPaise : ℤ)
  | stockOut (method : Method) (quantity : ℚ)
  | stockOutAtValue (quantity : ℚ) (valuePaise : ℤ)

def Request.Allowed : Request → Prop
  | .stockIn q c => 0 < q ∧ 0 ≤ c
  | .stockOut _ q => 0 < q
  | .stockOutAtValue q _ => 0 < q

instance : DecidablePred Request.Allowed
  | .stockIn q c => inferInstanceAs (Decidable (0 < q ∧ 0 ≤ c))
  | .stockOut _ q => inferInstanceAs (Decidable (0 < q))
  | .stockOutAtValue q _ => inferInstanceAs (Decidable (0 < q))

def Request.signedQuantity : Request → ℚ
  | .stockIn q _ => q
  | .stockOut _ q | .stockOutAtValue q _ => -q

/-- What an attempt computes, given the layers it read. -/
def Request.entry (layers : List Layer) : Request → Entry
  | .stockIn q c => .receive q c
  | .stockOut method q => method.issue q layers
  | .stockOutAtValue q v => .issueAtValue q v

def maxAttempts : ℕ := 6

variable {ι : Type} [DecidableEq ι] (requests : ι → Request) (layers : ι → ℕ → List Layer)

/-- One attempt of a movement. The layers an attempt reads may be any. -/
def attempt (i : ι) (k : ℕ) (prev : Option Movement) : Except Failure (Option Movement) :=
  price prev ((requests i).entry (layers i k))

/-- The item after the steps of a schedule, from an empty ledger. -/
def runSchedule (version : Option ℕ) (schedule : List ι) : Option (State ι Failure Movement) :=
  run (attempt requests layers) maxAttempts (start version) schedule

/-- No step of the schedule reads the tail past a movement that has claimed and not inserted, and
none loses its sixth claim. -/
def CleanSchedule (version : Option ℕ) (schedule : List ι) : Prop :=
  Clean (attempt requests layers) maxAttempts (start version) schedule

instance [Fintype ι] (version : Option ℕ) (schedule : List ι) :
    Decidable (CleanSchedule requests layers version schedule) :=
  decidableClean _ _ _ _

/-- A row carries on from the row inserted immediately before it. -/
def RowChains (before : List (ι × Movement)) (p : ι × Movement) : Prop :=
  p.2.runningQtyUnits = prevQty (tail before) + p.2.quantityDelta ∧
    p.2.runningValuePaise = prevValue (tail before) + p.2.valueDeltaPaise

theorem entry_signed_quantity (r : Request) (ls : List Layer) :
    (r.entry ls).signedQuantity = r.signedQuantity := by
  rcases r with _ | ⟨_ | _, _⟩ | _ <;> rfl

/-- An allowed movement is never refused by the computation. -/
theorem price_of_allowed {r : Request} (h : r.Allowed) (ls : List Layer) (prev : Option Movement) :
    ∃ m, price prev (r.entry ls) = .ok (some m) := by
  rcases r with ⟨q, c⟩ | ⟨_ | _, q⟩ | ⟨q, v⟩
  · simp only [Request.entry, price, computeStockIn, not_le.mpr h.1, not_lt.mpr h.2, ↓reduceIte]
    split <;> exact ⟨_, rfl⟩
  all_goals
    have hq : ¬ q ≤ 0 := not_le.mpr h
    simp only [Request.entry, Method.issue, price, computeStockOut, computeStockOutFifo, consume,
      stockOutAtValue, hq, ↓reduceIte]
    exact ⟨_, rfl⟩

omit [DecidableEq ι] in
theorem tail_closed (h : Grown (Chained (attempt requests layers)) log) :
    ForceClosed (tail log) := by
  cases h with
  | start => intro _; rfl
  | record _ hs =>
    obtain ⟨k, hk⟩ := hs
    rw [tail_concat]
    exact price_force_closed hk

omit [DecidableEq ι] in
theorem rows_chain (h : Grown (Chained (attempt requests layers)) log) :
    Everywhere RowChains log := by
  induction h with
  | start => exact everywhere_nil
  | record hg hs ih =>
    obtain ⟨k, hk⟩ := hs
    exact everywhere_concat.mpr
      ⟨ih, (price_quantity hk).2, price_value hk (tail_closed requests layers hg)⟩

omit [DecidableEq ι] in
/-- The tail's quantity is the sum of what the writers of the rows asked for. -/
theorem tail_quantity (h : Grown (Chained (attempt requests layers)) log) :
    prevQty (tail log) = ((ids log).map fun i => (requests i).signedQuantity).sum := by
  induction h with
  | start => rfl
  | record hg hs ih =>
    obtain ⟨k, hk⟩ := hs
    obtain ⟨hd, hq⟩ := price_quantity hk
    rw [entry_signed_quantity] at hd
    rw [tail_concat, prev_qty_some, hq, hd, ih]
    simp [ids]

/-- In every clean run rows chain, and once every movement has ended the tail holds the sum of
them all. -/
theorem stock_ledger_chains [Fintype ι] (ha : ∀ i, (requests i).Allowed)
    (hr : runSchedule requests layers version schedule = some s)
    (hc : CleanSchedule requests layers version schedule) :
    Everywhere RowChains s.log ∧
      ((∀ i, (s.phase i).Ended) →
        prevQty (tail s.log) = ∑ i, (requests i).signedQuantity) := by
  have hinv := (inv_start (attempt requests layers) version).run _ maxAttempts hr hc
  refine ⟨rows_chain requests layers hinv.grown, fun he => ?_⟩
  have hperm := hinv.all_recorded _ (fun i k t => price_of_allowed (ha i) (layers i k) t) he
  rw [tail_quantity requests layers hinv.grown, (hperm.map _).sum_eq, Finset.sum_map_toList]

/-- Ten units for a hundred paise and five for fifty, recorded at the same time. -/
def twoReceipts : Fin 2 → Request := ![.stockIn 10 100, .stockIn 5 50]

/-- The second receipt reads the version the first has claimed and the tail the first has not
inserted yet, and its own claim goes through: five units end a chain that should hold fifteen. -/
theorem stock_ledger_breaks :
    (∀ i, (twoReceipts i).Allowed) ∧
    ∃ s, runSchedule twoReceipts (fun _ _ => []) none [0, 0, 0, 1, 1, 1, 0, 1] = some s ∧
      (∀ i, (s.phase i).Ended) ∧ ¬ Everywhere RowChains s.log ∧
      prevQty (tail s.log) ≠ ∑ i, (twoReceipts i).signedQuantity := by
  have hsome : (runSchedule twoReceipts (fun _ _ => []) none [0, 0, 0, 1, 1, 1, 0, 1]).isSome := by
    decide +kernel
  have hlog : ∀ h, ((runSchedule twoReceipts (fun _ _ => []) none [0, 0, 0, 1, 1, 1, 0, 1]).get
      h).log = [(0, ⟨10, 10, 100, 10, 10, 100⟩), (1, ⟨5, 10, 50, 5, 10, 50⟩)] := by
    decide +kernel
  refine ⟨by decide +kernel, _, (Option.some_get hsome).symm, by decide +kernel +revert, fun h => ?_,
    by decide +kernel +revert⟩
  have hrow := h [(0, ⟨10, 10, 100, 10, 10, 100⟩)] (1, ⟨5, 10, 50, 5, 10, 50⟩) []
    (hlog hsome)
  exact absurd hrow.1 (by decide +kernel)

/-- A run in which the second receipt loses its first claim and is recorded by its second. -/
theorem stock_ledger_chains_retried :
    ∃ s, runSchedule twoReceipts (fun _ _ => []) none [0, 1, 0, 1, 0, 1, 0, 1, 1, 1, 1] = some s ∧
      Everywhere RowChains s.log ∧
      ((∀ i, (s.phase i).Ended) →
        prevQty (tail s.log) = ∑ i, (twoReceipts i).signedQuantity) := by
  have hsome : (runSchedule twoReceipts (fun _ _ => []) none
      [0, 1, 0, 1, 0, 1, 0, 1, 1, 1, 1]).isSome := by decide +kernel
  exact ⟨_, (Option.some_get hsome).symm,
    stock_ledger_chains _ _ (by decide +kernel) (Option.some_get hsome).symm (by decide +kernel)⟩

end Caflow.Inventory.Concurrency
