import Caflow.Inventory.Concurrency
import Caflow.Inventory.Godowns
import Caflow.Lib.Interleaving
import Caflow.Lib.Interrupted

namespace Caflow.Inventory.TransferChain
open Interleaving Interrupted GrowingLog Godowns Concurrency

/-- A row as it is inserted, with the tail its running totals were computed from. -/
structure Insertion where
  previous : Option Movement
  row : StockRow
  deriving DecidableEq

/-- What the place held when a transfer asked, and how many rows the ledger had then. -/
structure Position where
  available : ℚ
  valuePaise : ℤ
  rowsRead : ℕ
  deriving DecidableEq

inductive Call where
  | record (request : Request) (movementDate : ℕ)
  | transfer (t : Transfer)

inductive Phase where
  | recording (phase : VersionedLog.Phase Failure Insertion)
  | readGodowns
  | readPosition
  | readTail (position : Position)
  | insertOut (position : Position) (carried : Carried)
  | insertIn (carried : Carried)
  | moved (valuePaise : ℤ)
  | refused (refusal : Refusal)
  | raised (failure : Failure)
  deriving DecidableEq

/-- The client's godowns, the item's version and its ledger. A row there before has no writer. -/
structure Store (ι : Type) where
  godowns : List Godown
  stockVersion : Option ℕ
  ledger : List (Option ι × Insertion)

variable {ι : Type}

def rows (ledger : List (Option ι × Insertion)) : List StockRow := ledger.map (·.2.row)

def lastLedgerRow (ledger : List (Option ι × Insertion)) : Option Movement :=
  (VersionedLog.tail ledger).map (·.row.movement)

def Store.insert (store : Store ι) (i : ι) (insertion : Insertion) : Store ι :=
  { store with ledger := store.ledger ++ [(some i, insertion)] }

/-- One attempt of a document's movement, from the tail it reads. -/
def attempt (request : Request) (movementDate : ℕ) (layers : ℕ → List Layer) (_ : Option ι) (k : ℕ)
    (tail : Option Insertion) : Except Failure (Option Insertion) :=
  let previous := tail.map (·.row.movement)
  (price previous (request.entry (layers k))).map
    (Option.map fun movement => ⟨previous, ⟨movementDate, none, none, movement⟩⟩)

def start (calls : ι → Call) (opening : Store ι) : World ι (Store ι) Phase where
  store := opening
  phase i :=
    match calls i with
    | .record _ _ => .recording (.readVersion 0)
    | .transfer _ => .readGodowns

section
variable [DecidableEq ι]

def recordStep (i : ι) (request : Request) (movementDate : ℕ) (layers : ℕ → List Layer)
    (store : Store ι) (phase : VersionedLog.Phase Failure Insertion) : Store ι × Phase :=
  match VersionedLog.step (attempt request movementDate layers) maxAttempts
    ⟨store.stockVersion, store.ledger, fun _ => phase⟩ (some i) with
  | none => (store, .recording phase)
  | some next =>
    ({ store with stockVersion := next.version, ledger := next.log },
      .recording (next.phase (some i)))

def transferStep (i : ι) (t : Transfer) (store : Store ι) (phase : Phase) (reply : Outcome Failure) :
    Store ι × Phase :=
  match phase with
  | .readGodowns =>
    match t.refusal store.godowns with
    | some refusal => (store, .refused refusal)
    | none => (store, .readPosition)
  | .readPosition =>
    let held := heldAt t.movementDate t.source (rows store.ledger)
    match t.takes store.godowns held with
    | .error refusal => (store, .refused refusal)
    | .ok value => (store, .readTail ⟨held.1, value, store.ledger.length⟩)
  | .readTail position =>
    (store, .insertOut position ⟨position.valuePaise, lastLedgerRow store.ledger⟩)
  | .insertOut _ carried =>
    let inserted := store.insert i ⟨carried.previous, t.outRow carried⟩
    match reply with
    | .done => (inserted, .insertIn carried)
    | .refused failure => (store, .raised failure)
    | .lost failure => (inserted, .raised failure)
  | .insertIn carried =>
    let inserted := store.insert i ⟨carried.previous, t.inRow carried⟩
    match reply with
    | .done => (inserted, .moved carried.valuePaise)
    | .refused failure => (store, .raised failure)
    | .lost failure => (inserted, .raised failure)
  | _ => (store, phase)

/-- The next statement of a call. -/
def advance (calls : ι → Call) (layers : ι → ℕ → List Layer) (i : ι) (store : Store ι)
    (phase : Phase) (reply : Outcome Failure) : Store ι × Phase :=
  match calls i with
  | .record request movementDate =>
    match phase with
    | .recording phase => recordStep i request movementDate (layers i) store phase
    | _ => (store, phase)
  | .transfer t => transferStep i t store phase reply

end

/-- Running totals: a quantity and a value. -/
def running (previous : Option Movement) : ℚ × ℤ := (prevQty previous, prevValue previous)

/-- What the rows add up to. -/
def deltas (ledger : List (Option ι × Insertion)) : ℚ × ℤ :=
  (ledger.map fun p => (p.2.row.movement.quantityDelta, p.2.row.movement.valueDeltaPaise)).sum

/-- A transfer is between its two inserts. -/
def Phase.halfway : Phase → Bool
  | .insertIn _ => true
  | _ => false

/-- What a transfer has taken out and not yet put in. -/
def underway : Call → Phase → ℚ × ℤ
  | .transfer t, .insertIn carried => (t.quantity, carried.valuePaise)
  | _, _ => 0

/-- A row by which a transfer takes goods out leaves no day from its own on short that was not
short before. -/
def LeavesEnough (calls : ι → Call) (before : List (Option ι × Insertion))
    (p : Option ι × Insertion) : Prop :=
  ∀ i t, p.1 = some i → calls i = .transfer t → p.2.row.movement.quantityDelta < 0 →
    ∀ day, t.movementDate ≤ day → 0 ≤ heldQuantity day t.source (rows before) →
      0 ≤ heldQuantity day t.source (rows (before ++ [p]))

/-- A ledger that nobody in the run wrote, whose tail holds what its rows add up to. -/
structure Sound (ledger : List (Option ι × Insertion)) : Prop where
  earlier : ∀ p ∈ ledger, p.1 = none
  summed : deltas ledger = running (lastLedgerRow ledger)
  closed : ForceClosed (lastLedgerRow ledger)

/-- What a place took and gave on the days after one and up to another. -/
def movedBetween (since day : ℕ) (place : Place) (rows : List StockRow) : ℚ :=
  ((rows.filter fun r => since < r.movementDate ∧ r.movementDate ≤ day ∧ r.place = place).map
    (·.movement.quantityDelta)).sum

/-- What the transfer leaves at its source covers what was recorded there since it asked, and what
is dated after it, on every day the source is not short already. -/
def Spared (t : Transfer) (position : Position) (ledger : List (Option ι × Insertion)) : Prop :=
  ∀ day, t.movementDate ≤ day → 0 ≤ heldQuantity day t.source (rows ledger) →
    0 ≤ (position.available - t.quantity) +
      heldQuantity t.movementDate t.source (rows (ledger.drop position.rowsRead)) +
      movedBetween t.movementDate day t.source (rows ledger)

/-- The last day a transfer from a place may have to answer for. -/
def lastDay (t : Transfer) (ledger : List (Option ι × Insertion)) : ℕ :=
  ((rows ledger).map StockRow.movementDate).foldr max t.movementDate

/-- The statement finds the totals it carries on still the tail's, a transfer's rows both go in or
neither does, and what it takes can be spared. -/
def Steady (calls : ι → Call) (i : ι) (store : Store ι) (phase : Phase) (reply : Outcome Failure) :
    Prop :=
  match calls i, phase with
  | .record _ _, .recording (.insert insertion) =>
    running insertion.previous = running (lastLedgerRow store.ledger)
  | .transfer t, .insertOut position carried =>
    match reply with
    | .refused _ => True
    | .lost _ => False
    | .done => running carried.previous = running (lastLedgerRow store.ledger) ∧
        Spared t position store.ledger
  | .transfer _, .insertIn carried =>
    match reply with
    | .refused _ => False
    | .done | .lost _ => running carried.previous = running (lastLedgerRow store.ledger)
  | _, _ => True

@[simp] theorem rows_concat (ledger : List (Option ι × Insertion)) (p : Option ι × Insertion) :
    rows (ledger ++ [p]) = rows ledger ++ [p.2.row] := by simp [rows]

@[simp] theorem deltas_concat (ledger : List (Option ι × Insertion)) (p : Option ι × Insertion) :
    deltas (ledger ++ [p]) = deltas ledger +
      (p.2.row.movement.quantityDelta, p.2.row.movement.valueDeltaPaise) := by simp [deltas]

@[simp] theorem last_ledger_row_concat (ledger : List (Option ι × Insertion))
    (p : Option ι × Insertion) : lastLedgerRow (ledger ++ [p]) = some p.2.row.movement := by
  simp [lastLedgerRow]

theorem held_cons (day : ℕ) (place : Place) (r : StockRow) (rows : List StockRow) :
    heldQuantity day place (r :: rows) =
      (if r.movementDate ≤ day ∧ r.place = place then r.movement.quantityDelta else 0) +
        heldQuantity day place rows := by
  rw [← held_single, ← held_append, List.singleton_append]

theorem moved_cons (since day : ℕ) (place : Place) (r : StockRow) (rows : List StockRow) :
    movedBetween since day place (r :: rows) =
      (if since < r.movementDate ∧ r.movementDate ≤ day ∧ r.place = place then
        r.movement.quantityDelta else 0) + movedBetween since day place rows := by
  unfold movedBetween
  rw [List.filter_cons]
  split
  · rename_i h
    rw [if_pos (of_decide_eq_true h), List.map_cons, List.sum_cons]
  · rename_i h
    rw [if_neg (by simpa using h), zero_add]

theorem held_split {since day : ℕ} (h : since ≤ day) (place : Place) (rows : List StockRow) :
    heldQuantity day place rows = heldQuantity since place rows + movedBetween since day place rows := by
  induction rows with
  | nil => simp [heldQuantity, movedBetween]
  | cons r rows ih =>
    rw [held_cons, held_cons, moved_cons, ih]
    by_cases hplace : r.place = place
    · rcases le_or_gt r.movementDate since with hearly | hlate
      · simp [hplace, hearly, hearly.trans h, not_lt.mpr hearly, add_assoc]
      · simp [hplace, hlate, not_le.mpr hlate, add_left_comm]
    · simp [hplace]

theorem held_read (day : ℕ) (place : Place) (ledger : List (Option ι × Insertion)) (read : ℕ) :
    heldQuantity day place (rows ledger) = heldQuantity day place (rows (ledger.take read)) +
      heldQuantity day place (rows (ledger.drop read)) := by
  have hrows : rows ledger = rows (ledger.take read) ++ rows (ledger.drop read) := by
    unfold rows
    rw [← List.map_append, List.take_append_drop]
  rw [hrows, held_append]

theorem last_day_start (t : Transfer) (ledger : List (Option ι × Insertion)) :
    t.movementDate ≤ lastDay t ledger := by
  unfold lastDay
  induction (rows ledger).map StockRow.movementDate with
  | nil => exact le_rfl
  | cons d days ih => exact le_max_of_le_right ih

theorem last_day_row (t : Transfer) (h : r ∈ rows ledger) : r.movementDate ≤ lastDay t ledger := by
  have hdays : ∀ (d : ℕ) (days : List ℕ) (start : ℕ), d ∈ days → d ≤ days.foldr max start := by
    intro d days start hd
    induction days with
    | nil => cases hd
    | cons d' days ih =>
      rcases List.mem_cons.mp hd with rfl | hd
      · exact le_max_left _ _
      · exact le_max_of_le_right (ih hd)
  exact hdays _ _ _ (List.mem_map_of_mem h)

/-- A day after all rows is as the last of them. -/
theorem spared_iff (t : Transfer) (position : Position) (ledger : List (Option ι × Insertion)) :
    Spared t position ledger ↔ ∀ day ≤ lastDay t ledger, t.movementDate ≤ day →
      0 ≤ heldQuantity day t.source (rows ledger) →
      0 ≤ (position.available - t.quantity) +
        heldQuantity t.movementDate t.source (rows (ledger.drop position.rowsRead)) +
        movedBetween t.movementDate day t.source (rows ledger) := by
  refine ⟨fun h day _ => h day, fun h day hday hheld => ?_⟩
  rcases le_or_gt day (lastDay t ledger) with hin | hlater
  · exact h day hin hday hheld
  · have hnone : movedBetween (lastDay t ledger) day t.source (rows ledger) = 0 := by
      unfold movedBetween
      rw [List.filter_eq_nil_iff.mpr]
      · rfl
      · intro r hr hafter
        have hlate := (of_decide_eq_true hafter).1
        exact absurd (last_day_row t hr) (not_le.mpr hlate)
    have hsame := held_split hlater.le t.source (rows ledger)
    have hday' := held_split hday t.source (rows ledger)
    have hlast' := held_split (last_day_start t ledger) t.source (rows ledger)
    have hlast := h _ le_rfl (last_day_start t ledger) (by linarith)
    linarith

instance (t : Transfer) (position : Position) (ledger : List (Option ι × Insertion)) :
    Decidable (Spared t position ledger) :=
  decidable_of_iff _ (spared_iff t position ledger).symm

instance (calls : ι → Call) (i : ι) (store : Store ι) (phase : Phase) (reply : Outcome Failure) :
    Decidable (Steady calls i store phase reply) := by
  unfold Steady
  split
  · infer_instance
  · split <;> infer_instance
  · split <;> infer_instance
  · infer_instance

/-- A movement was computed from the tail it names. -/
def Computed (request : Request) (insertion : Insertion) : Prop :=
  ∃ layers, price insertion.previous (request.entry layers) = .ok (some insertion.row.movement)

/-- What a call that records is about to insert. -/
def computing : VersionedLog.Phase Failure Insertion → Option Insertion
  | .claim _ _ insertion | .insert insertion => some insertion
  | _ => none

/-- A transfer was let through for what its source held when it asked. -/
def Asked (t : Transfer) (position : Position) (ledger : List (Option ι × Insertion)) : Prop :=
  t.quantity ≤ position.available ∧ position.rowsRead ≤ ledger.length ∧
    position.available =
      heldQuantity t.movementDate t.source (rows (ledger.take position.rowsRead))

def Standing (calls : ι → Call) (i : ι) (store : Store ι) (phase : Phase) : Prop :=
  match calls i, phase with
  | .record request _, .recording phase =>
    ∀ insertion, computing phase = some insertion → Computed request insertion
  | .transfer t, .readPosition | .transfer t, .insertIn _ => 0 < t.quantity
  | .transfer t, .readTail position | .transfer t, .insertOut position _ =>
    0 < t.quantity ∧ Asked t position store.ledger
  | _, _ => True

theorem Asked.append {t : Transfer} {position : Position} {ledger added : List (Option ι × Insertion)}
    (h : Asked t position ledger) : Asked t position (ledger ++ added) := by
  obtain ⟨hheld, hread, havailable⟩ := h
  refine ⟨hheld, ?_, ?_⟩
  · rw [List.length_append]
    omega
  · rw [List.take_append_of_le_length hread]
    exact havailable

theorem standing_append {calls : ι → Call} {store store' : Store ι}
    (hledger : store'.ledger = store.ledger ++ added) (j : ι) (p : Phase)
    (h : Standing calls j store p) : Standing calls j store' p := by
  unfold Standing at h ⊢
  cases hcall : calls j with
  | record request date =>
    simp only [hcall] at h ⊢
    cases p <;> exact h
  | transfer t =>
    simp only [hcall] at h ⊢
    cases p with
    | readTail position | insertOut position carried =>
      rw [hledger]
      exact ⟨h.1, h.2.append⟩
    | _ => exact h

/-- What goes out can be spared, so no later day is left short. -/
theorem out_leaves_enough {calls : ι → Call} {ledger : List (Option ι × Insertion)} {t : Transfer}
    {position : Position} (hcall : calls i = .transfer t) (hasked : Asked t position ledger)
    (hspared : Spared t position ledger) (previous : Option Movement) (carried : Carried) :
    LeavesEnough calls ledger (some i, ⟨previous, t.outRow carried⟩) := by
  intro j t' hj hcall' _ day hday hheld
  obtain rfl := Option.some.inj hj
  obtain rfl : t = t' := by
    rw [hcall] at hcall'
    exact Call.transfer.inj hcall'
  obtain ⟨-, -, havailable⟩ := hasked
  have hspare := hspared day hday hheld
  have hnow := held_split hday t.source (rows ledger)
  have hread := held_read t.movementDate t.source ledger position.rowsRead
  have hout : heldQuantity day t.source [t.outRow carried] = -t.quantity := by
    rw [held_single, if_pos ⟨hday, out_row_place t carried⟩]
    rfl
  rw [rows_concat, held_append, hout]
  linarith

/-- What one statement does to the ledger: nothing, or a row with what it carries on. -/
def Moves (calls : ι → Call) (i : ι) (store : Store ι) (phase : Phase) (next : Store ι × Phase) :
    Prop :=
  (next.1.ledger = store.ledger ∧ underway (calls i) next.2 = underway (calls i) phase) ∨
    ∃ insertion, next.1.ledger = store.ledger ++ [(some i, insertion)] ∧
      (insertion.row.movement.quantityDelta, insertion.row.movement.valueDeltaPaise) +
          underway (calls i) next.2 + running (lastLedgerRow store.ledger) =
        running (some insertion.row.movement) + underway (calls i) phase ∧
      ForceClosed (some insertion.row.movement) ∧
      LeavesEnough calls store.ledger (some i, insertion)

/-- Totals that are the tail's are closed when the tail's are. -/
theorem closed_of_running {previous tail : Option Movement} (h : running previous = running tail)
    (hclosed : ForceClosed tail) : ForceClosed previous := by
  obtain ⟨hqty, hvalue⟩ := Prod.mk.inj h
  intro hn
  rw [hvalue]
  exact hclosed (hqty ▸ hn)

theorem computed_moves {request : Request} {insertion : Insertion} {tail : Option Movement}
    (h : Computed request insertion) (hsame : running insertion.previous = running tail)
    (hclosed : ForceClosed tail) :
    (insertion.row.movement.quantityDelta, insertion.row.movement.valueDeltaPaise) + running tail =
      running (some insertion.row.movement) ∧ ForceClosed (some insertion.row.movement) := by
  obtain ⟨layers, hprice⟩ := h
  have hqty := (price_quantity hprice).2
  have hvalue := price_value hprice (closed_of_running hsame hclosed)
  refine ⟨?_, price_force_closed hprice⟩
  rw [← hsame]
  refine Prod.ext ?_ ?_
  · change _ + prevQty insertion.previous = insertion.row.movement.runningQtyUnits
    rw [hqty, add_comm]
  · change _ + prevValue insertion.previous = insertion.row.movement.runningValuePaise
    rw [hvalue, add_comm]

section
variable [DecidableEq ι]

theorem attempt_computed {tail : Option Insertion}
    (h : attempt request date layers j k tail = .ok (some insertion)) :
    Computed request insertion := by
  unfold attempt at h
  dsimp only at h
  cases hprice : price (tail.map (·.row.movement)) (request.entry (layers k)) with
  | error e =>
    rw [hprice] at h
    cases h
  | ok found =>
    rw [hprice] at h
    cases found with
    | none => cases h
    | some movement =>
      obtain rfl := Option.some.inj (Except.ok.inj h)
      exact ⟨layers k, hprice⟩

/-- A call that records either leaves the ledger and keeps to what it computed, or inserts. -/
theorem record_step_cases (i : ι) (request : Request) (date : ℕ) (layers : ℕ → List Layer)
    (store : Store ι) (phase : VersionedLog.Phase Failure Insertion) :
    let next := recordStep i request date layers store phase
    (next.1.ledger = store.ledger ∧ ∃ p, next.2 = .recording p ∧
      ∀ insertion, computing p = some insertion →
        computing phase = some insertion ∨ Computed request insertion) ∨
    ∃ insertion, phase = .insert insertion ∧
      next.1.ledger = store.ledger ++ [(some i, insertion)] ∧
      next.2 = .recording (.recorded insertion) := by
  unfold recordStep
  cases hstep : VersionedLog.step (attempt request date layers) maxAttempts
    ⟨store.stockVersion, store.ledger, fun _ => phase⟩ (some i) with
  | none => exact .inl ⟨rfl, phase, rfl, fun insertion h => .inl h⟩
  | some next =>
    rcases VersionedLog.step_cases _ _ hstep with ⟨k, -, rfl⟩ | ⟨k, v, p, -, rfl, hcomputed⟩ |
        ⟨k, v, row, hphase, -, rfl⟩ | ⟨k, v, row, -, -, -, rfl⟩ | ⟨k, v, row, -, -, -, rfl⟩ |
        ⟨row, hphase, rfl⟩
    · exact .inl ⟨rfl, _, congrArg _ (Function.update_self _ _ _), fun insertion h => by cases h⟩
    · refine .inl ⟨rfl, _, congrArg _ (Function.update_self _ _ _), fun insertion h => .inr ?_⟩
      rcases hcomputed with ⟨e, rfl, -⟩ | ⟨rfl, -⟩ | ⟨row, rfl, hrow⟩
      · cases h
      · cases h
      · obtain rfl := Option.some.inj h
        exact attempt_computed hrow
    · obtain rfl : phase = .claim k v row := hphase
      exact .inl ⟨rfl, _, congrArg _ (Function.update_self _ _ _), fun insertion h => .inl h⟩
    · exact .inl ⟨rfl, _, congrArg _ (Function.update_self _ _ _), fun insertion h => by cases h⟩
    · exact .inl ⟨rfl, _, congrArg _ (Function.update_self _ _ _), fun insertion h => by cases h⟩
    · exact .inr ⟨row, hphase, rfl, congrArg _ (Function.update_self _ _ _)⟩

end

/-- A steady statement of a transfer adds a row that carries on from the tail, or none. -/
theorem transfer_moves {calls : ι → Call} {store : Store ι} (hcall : calls i = .transfer t)
    (hstanding : Standing calls i store phase) (hclosed : ForceClosed (lastLedgerRow store.ledger))
    (hsteady : Steady calls i store phase reply) :
    Moves calls i store phase (transferStep i t store phase reply) := by
  unfold Standing at hstanding
  unfold Steady at hsteady
  unfold Moves
  rw [hcall] at hstanding hsteady ⊢
  cases phase with
  | readGodowns =>
    unfold transferStep
    dsimp only
    cases t.refusal store.godowns <;> exact .inl ⟨rfl, rfl⟩
  | readPosition =>
    unfold transferStep
    dsimp only
    cases t.takes store.godowns (heldAt t.movementDate t.source (rows store.ledger)) <;>
      exact .inl ⟨rfl, rfl⟩
  | insertOut position carried =>
    cases reply with
    | refused failure => exact .inl ⟨rfl, rfl⟩
    | lost failure => exact hsteady.elim
    | done =>
      obtain ⟨hsame, hspared⟩ := hsteady
      refine .inr ⟨⟨carried.previous, t.outRow carried⟩, rfl, ?_, closed_of_running hsame hclosed,
        out_leaves_enough hcall hstanding.2 hspared _ carried⟩
      change (-t.quantity, -carried.valuePaise) + (t.quantity, carried.valuePaise) + _ =
        running carried.previous + 0
      rw [hsame]
      simp
  | insertIn carried =>
    -- goods that come in leave no place short
    have henough : LeavesEnough calls store.ledger
        (some i, ⟨carried.previous, t.inRow carried⟩) := by
      intro j t' _ _ hneg
      exact absurd hneg (not_lt.mpr hstanding.le)
    have hin : running carried.previous = running (lastLedgerRow store.ledger) →
        (t.quantity, carried.valuePaise) + (0 : ℚ × ℤ) + running (lastLedgerRow store.ledger) =
          running carried.previous + (t.quantity, carried.valuePaise) := by
      intro hsame
      rw [hsame, add_zero, add_comm]
    cases reply with
    | refused failure => exact hsteady.elim
    | done | lost failure =>
      exact .inr ⟨⟨carried.previous, t.inRow carried⟩, rfl, hin hsteady,
        closed_of_running hsteady hclosed, henough⟩
  | _ => exact .inl ⟨rfl, rfl⟩

theorem refusal_none {t : Transfer} (h : t.refusal godowns = none) : 0 < t.quantity := by
  unfold Transfer.refusal at h
  split at h
  · cases h
  · split at h
    · cases h
    · split at h
      · cases h
      · split at h
        · cases h
        · split at h
          · cases h
          · rename_i hpos
            exact not_le.mp hpos

theorem transfer_standing {calls : ι → Call} {store : Store ι} (hcall : calls i = .transfer t)
    (h : Standing calls i store phase) (reply : Outcome Failure) :
    let next := transferStep i t store phase reply
    Standing calls i next.1 next.2 := by
  unfold Standing at h ⊢
  rw [hcall] at h ⊢
  cases phase with
  | readGodowns =>
    unfold transferStep
    dsimp only
    cases hrefusal : t.refusal store.godowns with
    | some refusal => trivial
    | none => exact refusal_none hrefusal
  | readPosition =>
    unfold transferStep
    dsimp only
    cases htakes : t.takes store.godowns (heldAt t.movementDate t.source (rows store.ledger)) with
    | error refusal => trivial
    | ok value =>
      refine ⟨h, (takes_ok htakes).1, le_rfl, ?_⟩
      rw [List.take_length]
      exact held_at_quantity _
  | readTail position => exact h
  | insertOut position carried =>
    cases reply with
    | done => exact h.1
    | refused failure | lost failure => trivial
  | insertIn carried => cases reply <;> trivial
  | recording p | moved value | refused refusal | raised failure => exact h

section
variable [DecidableEq ι] {calls : ι → Call} {layers : ι → ℕ → List Layer}

theorem advance_moves {store : Store ι} (hstanding : Standing calls i store phase)
    (hclosed : ForceClosed (lastLedgerRow store.ledger))
    (hsteady : Steady calls i store phase reply) :
    Moves calls i store phase (advance calls layers i store phase reply) := by
  unfold advance
  cases hcall : calls i with
  | transfer t => exact transfer_moves hcall hstanding hclosed hsteady
  | record request date =>
    cases phase with
    | recording p =>
      unfold Moves
      rw [hcall]
      rcases record_step_cases i request date (layers i) store p with
        ⟨hledger, p', hphase, -⟩ | ⟨insertion, rfl, hledger, hphase⟩
      · exact .inl ⟨hledger, by rw [hphase]; rfl⟩
      · unfold Standing at hstanding
        unfold Steady at hsteady
        rw [hcall] at hstanding hsteady
        obtain ⟨htotals, hnext⟩ := computed_moves (hstanding insertion rfl) hsteady hclosed
        refine .inr ⟨insertion, hledger, ?_, hnext, ?_⟩
        · rw [hphase]
          exact htotals ▸ by simp [underway]
        · intro j t hj hcall'
          obtain rfl := Option.some.inj hj
          rw [hcall] at hcall'
          cases hcall'
    | _ => exact .inl ⟨rfl, rfl⟩

theorem advance_standing {store : Store ι} (h : Standing calls i store phase)
    (reply : Outcome Failure) :
    let next := advance calls layers i store phase reply
    Standing calls i next.1 next.2 := by
  unfold advance
  cases hcall : calls i with
  | transfer t => exact transfer_standing hcall h reply
  | record request date =>
    cases phase with
    | recording p =>
      unfold Standing at h ⊢
      simp only [hcall] at h ⊢
      rcases record_step_cases i request date (layers i) store p with
        ⟨-, p', hphase, hcomputing⟩ | ⟨insertion, -, -, hphase⟩
      · rw [hphase]
        exact fun insertion hp => (hcomputing insertion hp).elim (h insertion) fun hc => hc
      · rw [hphase]
        intro insertion hp
        cases hp
    | _ => exact h

/-- The tail holds what the rows add up to and what is on its way between two godowns, and every
transfer took what could be spared. -/
structure Inv [Fintype ι] (calls : ι → Call) (w : World ι (Store ι) Phase) : Prop where
  summed : deltas w.store.ledger + ∑ j, underway (calls j) (w.phase j) =
    running (lastLedgerRow w.store.ledger)
  closed : ForceClosed (lastLedgerRow w.store.ledger)
  enough : Everywhere (LeavesEnough calls) w.store.ledger
  standing : ∀ j, Standing calls j w.store (w.phase j)

omit [DecidableEq ι] in
theorem inv_start [Fintype ι] {opening : Store ι} (h : Sound opening.ledger) (calls : ι → Call) :
    Inv calls (start calls opening) := by
  refine ⟨?_, h.closed, ?_, fun j => ?_⟩
  · have hnone : ∀ j, underway (calls j) ((start calls opening).phase j) = 0 := by
      intro j
      unfold start
      dsimp only
      cases calls j <;> rfl
    rw [Finset.sum_eq_zero fun j _ => hnone j, add_zero]
    exact h.summed
  · intro before p after hledger j t hj
    have hearlier : p ∈ opening.ledger := by
      change opening.ledger = _ at hledger
      simp [hledger]
    rw [h.earlier p hearlier] at hj
    cases hj
  · unfold Standing start
    dsimp only
    cases hcall : calls j with
    | record request date =>
      intro insertion hp
      cases hp
    | transfer t => trivial

theorem Inv.step [Fintype ι] {w : World ι (Store ι) Phase} {reply : Outcome Failure}
    (h : Inv calls w) (hsteady : Steady calls i w.store (w.phase i) reply) :
    Inv calls (step (advance calls layers) w (i, reply)) := by
  have hmoves := @advance_moves _ _ _ layers _ _ _ _ (h.standing i) h.closed hsteady
  have hsum := sum_update (fun j p => underway (calls j) p) w.phase i
    (advance calls layers i w.store (w.phase i) reply).2
  have hown := @advance_standing _ _ _ layers _ _ _ (h.standing i) reply
  unfold Interleaving.step
  rcases hmoves with ⟨hledger, hsame⟩ | ⟨insertion, hledger, htotals, hclosed, henough⟩
  · refine ⟨?_, ?_, ?_, step_standing h.standing hown fun j p hp => ?_⟩
    · rw [hsame] at hsum
      dsimp only
      rw [hledger, add_right_cancel hsum]
      exact h.summed
    · rw [hledger]
      exact h.closed
    · rw [hledger]
      exact h.enough
    · exact standing_append (hledger.trans (List.append_nil _).symm) j p hp
  · refine ⟨?_, ?_, ?_, step_standing h.standing hown (standing_append hledger)⟩
    · dsimp only
      rw [hledger, deltas_concat, last_ledger_row_concat]
      -- what the row adds and what the call then holds is what it held and the tail's change
      have hbefore := h.summed
      refine add_right_cancel (b := underway (calls i) (w.phase i)) ?_
      rw [← htotals, ← hbefore, add_assoc, add_assoc, hsum]
      abel
    · rw [hledger, last_ledger_row_concat]
      exact hclosed
    · rw [hledger]
      exact everywhere_concat.mpr ⟨h.enough, henough⟩

/-- In every run whose statements are steady, the tail holds what the rows add up to whenever no
transfer is halfway, and no transfer left its source short on any day it was not short before. -/
theorem transfers_keep_chain_and_places [Fintype ι] {opening : Store ι} (h : Sound opening.ledger)
    (hrun : Along (advance calls layers) (Steady calls) (start calls opening) events) :
    let after := run (advance calls layers) (start calls opening) events
    ((∀ j, (after.phase j).halfway = false) →
        running (lastLedgerRow after.store.ledger) = deltas after.store.ledger) ∧
      Everywhere (LeavesEnough calls) after.store.ledger := by
  have hinv := run_keeps (Inv calls) (fun w i r hw hok => @Inv.step _ _ _ layers _ _ _ _ hw hok) events
    (inv_start h calls) hrun
  refine ⟨fun hdone => ?_, hinv.enough⟩
  have hnone : ∀ j, underway (calls j)
      ((run (advance calls layers) (start calls opening) events).phase j) = 0 := by
    intro j
    have hj := hdone j
    unfold underway
    split
    · rename_i hphase
      rw [hphase] at hj
      cases hj
    · rfl
  have hsummed := hinv.summed
  rw [Finset.sum_eq_zero fun j _ => hnone j, add_zero] at hsummed
  exact hsummed.symm

end

/-- Ten units for a hundred paise, all in one godown of two. -/
def tenInNorth : Store (Fin 2) :=
  ⟨[⟨"north", "North", true⟩, ⟨"south", "South", true⟩], none,
    [(none, ⟨none, ⟨0, some "north", none, ⟨10, 10, 100, 10, 10, 100⟩⟩⟩)]⟩

def toSouth (quantity : ℚ) (movementDate : ℕ) : Call :=
  .transfer ⟨"north", "south", quantity, movementDate, none⟩

/-- The calls in turn, every statement carried out. -/
def turns (calls : List (Fin 2)) : List (Fin 2 × Outcome Failure) := calls.map (·, .done)

def after (calls : Fin 2 → Call) (opening : Store (Fin 2))
    (events : List (Fin 2 × Outcome Failure)) : World (Fin 2) (Store (Fin 2)) Phase :=
  run (advance calls fun _ _ => []) (start calls opening) events

theorem ten_in_north_sound : Sound tenInNorth.ledger :=
  ⟨by decide, by decide +kernel, fun h => absurd h (by decide +kernel)⟩

/-- A receipt recorded between a transfer's reading of the tail and its rows is not in the tail
they leave; neither is an issue whose second row was refused. Two transfers one after the other,
the second dated before the first, leave ten units less than nothing on the first one's day. And
two receipts alone leave a tail that misses one. -/
theorem transfers_break_chain_and_places :
    Sound tenInNorth.ledger ∧
    (let w := after ![toSouth 4 5, .record (.stockIn 5 50) 5] tenInNorth
      (turns [0, 0, 0, 1, 1, 1, 1, 0, 0])
     (∀ j, (w.phase j).halfway = false) ∧
      running (lastLedgerRow w.store.ledger) ≠ deltas w.store.ledger) ∧
    (let w := after ![toSouth 4 5, toSouth 1 9] tenInNorth
      (turns [0, 0, 0, 0] ++ [(0, .refused .fault)])
     (∀ j, (w.phase j).halfway = false) ∧
      running (lastLedgerRow w.store.ledger) ≠ deltas w.store.ledger) ∧
    (let calls := ![toSouth 10 5, toSouth 10 3]
     let w := after calls tenInNorth (turns [0, 0, 0, 0, 0, 1, 1, 1, 1, 1])
     (∀ j, w.phase j = .moved 100) ∧ ¬ Everywhere (LeavesEnough calls) w.store.ledger) ∧
    (let w := after ![.record (.stockIn 10 100) 5, .record (.stockIn 5 50) 5] ⟨[], none, []⟩
      (turns [0, 0, 0, 1, 1, 1, 0, 1])
     (∀ j, (w.phase j).halfway = false) ∧
      running (lastLedgerRow w.store.ledger) ≠ deltas w.store.ledger) := by
  refine ⟨ten_in_north_sound, ⟨by decide +kernel, by decide +kernel⟩,
    ⟨by decide +kernel, by decide +kernel⟩, ⟨by decide +kernel, fun h => ?_⟩,
    ⟨by decide +kernel, by decide +kernel⟩⟩
  have hthird : (after ![toSouth 10 5, toSouth 10 3] tenInNorth
      (turns [0, 0, 0, 0, 0, 1, 1, 1, 1, 1])).store.ledger[3]? =
      some (some 1, ⟨some ⟨10, 10, 100, 10, 10, 100⟩,
        ⟨3, some "north", none, ⟨-10, 10, -100, 10, 10, 100⟩⟩⟩) := by decide +kernel
  have hshort := h.at hthird 1 _ rfl rfl (by decide +kernel) 5 (by decide) (by decide +kernel)
  exact absurd hshort (by decide +kernel)

/-- A receipt and then a transfer, each on its own. -/
theorem transfers_keep_chain_and_places_in_turn :
    let w := after ![toSouth 4 5, .record (.stockIn 5 50) 5] tenInNorth
      (turns [1, 1, 1, 1, 0, 0, 0, 0, 0])
    ((∀ j, (w.phase j).halfway = false) →
        running (lastLedgerRow w.store.ledger) = deltas w.store.ledger) ∧
      Everywhere (LeavesEnough ![toSouth 4 5, .record (.stockIn 5 50) 5]) w.store.ledger :=
  transfers_keep_chain_and_places ten_in_north_sound (by decide +kernel)

end Caflow.Inventory.TransferChain
