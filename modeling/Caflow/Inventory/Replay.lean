import Caflow.Inventory.Movements
import Caflow.Lib.GrowingLog

namespace Caflow.Inventory.Replay
open Rounding GrowingLog

/-- A ledger row under the key and the time stamp it was inserted with. -/
structure Row extends Movement where
  id : ℕ
  createdAt : ℕ

/-- The row a query for the latest one answers with: `created_at` descending, limit one. -/
def latest (rows : List Row) : Option Row :=
  rows.foldl (fun best r => match best with
    | some b => if b.createdAt ≤ r.createdAt then some r else some b
    | none => some r) none

def lastLedgerRow (rows : List Row) : Option Movement := (latest rows).map Row.toMovement

/-- The order rows were recorded in. -/
def recordedBefore (a b : Row) : Prop :=
  a.createdAt < b.createdAt ∨ (a.createdAt = b.createdAt ∧ a.id ≤ b.id)

instance : DecidableRel recordedBefore := fun a b =>
  inferInstanceAs (Decidable (a.createdAt < b.createdAt ∨ (a.createdAt = b.createdAt ∧ a.id ≤ b.id)))

/-- The most recent row with nothing on hand: no layer survives it. -/
def watermark (rows : List Row) : Option Row :=
  latest (rows.filter (fun r => r.runningQtyUnits ≤ 0))

/-- The rows a replay reads, in the order they were recorded. The watermark row is read with
those of its time and then dropped by its id. -/
def rowsSince (rows : List Row) : Option Row → List Row
  | none => rows.insertionSort recordedBefore
  | some w =>
    ((rows.filter (fun r => w.createdAt ≤ r.createdAt)).insertionSort recordedBefore).filter
      (fun r => r.id ≠ w.id)

def openingDeficit : Option Row → ℚ
  | none => 0
  | some w => -w.runningQtyUnits

/-- The replay from a watermark, seeded with the deficit the watermark carries. -/
def replaySince (rows : List Row) (from? : Option Row) : Position :=
  layersFromMovements ((rowsSince rows from?).map Row.toMovement) (openingDeficit from?)

/-- The receipts still on hand for an item: what a first-in first-out issue is priced off. -/
def openLayers (rows : List Row) (prev : Option Movement) : List Layer :=
  match prev with
  | none => []
  | some p =>
    let position := replaySince rows (watermark rows)
    if valueOf position.layers ≠ p.runningValuePaise then
      rebase position.layers p.runningValuePaise
    else position.layers

/-- What is asked of the stock ledger of a client on first-in first-out. -/
inductive Request where
  | receive (quantity : ℚ) (totalCostPaise : ℤ)
  | issue (quantity : ℚ)
  | writeDown (nrvPerUnitPaise : ℤ)

def Request.entry (rows : List Row) : Request → Entry
  | .receive q c => .receive q c
  | .issue q => .issueFifo q (openLayers rows (lastLedgerRow rows))
  | .writeDown nrv => .writeDown nrv

def Request.Allowed : Request → Prop
  | .receive q c => 0 < q ∧ 0 ≤ c
  | .issue q => 0 < q
  | .writeDown nrv => 0 ≤ nrv

instance : DecidablePred Request.Allowed
  | .receive q c => inferInstanceAs (Decidable (0 < q ∧ 0 ≤ c))
  | .issue q => inferInstanceAs (Decidable (0 < q))
  | .writeDown nrv => inferInstanceAs (Decidable (0 ≤ nrv))

/-- One row recorded after the rows there are, under a later time stamp and a new key. -/
structure Records (rows : List Row) (r : Row) : Prop where
  priced : ∃ request : Request, request.Allowed ∧
    price (lastLedgerRow rows) (request.entry rows) = .ok (some r.toMovement)
  later : ∀ x ∈ rows, x.createdAt < r.createdAt
  fresh : ∀ x ∈ rows, x.id ≠ r.id

theorem latest_mem (h : latest rows = some r) : r ∈ rows := by
  induction rows using List.reverseRecOn generalizing r with
  | nil => cases h
  | append_singleton rows x ih =>
    simp only [latest, List.foldl_append, List.foldl_cons, List.foldl_nil] at h
    cases hb : latest rows with
    | none =>
      rw [latest] at hb
      rw [hb] at h
      cases h
      simp
    | some b =>
      have hm := ih hb
      rw [latest] at hb
      rw [hb] at h
      dsimp only at h
      split at h <;> cases h
      · simp
      · simp [hm]

theorem latest_concat (h : ∀ x ∈ rows, x.createdAt ≤ r.createdAt) :
    latest (rows ++ [r]) = some r := by
  simp only [latest, List.foldl_append, List.foldl_cons, List.foldl_nil]
  cases hb : latest rows with
  | none =>
    rw [latest] at hb
    rw [hb]
  | some b =>
    have hm := h b (latest_mem hb)
    rw [latest] at hb
    rw [hb]
    simp [hm]

/-- Time stamps rise and keys do not repeat. -/
def Ordered (rows : List Row) : Prop :=
  rows.Pairwise (fun a b => a.createdAt < b.createdAt ∧ a.id ≠ b.id)

theorem records_ordered (h : Grown Records rows) : Ordered rows := by
  induction h with
  | start => exact List.Pairwise.nil
  | record _ hs ih =>
    refine List.pairwise_append.mpr ⟨ih, List.pairwise_singleton _ _, ?_⟩
    intro a ha b hb
    cases List.mem_singleton.mp hb
    exact ⟨hs.later a ha, hs.fresh a ha⟩

theorem last_ledger_row_concat (h : Ordered (rows ++ [r])) :
    lastLedgerRow (rows ++ [r]) = some r.toMovement := by
  have hl : ∀ x ∈ rows, x.createdAt ≤ r.createdAt := fun x hx =>
    ((List.pairwise_append.mp h).2.2 x hx r (by simp)).1.le
  rw [lastLedgerRow, latest_concat hl]
  rfl

theorem Ordered.sorted (h : Ordered rows) : rows.insertionSort recordedBefore = rows :=
  List.Pairwise.insertionSort_eq (h.imp fun hab => .inl hab.1)

/-- From a watermark the replay reads exactly the rows recorded after it. -/
theorem rows_since_watermark (h : Ordered (before ++ w :: after)) :
    rowsSince (before ++ w :: after) (some w) = after := by
  obtain ⟨-, hw, hcross⟩ := List.pairwise_append.mp h
  obtain ⟨hafter, hsorted⟩ := List.pairwise_cons.mp hw
  have hbefore : before.filter (fun r => w.createdAt ≤ r.createdAt) = [] := by
    rw [List.filter_eq_nil_iff]
    intro a ha
    simpa using (hcross a ha w (by simp)).1
  have hkept : after.filter (fun r => w.createdAt ≤ r.createdAt) = after := by
    rw [List.filter_eq_self]
    intro a ha
    simpa using (hafter a ha).1.le
  have hfresh : after.filter (fun r => r.id ≠ w.id) = after := by
    rw [List.filter_eq_self]
    intro a ha
    simpa using (hafter a ha).2.symm
  have hread : (before ++ w :: after).filter (fun r => w.createdAt ≤ r.createdAt) = w :: after := by
    simp [List.filter_append, hbefore, hkept]
  rw [rowsSince, hread, Ordered.sorted hw]
  simpa using hfresh

/-- The layers and the running totals describe one position. -/
structure Agrees (p : Position) (prev : Option Movement) : Prop where
  stocked : Stocked p.layers
  sound : Sound p.layers
  deficit : 0 ≤ p.deficit
  exclusive : p.layers ≠ [] → p.deficit = 0
  quantity : p.quantity = prevQty prev
  value : p.valuePaise = prevValue prev

theorem Agrees.start : Agrees ⟨[], 0⟩ none :=
  ⟨by simp [Stocked], trivial, le_rfl, fun h => absurd rfl h, by simp [Position.quantity],
    by simp [Position.valuePaise]⟩

/-- With nothing on hand there are no layers, and the deficit is what was oversold. -/
theorem Agrees.exhausted (h : Agrees p prev) (hn : prevQty prev ≤ 0) :
    p = ⟨[], -prevQty prev⟩ := by
  have hq := h.quantity
  obtain ⟨layers, deficit⟩ := p
  rcases List.eq_nil_or_concat layers with rfl | hne
  · simp only [Position.quantity, quantity_of_nil] at hq
    rw [← hq]
    simp
  · have hne' : layers ≠ [] := by
      obtain ⟨_, _, rfl⟩ := hne
      simp
    have := h.stocked.quantity_pos hne'
    have := h.exclusive hne'
    simp only [Position.quantity] at hq this
    linarith

theorem Agrees.on_hand (h : Agrees p prev) (hp : 0 ≤ prevQty prev) :
    p.deficit = 0 ∧ quantityOf p.layers = prevQty prev := by
  have hq := h.quantity
  have hd : p.deficit = 0 := by
    rcases eq_or_ne p.layers [] with hl | hl
    · have := h.deficit
      simp only [Position.quantity, hl, quantity_of_nil] at hq
      linarith
    · exact h.exclusive hl
  exact ⟨hd, by rw [← hq, Position.quantity, hd, sub_zero]⟩

theorem Agrees.quantity_of_layers (h : Agrees p prev) :
    quantityOf p.layers = max 0 (prevQty prev) := by
  rcases le_total (prevQty prev) 0 with hn | hp
  · rw [h.exhausted hn, max_eq_left hn]
    rfl
  · rw [(h.on_hand hp).2, max_eq_right hp]

/-- A receipt covers the deficit first and is a layer for the rest. -/
theorem Agrees.receive (h : Agrees p prev)
    (hr : computeStockIn (prevQty prev) (prevValue prev) q c = .ok r) :
    Agrees (replayStep p r.movement) (some r.movement) := by
  obtain ⟨hq, hc, hdelta, hrun, hcase⟩ := stock_in_cases hr
  have hv := h.value
  rcases lt_or_ge (prevQty prev) 0 with hneg | hpos
  · obtain rfl := h.exhausted hneg.le
    have hd : 0 < -prevQty prev := by linarith
    simp only [Position.valuePaise, value_of_nil] at hv
    rcases hcase with ⟨hn, -, hz, -⟩ | ⟨hn, -, -, hvalue⟩
    · have hmin : min q (-prevQty prev) = q := min_eq_left (by linarith)
      have hstep : replayStep ⟨[], -prevQty prev⟩ r.movement = ⟨[], -prevQty prev - q⟩ := by
        simp [replayStep, hdelta, hq, hd, hmin]
      rw [hstep]
      exact ⟨by simp [Stocked], trivial, by dsimp only; linarith, fun hl => absurd rfl hl,
        by simp [Position.quantity, hrun]; ring, by simp [Position.valuePaise, hz]⟩
    · have hmin : min q (-prevQty prev) = -prevQty prev := min_eq_right (by linarith)
      have hleft : 0 < q + prevQty prev := by linarith
      have hstep : replayStep ⟨[], -prevQty prev⟩ r.movement =
          ⟨[⟨q + prevQty prev, r.movement.valueDeltaPaise⟩], 0⟩ := by
        simp [replayStep, hdelta, hq, hd, hmin, hleft]
      rw [hstep]
      exact ⟨by simpa [Stocked] using hleft, by intro x hx; simp at hx, le_rfl, fun _ => rfl,
        by simp [Position.quantity, hrun]; ring,
        by simp [Position.valuePaise, hvalue]; omega⟩
  · obtain ⟨hd, hqty⟩ := h.on_hand hpos
    rcases hcase with ⟨hn, -⟩ | ⟨hn, ht, hdv, hvalue⟩
    · linarith
    · rw [deficit_cost_of_nonneg hpos] at ht
      have hstep : replayStep p r.movement =
          ⟨p.layers ++ [⟨q, r.movement.valueDeltaPaise⟩], 0⟩ := by
        simp [replayStep, hdelta, hq, hd]
      rw [hstep]
      refine ⟨h.stocked.concat hq, h.sound.concat fun _ => ?_, le_rfl, fun _ => rfl, ?_, ?_⟩
      · dsimp only
        omega
      · simp [Position.quantity, hrun, hqty]
      · simp only [Position.valuePaise, value_of_append, value_of_cons, value_of_nil,
          prev_value_some, hvalue] at hv ⊢
        omega

/-- An issue takes the oldest layers off the books at their own value; holding it to what the
books hold never bites. -/
theorem Agrees.issue (h : Agrees p prev)
    (ho : computeStockOutFifo (prevQty prev) (prevValue prev) q p.layers = .ok m) :
    Agrees (replayStep p m) (some m) := by
  obtain ⟨hi, hout⟩ := stock_out_fifo_cases ho
  have hq := hi.positive
  have hstep : replayStep p m = ⟨(takeOldest p.layers q).remaining,
      p.deficit + (takeOldest p.layers q).uncoveredQuantity⟩ := by
    simp [replayStep, hi.delta, hq, hq.le]
  have hstocked := take_oldest_stocked p.layers q h.stocked
  have hquantity := take_oldest_quantity p.layers q hq.le
  have hvalue := take_oldest_value p.layers q
  have hrest := take_oldest_nonneg p.layers q hq h.sound
  obtain ⟨hu, hempty⟩ := take_oldest_uncovered p.layers q h.stocked
  have hpq := h.quantity
  have hpv := h.value
  simp only [Position.quantity, Position.valuePaise] at hpq hpv
  have hexclusive : (takeOldest p.layers q).remaining ≠ [] →
      p.deficit + (takeOldest p.layers q).uncoveredQuantity = 0 := by
    intro hl
    have hlayers : p.layers ≠ [] := by
      intro hnil
      simp [hnil, takeOldest] at hl
    rw [hempty hl, h.exclusive hlayers, add_zero]
  have hqty : quantityOf (takeOldest p.layers q).remaining -
      (p.deficit + (takeOldest p.layers q).uncoveredQuantity) = m.runningQtyUnits := by
    rw [hi.running]
    linarith
  have hleft : valueOf (takeOldest p.layers q).remaining = m.runningValuePaise := by
    rcases le_or_gt (prevQty prev - q) 0 with hn | hn
    · have hnone : (takeOldest p.layers q).remaining = [] := by
        by_contra hl
        have := hstocked.quantity_pos hl
        have := hexclusive hl
        rw [hi.running] at hqty
        linarith
      rw [hi.closed (hi.running ▸ hn), hnone]
      rfl
    · have := value_of_nonneg hrest
      have := hi.chains
      have := hout hn
      omega
  rw [hstep]
  exact ⟨hstocked, Sound.of_nonneg hrest, add_nonneg h.deficit hu, hexclusive, hqty, hleft⟩

/-- A write-down re-costs every layer to the new carrying amount. -/
theorem Agrees.write_down (h : Agrees p prev) (hnrv : 0 ≤ nrv)
    (hw : computeNrvWritedown (prevQty prev) (prevValue prev) nrv = some m) :
    Agrees (replayStep p m) (some m) := by
  obtain ⟨hp, hdelta, hrun, hvalue, hless, hd⟩ := nrv_writedown_cases hw
  obtain ⟨hdef, hqty⟩ := h.on_hand hp.le
  have hne : p.layers ≠ [] := by
    intro hnil
    rw [hnil] at hqty
    exact absurd hqty hp.ne
  have hnrv' : (0 : ℚ) ≤ nrv := by exact_mod_cast hnrv
  have hv : 0 ≤ m.runningValuePaise := by
    rw [hvalue]
    exact half_up_nonneg (by positivity)
  have hchange : m.valueDeltaPaise ≠ 0 := by omega
  have hstep : replayStep p m = ⟨rebase p.layers m.runningValuePaise, p.deficit⟩ := by
    simp [replayStep, hdelta, hne, hchange]
  rw [hstep]
  refine ⟨rebase_stocked h.stocked hne _, Sound.of_nonneg (rebase_nonneg h.stocked hne hv),
    h.deficit, fun _ => hdef, ?_, rebase_value h.stocked hne hv⟩
  simp [Position.quantity, rebase_quantity h.stocked hne, hqty, hdef, hrun]

/-- The replay of the whole ledger. -/
def replay (rows : List Row) : Position := layersFromMovements (rows.map Row.toMovement) 0

theorem replay_concat (rows : List Row) (r : Row) :
    replay (rows ++ [r]) = replayStep (replay rows) r.toMovement := by
  simp [replay, layersFromMovements]

/-- The watermark splits the ledger at a row with nothing on hand, if there is one. -/
theorem watermark_cases (rows : List Row) :
    watermark rows = none ∨
      ∃ before w after, rows = before ++ w :: after ∧ watermark rows = some w ∧
        w.runningQtyUnits ≤ 0 := by
  cases hw : watermark rows with
  | none => exact .inl rfl
  | some w =>
    obtain ⟨hmem, hq⟩ := List.mem_filter.mp (latest_mem hw)
    obtain ⟨before, after, he⟩ := List.append_of_mem hmem
    exact .inr ⟨before, w, after, he, rfl, by simpa using hq⟩

/-- Where every row so far agrees with its replay, starting at the watermark changes nothing. -/
theorem replay_since_watermark (ho : Ordered rows)
    (ha : Everywhere (fun before r => Agrees (replay (before ++ [r])) (some r.toMovement)) rows) :
    replaySince rows (watermark rows) = replay rows := by
  rcases watermark_cases rows with hw | ⟨before, w, after, rfl, hw, hq⟩
  · rw [hw, replaySince, rowsSince, ho.sorted]
    rfl
  · have hat := (ha before w after rfl).exhausted hq
    rw [hw, replaySince, rows_since_watermark ho]
    have hsplit : replay (before ++ w :: after) =
        (after.map Row.toMovement).foldl replayStep (replay (before ++ [w])) := by
      simp [replay, layersFromMovements]
    rw [hsplit, hat]
    rfl

theorem open_layers_eq (h : Agrees (replay rows) (lastLedgerRow rows))
    (hs : replaySince rows (watermark rows) = replay rows) :
    openLayers rows (lastLedgerRow rows) = (replay rows).layers := by
  have hv := h.value
  cases hl : lastLedgerRow rows with
  | none =>
    rw [hl] at h
    rw [h.exhausted le_rfl]
    rfl
  | some p =>
    rw [hl] at hv
    simp only [openLayers, hs]
    exact if_neg (not_not.mpr hv)

/-- Every row of the ledger agrees with the replay of the rows up to it. -/
theorem ledger_agrees (h : Grown Records rows) :
    Agrees (replay rows) (lastLedgerRow rows) ∧
      Everywhere (fun before r => Agrees (replay (before ++ [r])) (some r.toMovement)) rows := by
  induction h with
  | start => exact ⟨Agrees.start, everywhere_nil⟩
  | @record rows r hg hs ih =>
    obtain ⟨hnow, hall⟩ := ih
    have hopen := open_layers_eq hnow (replay_since_watermark (records_ordered hg) hall)
    have hstep : Agrees (replay (rows ++ [r])) (some r.toMovement) := by
      rw [replay_concat]
      obtain ⟨request, hallowed, hp⟩ := hs.priced
      cases request with
      | receive q c =>
        obtain ⟨receipt, hr, hm⟩ := price_receive hp
        rw [← hm]
        exact hnow.receive hr
      | issue q =>
        have ho := map_some_ok hp
        rw [hopen] at ho
        exact hnow.issue ho
      | writeDown nrv => exact hnow.write_down hallowed (price_write_down hp)
    refine ⟨?_, everywhere_concat.mpr ⟨hall, hstep⟩⟩
    rw [last_ledger_row_concat (records_ordered (.record hg hs))]
    exact hstep

/-- The layers of a replay are the quantity and the value of the ledger's tail, and a replay
from the watermark finds the same layers. -/
theorem replay_agrees (h : Grown Records rows) :
    quantityOf (replay rows).layers = max 0 (prevQty (lastLedgerRow rows)) ∧
      valueOf (replay rows).layers = prevValue (lastLedgerRow rows) ∧
      (replaySince rows (watermark rows)).layers = (replay rows).layers := by
  obtain ⟨hnow, hall⟩ := ledger_agrees h
  refine ⟨hnow.quantity_of_layers, hnow.value, ?_⟩
  rw [replay_since_watermark (records_ordered h) hall]

/-- The ledger after a request, on a clock that counts the rows. -/
def record (rows : List Row) (request : Request) : List Row :=
  match price (lastLedgerRow rows) (request.entry rows) with
  | .ok (some row) => rows ++ [⟨row, rows.length, rows.length⟩]
  | _ => rows

def recordAll (requests : List Request) : List Row := requests.foldl record []

theorem record_grown (ha : request.Allowed)
    (h : Grown Records rows ∧ ∀ x ∈ rows, x.createdAt < rows.length ∧ x.id < rows.length) :
    Grown Records (record rows request) ∧ ∀ x ∈ record rows request,
      x.createdAt < (record rows request).length ∧ x.id < (record rows request).length := by
  unfold record
  split
  · rename_i row hp
    refine ⟨.record h.1 ⟨⟨request, ha, hp⟩, fun x hx => (h.2 x hx).1, fun x hx =>
      (h.2 x hx).2.ne⟩, ?_⟩
    intro x hx
    simp only [List.length_append, List.length_singleton]
    rcases List.mem_append.mp hx with hx | hx
    · have := h.2 x hx
      omega
    · cases List.mem_singleton.mp hx
      exact ⟨Nat.lt_succ_self _, Nat.lt_succ_self _⟩
  · exact h

/-- Whatever is asked of it, a ledger recorded one request after another is a history. -/
theorem record_all_grown (ha : ∀ request ∈ requests, Request.Allowed request) :
    Grown Records (recordAll requests) := by
  suffices h : Grown Records (recordAll requests) ∧ ∀ x ∈ recordAll requests,
      x.createdAt < (recordAll requests).length ∧ x.id < (recordAll requests).length from h.1
  induction requests using List.reverseRecOn with
  | nil => exact ⟨.start, by simp [recordAll]⟩
  | append_singleton requests request ih =>
    simp only [recordAll, List.foldl_append, List.foldl_cons, List.foldl_nil]
    exact record_grown (ha request (by simp)) (ih fun x hx => ha x (by simp [hx]))

/-- Three units in, five out, four in, of which two clear the deficit, and one out. -/
theorem replay_agrees_oversold :
    let rows := recordAll [.receive 3 100, .issue 5, .receive 4 401, .issue 1, .writeDown 90]
    quantityOf (replay rows).layers = max 0 (prevQty (lastLedgerRow rows)) ∧
      valueOf (replay rows).layers = prevValue (lastLedgerRow rows) ∧
      (replaySince rows (watermark rows)).layers = (replay rows).layers :=
  replay_agrees (record_all_grown (by decide +kernel))

end Caflow.Inventory.Replay
