import Caflow.Lib.Interleaving
import Caflow.OrderCycle.Purchases

namespace Caflow.OrderCycle.Purchases
open Drawdown Tally Interleaving Rounding

def ReceiptLine.takes (line : ReceiptLine) : Option ℕ × ℤ := (line.orderLineId, line.kept)

def GoodsReceipt.slip (g : GoodsReceipt) : Slip :=
  ⟨g.orderId, g.status ≠ .cancelled, g.lines.map (·.takes)⟩

def Books.book (b : Books) : Book OrderStatus := ⟨b.orders, b.receipts.map (·.slip), b.nextLineId⟩

theorem slip_taken (g : GoodsReceipt) (line : ℕ) :
    g.slip.taken line =
      if g.status ≠ .cancelled then tally (g.lines.map (·.takes)) (some line) else 0 := by
  simp [Slip.taken, GoodsReceipt.slip]

theorem position_book (b : Books) (lines : List OrderLine) :
    orderOpenPosition b lines = b.book.position lines := by
  apply List.map_congr_left
  intro line _
  congr 1
  rw [tally_flat_map]
  simp only [Books.book, Book.taken, List.map_map]
  congr 1
  apply List.map_congr_left
  intro g _
  rw [Function.comp_apply, slip_taken]
  split <;> rfl

theorem order_status_derives : Derives orderStatusFor := by
  constructor
  · intro lines status
    unfold orderStatusFor
    split_ifs <;> simp_all [orderOpenStatuses]
  · intro lines lines' status h h'
    simp only [orderStatusFor, h.1, h'.1, h.not_full, h'.not_full, h.not_begun, h'.not_begun]

/-- A typed line whose kept quantity is no more than a stored one is stored as keeping no more. -/
theorem stored_kept_le {line : GoodsReceiptLineIn} (hallowed : line.stored.allowed = true) {n : ℤ}
    (hn : 0 ≤ n) (h : line.quantity - line.rejectedQty ≤ toDecimal n) : line.stored.kept ≤ n := by
  have hrejected : 0 ≤ column line.rejectedQty := by
    have := of_decide_eq_true hallowed
    exact this.1
  have hquantity : 1000 * line.quantity ≤ n + 1000 * line.rejectedQty := by
    unfold toDecimal at h
    linarith
  have hround := half_up_le_add hn hrejected hquantity
  simp only [ReceiptLine.kept, GoodsReceiptLineIn.stored, column] at *
  omega

theorem position_of_ok {b : Books} {orderId : Option ℕ} {position : Option (List OpenLine)}
    (h : positionOf b orderId = .ok position) {rows : List OpenLine} (hrows : position = some rows) :
    ∃ a o, orderId = some a ∧ b.orders[a]? = some o ∧ rows = orderOpenPosition b o.lines := by
  unfold positionOf at h
  split at h
  · cases h
    cases hrows
  · rename_i a
    split at h
    · cases h
    · rename_i o ho
      cases h
      exact ⟨a, o, rfl, ho, (Option.some.inj hrows).symm⟩

/-- An accepted line names a line of the order the receipt names. -/
theorem accepted_named {b : Books} {orderId : Option ℕ} {position : Option (List OpenLine)}
    {lines : List LineIn} (hposition : positionOf b orderId = .ok position)
    (h : refuseOverTaking position lines = []) {line : LineIn} (hline : line ∈ lines)
    {orderLineId : ℕ} (hname : line.orderLineId = some orderLineId) :
    ∃ a o, orderId = some a ∧ b.orders[a]? = some o ∧ orderLineId ∈ lineIds o.lines := by
  obtain ⟨rows, hrows, -, row, hmem, hid, -⟩ := accepted_lines h hline hname
  obtain ⟨a, o, horder, ho, rfl⟩ := position_of_ok hposition hrows
  obtain ⟨l, hl, rfl⟩ := List.mem_map.mp hmem
  exact ⟨a, o, horder, ho, mem_line_ids.mpr ⟨l, hl, hid⟩⟩

theorem resettle_book (b : Books) (orderId : Option ℕ) :
    (resettleOrderStatus b orderId).book = b.book.resettle orderStatusFor orderId := by
  cases orderId with
  | none => rfl
  | some a => simp only [resettleOrderStatus, Books.book, Book.resettle, position_book]

theorem create_order_book (b : Books) (payload : PurchaseOrderIn) :
    (createOrder b payload).book =
      b.book.openOrder .draft (payload.quantities.map column) := by
  simp [createOrder, Books.book, Book.openOrder]

def GoodsReceiptLineIn.asked (line : GoodsReceiptLineIn) : LineIn :=
  ⟨line.orderLineId, line.quantity - line.rejectedQty⟩

def GoodsReceiptIn.slip (payload : GoodsReceiptIn) : Slip :=
  ⟨payload.orderId, true, payload.lines.map (·.stored.takes)⟩

/-- A receipt counts from the moment it is made. -/
theorem create_receipt_book {b b' : Books} {payload : GoodsReceiptIn}
    (h : createReceipt b payload = .ok b') :
    ∃ position, positionOf b payload.orderId = .ok position ∧
      refuseOverTaking position (payload.lines.map (·.asked)) = [] ∧
      (∀ line ∈ payload.lines, line.stored.allowed = true) ∧
      b'.book = (b.book.raise payload.slip).resettle orderStatusFor payload.orderId := by
  unfold createReceipt at h
  simp only [bind, Except.bind, pure, Except.pure, throw, throwThe, MonadExceptOf.throw] at h
  split at h
  · cases h
  · rename_i position hposition
    split at h
    · cases h
    · rename_i hproblems
      split at h
      · cases h
      · rename_i hallowed
        cases h
        refine ⟨position, hposition, not_not.mp hproblems, ?_, ?_⟩
        · simpa using hallowed
        · rw [resettle_book]
          congr 1
          simp [Books.book, Book.raise, GoodsReceipt.slip, GoodsReceiptIn.slip, Function.comp_def]

theorem turned_book {b : Books} {receiptId : ℕ} {f : GoodsReceipt → GoodsReceipt} {live : Bool}
    (hf : ∀ g, b.receipts[receiptId]? = some g → (f g).slip = { g.slip with live := live }) :
    Books.book { b with receipts := b.receipts.modify receiptId f } =
      b.book.turn receiptId live := by
  simp only [Books.book, Book.turn, Book.mk.injEq, true_and, and_true]
  exact map_modify hf

theorem update_receipt_book {b b' : Books} {receiptId : ℕ} {patch : GoodsReceiptUpdateIn}
    (h : updateReceipt b receiptId patch = .ok b') :
    ∃ g, b.receipts[receiptId]? = some g ∧
      b'.book = (b.book.turn receiptId (patch.status.getD g.status ≠ .cancelled)).resettle
        orderStatusFor g.orderId := by
  unfold updateReceipt at h
  simp only [bind, Except.bind, pure, Except.pure, throw, throwThe, MonadExceptOf.throw] at h
  split at h
  · rename_i g hg
    split at h
    · cases h
    · cases h
      refine ⟨g, hg, ?_⟩
      rw [resettle_book]
      congr 1
      apply turned_book
      intro g' hg'
      obtain rfl := Option.some.inj (hg'.symm.trans hg)
      rfl
  · cases h

theorem replace_lines_book (b : Books) (orderId : ℕ) (order : Order OrderStatus)
    (quantities : List ℚ) : (replaceLines b orderId order quantities).book =
      b.book.reline orderId order.lines (quantities.map column) := by
  simp only [replaceLines, Books.book, Book.reline, List.map_map, List.length_map,
    Book.mk.injEq, true_and, and_true]
  apply List.map_congr_left
  intro g _
  simp [GoodsReceipt.slip, Slip.detach, ReceiptLine.takes, ReceiptLine.kept, Function.comp_def]

theorem update_order_book {b b' : Books} {orderId : ℕ} {patch : PurchaseOrderUpdateIn}
    (h : updateOrder b orderId patch = .ok b') :
    ∃ o amended, b.orders[orderId]? = some o ∧
      (patch.lines = none ∧ amended = b.book ∨
        ∃ quantities, patch.lines = some quantities ∧ quantities ≠ [] ∧
          (∀ row ∈ orderOpenPosition b o.lines, row.takenQty = 0) ∧
          amended = b.book.reline orderId o.lines (quantities.map column)) ∧
      b'.book = match patch.status with
        | none => amended
        | some status => amended.setStatus orderId status := by
  unfold updateOrder at h
  simp only [bind, Except.bind, pure, Except.pure, throw, throwThe, MonadExceptOf.throw] at h
  split at h
  · rename_i o ho
    split at h
    · cases h
    · split at h
      · cases h
      · rename_i amended hamended
        refine ⟨o, amended.book, ho, ?_, ?_⟩
        · unfold amendLines at hamended
          split at hamended
          · rename_i hlines
            cases hamended
            exact .inl ⟨hlines, rfl⟩
          · rename_i quantities hlines
            split at hamended
            · cases hamended
            · rename_i hnone
              split at hamended
              · cases hamended
              · rename_i hne
                cases hamended
                refine .inr ⟨quantities, hlines, hne, ?_, replace_lines_book b orderId o quantities⟩
                simpa using hnone
        · cases hstatus : patch.status with
          | none =>
            rw [hstatus] at h
            cases h
            rfl
          | some status =>
            rw [hstatus] at h
            cases h
            rfl
  · cases h

/-- What a call asks of its quantities beyond what the code asks: an order is of positive
quantities, the lines of a receipt that name one order line fit in it together, and a cancelled
receipt that counts again fits in what is open then. -/
def Call.Fits (b : Books) : Call → Prop
  | .createOrder payload => ∀ quantity ∈ payload.quantities, 0 < column quantity
  | .createReceipt payload =>
    ∀ orderId ∈ payload.orderId, ∀ order ∈ b.orders[orderId]?,
      Together (orderOpenPosition b order.lines) payload.slip.takes
  | .updateReceipt receiptId patch =>
    ∀ g ∈ b.receipts[receiptId]?, g.status = .cancelled → (∃ s ∈ patch.status, s ≠ .cancelled) →
      ∀ orderId ∈ g.orderId, ∀ order ∈ b.orders[orderId]?,
        ∀ row ∈ orderOpenPosition b order.lines,
          tally g.slip.takes (some row.orderLineId) ≤ row.openQty
  | .updateOrder _ patch => ∀ quantities ∈ patch.lines, ∀ quantity ∈ quantities, 0 < column quantity

/-- The orders whose status was last given by hand, and is not what their lines bear out. -/
def handAfter (b : Books) (hand : List ℕ) : Call → List ℕ
  | .createOrder _ => hand
  | .createReceipt payload => hand.filter (some · ≠ payload.orderId)
  | .updateReceipt receiptId _ =>
    hand.filter (some · ≠ b.receipts[receiptId]?.bind (·.orderId))
  | .updateOrder orderId patch =>
    match patch.status, b.orders[orderId]? with
    | some status, some order =>
      if orderStatusFor (orderOpenPosition b order.lines) status = status then
        hand.filter (· ≠ orderId)
      else orderId :: hand
    | _, _ => hand

theorem create_order_sound {b : Books} (h : Sound b.book) {payload : PurchaseOrderIn}
    (hfits : (Call.createOrder payload).Fits b) : Sound (createOrder b payload).book := by
  rw [create_order_book]
  apply h.open_order
  · simpa using payload.hasLines
  · intro q hq
    obtain ⟨quantity, hquantity, rfl⟩ := List.mem_map.mp hq
    exact hfits quantity hquantity

theorem slip_get {b : Books} {receiptId : ℕ} {g : GoodsReceipt}
    (h : b.receipts[receiptId]? = some g) : b.book.slips[receiptId]? = some g.slip := by
  simp [Books.book, h]

theorem create_receipt_keeps {b b' : Books} {hand : List ℕ} {payload : GoodsReceiptIn}
    (h : Sound b.book) (hset : Settled orderStatusFor b.book hand)
    (hfits : (Call.createReceipt payload).Fits b) (hok : createReceipt b payload = .ok b') :
    Sound b'.book ∧
      Settled orderStatusFor b'.book (handAfter b hand (.createReceipt payload)) := by
  obtain ⟨position, hposition, haccepted, hallowed, hbook⟩ := create_receipt_book hok
  have hnamed : Named b.book payload.slip := by
    intro t ht orderLineId hname
    obtain ⟨line, hline, rfl⟩ := List.mem_map.mp ht
    exact accepted_named hposition haccepted (List.mem_map_of_mem hline) hname
  rw [hbook]
  constructor
  · apply Sound.resettle
    apply h.raise hnamed
    · intro t ht _
      obtain ⟨line, hline, rfl⟩ := List.mem_map.mp ht
      have := of_decide_eq_true (hallowed line hline)
      simp only [ReceiptLine.takes, ReceiptLine.kept]
      omega
    · intro _
      apply h.fits hnamed
      intro a o horder ho
      have ho : b.orders[a]? = some o := ho
      have horder : payload.orderId = some a := horder
      have htogether := hfits a horder o ho
      simp only [positionOf, horder, ho, Except.ok.injEq] at hposition
      rw [← hposition, position_book] at haccepted
      rw [position_book] at htogether
      apply accepted_fit (position_distinct h (List.mem_of_getElem? ho)) haccepted
      · exact fun line => rfl
      · exact fun line hline n hn hle => stored_kept_le (hallowed line hline) hn hle
      · exact htogether
  · exact hset.raise order_status_derives h hnamed

theorem update_receipt_keeps {b b' : Books} {hand : List ℕ} {receiptId : ℕ}
    {patch : GoodsReceiptUpdateIn} (h : Sound b.book) (hset : Settled orderStatusFor b.book hand)
    (hfits : (Call.updateReceipt receiptId patch).Fits b)
    (hok : updateReceipt b receiptId patch = .ok b') :
    Sound b'.book ∧
      Settled orderStatusFor b'.book (handAfter b hand (.updateReceipt receiptId patch)) := by
  obtain ⟨g, hg, hbook⟩ := update_receipt_book hok
  have hslip := slip_get hg
  have hnamed := h.named g.slip (List.mem_of_getElem? hslip)
  rw [hbook]
  constructor
  · apply Sound.resettle
    apply h.turn hslip
    intro hlive hdead
    have hcancelled : g.status = .cancelled := by simpa [GoodsReceipt.slip] using hdead
    have hrevived : ∃ s ∈ patch.status, s ≠ .cancelled := by
      cases hstatus : patch.status with
      | none => simp [hstatus, hcancelled] at hlive
      | some s => exact ⟨s, rfl, by simpa [hstatus] using hlive⟩
    apply h.fits hnamed
    intro a o horder ho
    rw [← position_book]
    exact hfits g hg hcancelled hrevived a horder o ho
  · simp only [handAfter, hg, Option.bind_some]
    exact hset.turn order_status_derives h hslip _

theorem update_order_keeps {b b' : Books} {hand : List ℕ} {orderId : ℕ}
    {patch : PurchaseOrderUpdateIn} (h : Sound b.book) (hset : Settled orderStatusFor b.book hand)
    (hfits : (Call.updateOrder orderId patch).Fits b) (hok : updateOrder b orderId patch = .ok b') :
    Sound b'.book ∧
      Settled orderStatusFor b'.book (handAfter b hand (.updateOrder orderId patch)) := by
  obtain ⟨o, amended, ho, hamended, hbook⟩ := update_order_book hok
  have hlines : amended = b.book ∨ ∃ quantities, quantities ≠ [] ∧ (∀ q ∈ quantities, 0 < q) ∧
      (∀ line ∈ o.lines, b.book.taken line.id = 0) ∧
        amended = b.book.reline orderId o.lines quantities := by
    obtain ⟨-, rfl⟩ | ⟨quantities, hlines, hne, hnone, rfl⟩ := hamended
    · exact .inl rfl
    · refine .inr ⟨quantities.map column, by simpa using hne, ?_, ?_, rfl⟩
      · intro q hq
        obtain ⟨quantity, hquantity, rfl⟩ := List.mem_map.mp hq
        exact hfits quantities hlines quantity hquantity
      · intro line hline
        rw [position_book] at hnone
        exact hnone _ (List.mem_map_of_mem hline)
  obtain ⟨hsound, hsettled, hsame⟩ := amend_keeps order_status_derives h hset ho hlines
  cases hstatus : patch.status with
  | none =>
    simp only [hstatus] at hbook
    simp only [handAfter, hstatus, hbook]
    exact ⟨hsound, hsettled⟩
  | some status =>
    simp only [hstatus] at hbook
    simp only [handAfter, hstatus, ho, hbook]
    refine ⟨hsound.set_status orderId status, ?_⟩
    split
    · rename_i hderived
      rw [position_book] at hderived
      exact hsettled.set_derived (hsame status hderived)
    · exact hsettled.set_status orderId status

theorem attempt_keeps {b b' : Books} {hand : List ℕ} {call : Call} (h : Sound b.book)
    (hset : Settled orderStatusFor b.book hand) (hfits : call.Fits b)
    (hok : b.attempt call = .ok b') :
    Sound b'.book ∧ Settled orderStatusFor b'.book (handAfter b hand call) := by
  cases call with
  | createOrder payload =>
    cases hok
    refine ⟨create_order_sound h hfits, ?_⟩
    rw [create_order_book]
    exact hset.open_order (fun _ => rfl) _
  | createReceipt payload => exact create_receipt_keeps h hset hfits hok
  | updateReceipt receiptId patch => exact update_receipt_keeps h hset hfits hok
  | updateOrder orderId patch => exact update_order_keeps h hset hfits hok

/-- A refused call writes nothing. -/
def advance (b : Books) (hand : List ℕ) (call : Call) : Books × List ℕ :=
  match b.attempt call with
  | .ok b' => (b', handAfter b hand call)
  | .error _ => (b, hand)

def start : Books × List ℕ := (⟨[], [], 0⟩, [])

/-- What holds of the books of the purchase cycle, the status of the orders in `hand` apart. -/
structure Kept (b : Books) (hand : List ℕ) : Prop where
  within : ∀ order ∈ b.orders, ∀ row ∈ orderOpenPosition b order.lines,
    row.takenQty ≤ row.orderedQty
  named : ∀ g ∈ b.receipts, ∀ line ∈ g.lines, ∀ orderLineId, line.orderLineId = some orderLineId →
    ∃ order ∈ b.orders, orderLineId ∈ lineIds order.lines
  settled : ∀ orderId order, b.orders[orderId]? = some order → orderId ∉ hand →
    order.status = orderStatusFor (orderOpenPosition b order.lines) order.status

theorem kept_of_sound {b : Books} {hand : List ℕ} (h : Sound b.book)
    (hset : Settled orderStatusFor b.book hand) : Kept b hand := by
  refine ⟨?_, ?_, ?_⟩
  · intro order ho row hrow
    rw [position_book] at hrow
    obtain ⟨line, hline, rfl⟩ := List.mem_map.mp hrow
    exact h.within order ho line hline
  · intro g hg line hline orderLineId hname
    obtain ⟨a, order, _, ho, hmem⟩ :=
      h.named g.slip (List.mem_map_of_mem hg) line.takes (List.mem_map_of_mem hline) orderLineId hname
    exact ⟨order, List.mem_of_getElem? ho, hmem⟩
  · intro orderId order ho hhand
    rw [position_book]
    exact (hset orderId order ho hhand).symm

theorem run_keeps {calls : List Call}
    (h : SoloAlong advance (fun b _ call => call.Fits b) start calls) :
    Kept (solo advance start calls).1 (solo advance start calls).2 := by
  have hinv := @solo_keeps _ _ _ _ (fun b hand => Sound b.book ∧ Settled orderStatusFor b.book hand)
    (fun b _ call => call.Fits b) ?_ start calls ?_ h
  · exact kept_of_sound hinv.1 hinv.2
  · intro b hand call hinv hfits
    unfold advance
    split
    · rename_i b' hok
      exact attempt_keeps hinv.1 hinv.2 hfits hok
    · exact hinv
  · exact ⟨Sound.empty, fun a o ho => by simp [start, Books.book] at ho⟩

end Caflow.OrderCycle.Purchases
