import Caflow.Lib.Interleaving
import Caflow.OrderCycle.Sales

namespace Caflow.OrderCycle.Sales
open Drawdown Tally Interleaving

def ChallanLine.takes (line : ChallanLine) : Option ℕ × ℤ := (line.orderLineId, line.quantity)

def DeliveryChallan.slip (c : DeliveryChallan) : Slip :=
  ⟨c.orderId, c.status.goodsHaveLeft, c.lines.map (·.takes)⟩

def Books.book (b : Books) : Book OrderStatus := ⟨b.orders, b.challans.map (·.slip), b.nextLineId⟩

theorem slip_taken (c : DeliveryChallan) (line : ℕ) :
    c.slip.taken line =
      if c.status.goodsHaveLeft then tally (c.lines.map (·.takes)) (some line) else 0 := rfl

/-- A stored line as it is asked when its goods leave. -/
def ChallanLine.asked (line : ChallanLine) : LineIn := ⟨line.orderLineId, toDecimal line.quantity⟩

theorem position_book (b : Books) (lines : List OrderLine) :
    orderOpenPosition b lines false = b.book.position lines := by
  apply List.map_congr_left
  intro line _
  congr 1
  rw [tally_flat_map]
  simp only [Books.book, Book.taken, List.map_map]
  congr 1
  apply List.map_congr_left
  intro c _
  simp only [Function.comp_apply, slip_taken, Bool.false_eq_true, false_and, or_false]
  split <;> rfl

/-- The drafts that still name a line are counted with the goods that have left. -/
theorem delivered_with_drafts {b : Books} (h : Sound b.book) {lines : List OrderLine}
    (hnone : ∀ row ∈ orderOpenPosition b lines true, row.takenQty = 0) {line : OrderLine}
    (hline : line ∈ lines) : b.book.taken line.id = 0 := by
  have hrow := hnone _ (List.mem_map_of_mem hline)
  rw [tally_flat_map] at hrow
  have hle : b.book.taken line.id ≤ 0 := by
    rw [← hrow]
    simp only [Books.book, Book.taken, List.map_map]
    apply List.sum_le_sum
    intro c hc
    have hnonneg := h.nonneg c.slip (List.mem_map_of_mem hc)
    have htally := tally_takes_nonneg hnonneg line.id
    simp only [Function.comp_apply, slip_taken]
    by_cases hleft : c.status.goodsHaveLeft
    · simp [hleft, ChallanLine.takes]
    · simp only [hleft, Bool.false_eq_true, ↓reduceIte]
      split
      · exact htally
      · exact le_rfl
  exact le_antisymm hle (h.taken_nonneg line.id)

theorem order_status_derives : Derives orderStatusFor := by
  constructor
  · intro lines status
    unfold orderStatusFor
    split_ifs <;> simp_all [orderOpenStatuses]
  · intro lines lines' status h h'
    simp only [orderStatusFor, h.1, h'.1, h.not_full, h'.not_full, h.not_begun, h'.not_begun]

theorem position_of_ok {b : Books} {orderId : Option ℕ} {position : Option (List OpenLine)}
    (h : positionOf b orderId = .ok position) {rows : List OpenLine} (hrows : position = some rows) :
    ∃ a o, orderId = some a ∧ b.orders[a]? = some o ∧
      rows = orderOpenPosition b o.lines false := by
  unfold positionOf at h
  split at h
  · cases h
    cases hrows
  · rename_i a
    split at h
    · cases h
    · rename_i o ho
      cases h
      exact ⟨a, o, rfl, ho, (Option.some.inj hrows).symm⟩

/-- An accepted line names a line of the order the challan names. -/
theorem accepted_named {b : Books} {orderId : Option ℕ} {position : Option (List OpenLine)}
    {lines : List LineIn} (hposition : positionOf b orderId = .ok position)
    (h : refuseOverTaking position lines = []) {line : LineIn} (hline : line ∈ lines)
    {orderLineId : ℕ} (hname : line.orderLineId = some orderLineId) :
    0 < line.quantity ∧ ∃ a o, orderId = some a ∧ b.orders[a]? = some o ∧
      orderLineId ∈ lineIds o.lines := by
  obtain ⟨rows, hrows, hpos, row, hmem, hid, -⟩ := accepted_lines h hline hname
  obtain ⟨a, o, horder, ho, rfl⟩ := position_of_ok hposition hrows
  obtain ⟨l, hl, rfl⟩ := List.mem_map.mp hmem
  exact ⟨hpos, a, o, horder, ho, mem_line_ids.mpr ⟨l, hl, hid⟩⟩

theorem create_order_book (b : Books) (payload : SalesOrderIn) :
    (createOrder b payload).book =
      b.book.openOrder .draft (payload.quantities.map column) := by
  simp [createOrder, Books.book, Book.openOrder]

/-- A challan is made as a draft, which takes nothing yet. -/
theorem create_challan_book {b b' : Books} {payload : DeliveryChallanIn}
    (h : createChallan b payload = .ok b') :
    ∃ s : Slip, b'.book = b.book.raise s ∧ s.live = false ∧ Named b.book s ∧
      ∀ t ∈ s.takes, t.1 ≠ none → 0 ≤ t.2 := by
  unfold createChallan at h
  simp only [bind, Except.bind, pure, Except.pure, throw, throwThe, MonadExceptOf.throw] at h
  split at h
  · cases h
  · rename_i position hposition
    split at h
    · cases h
    · rename_i hproblems
      have hproblems := not_not.mp hproblems
      cases h
      refine ⟨_, by simp [Books.book, Book.raise]; rfl, rfl, ?_, ?_⟩
      · intro t ht orderLineId hname
        obtain ⟨l, hl, rfl⟩ := List.mem_map.mp ht
        obtain ⟨line, hline, rfl⟩ := List.mem_map.mp hl
        exact (accepted_named hposition hproblems hline hname).2
      · intro t ht hname
        obtain ⟨l, hl, rfl⟩ := List.mem_map.mp ht
        obtain ⟨line, hline, rfl⟩ := List.mem_map.mp hl
        obtain ⟨orderLineId, hsome⟩ := Option.ne_none_iff_exists'.mp hname
        exact column_nonneg (accepted_named hposition hproblems hline hsome).1.le

theorem resettle_book (b : Books) (orderId : Option ℕ) :
    (resettleOrderStatus b orderId).book = b.book.resettle orderStatusFor orderId := by
  cases orderId with
  | none => rfl
  | some a => simp only [resettleOrderStatus, Books.book, Book.resettle, position_book]

theorem turned_book {b : Books} {challanId : ℕ} {f : DeliveryChallan → DeliveryChallan} {live : Bool}
    (hf : ∀ c, b.challans[challanId]? = some c → (f c).slip = { c.slip with live := live }) :
    Books.book { b with challans := b.challans.modify challanId f } =
      b.book.turn challanId live := by
  simp only [Books.book, Book.turn, Book.mk.injEq, true_and, and_true]
  exact map_modify hf

theorem issue_challan_book {b b' : Books} {challanId : ℕ} (h : issueChallan b challanId = .ok b') :
    ∃ c position, b.challans[challanId]? = some c ∧ positionOf b c.orderId = .ok position ∧
      refuseOverTaking position (c.lines.map (·.asked)) = [] ∧
      b'.book = (b.book.turn challanId true).resettle orderStatusFor c.orderId := by
  unfold issueChallan at h
  simp only [bind, Except.bind, pure, Except.pure, throw, throwThe, MonadExceptOf.throw] at h
  split at h
  · rename_i c hc
    split at h
    · cases h
    · split at h
      · cases h
      · split at h
        · cases h
        · rename_i position hposition
          split at h
          · cases h
          · rename_i hproblems
            cases h
            refine ⟨c, position, hc, hposition, not_not.mp hproblems, ?_⟩
            rw [resettle_book]
            congr 1
            apply turned_book
            intro c' _
            rfl
  · cases h

/-- No amendment makes goods leave that had not. -/
theorem written_status_stands {c : DeliveryChallan} {patch : DeliveryChallanUpdateIn}
    (h : statusOrDayProblem c patch = none) {status : ChallanStatus}
    (hstatus : patch.writtenStatus = some status) (hleft : status.goodsHaveLeft = true) :
    c.status.goodsHaveLeft = true := by
  obtain ⟨given, day⟩ := patch
  obtain ⟨orderId, current, back, lines⟩ := c
  unfold statusOrDayProblem at h
  simp only [DeliveryChallanUpdateIn.writtenStatus] at hstatus
  cases current with
  | issued => rfl
  | receivedBack => rfl
  | draft | cancelled =>
    cases given with
    | none =>
      cases day with
      | none => simp at hstatus
      | some day => simp at h
    | some given =>
      obtain rfl : given = status := by simpa using hstatus
      cases given <;> simp_all [amendmentMayMake, ChallanStatus.goodsHaveLeft]
      split_ifs at h

theorem update_challan_book {b b' : Books} {challanId : ℕ} {patch : DeliveryChallanUpdateIn}
    (h : updateChallan b challanId patch = .ok b') :
    ∃ c, b.challans[challanId]? = some c ∧
      match patch.writtenStatus with
      | none => b'.book = b.book
      | some status =>
        (status.goodsHaveLeft = true → c.status.goodsHaveLeft = true) ∧
          b'.book =
            (b.book.turn challanId status.goodsHaveLeft).resettle orderStatusFor c.orderId := by
  unfold updateChallan at h
  simp only [bind, Except.bind, pure, Except.pure, throw, throwThe, MonadExceptOf.throw] at h
  split at h
  · rename_i c hc
    refine ⟨c, hc, ?_⟩
    split at h
    · cases h
    · rename_i hstands
      cases hwritten : patch.writtenStatus with
      | none =>
        simp only [hwritten, Option.isSome_none, Bool.false_eq_true, ↓reduceIte] at h
        cases h
        simp only [Books.book, Book.mk.injEq, true_and, and_true]
        refine (map_modify (g := id) ?_).trans (List.modify_id _ _)
        intro c' _
        rfl
      | some status =>
        simp only [hwritten, Option.isSome_some, ↓reduceIte] at h
        cases h
        have hnone := Option.eq_none_iff_forall_ne_some.mpr fun r hr => hstands r hr
        refine ⟨written_status_stands hnone hwritten, ?_⟩
        rw [resettle_book]
        congr 1
        apply turned_book
        intro c' _
        rfl
  · cases h

theorem replace_lines_book (b : Books) (orderId : ℕ) (order : Order OrderStatus)
    (quantities : List ℚ) : (replaceLines b orderId order quantities).book =
      b.book.reline orderId order.lines (quantities.map column) := by
  simp only [replaceLines, Books.book, Book.reline, List.map_map, List.length_map,
    Book.mk.injEq, true_and, and_true]
  apply List.map_congr_left
  intro c _
  simp [DeliveryChallan.slip, Slip.detach, ChallanLine.takes, Function.comp_def]

theorem update_order_book {b b' : Books} {orderId : ℕ} {patch : SalesOrderUpdateIn}
    (h : updateOrder b orderId patch = .ok b') :
    ∃ o amended, b.orders[orderId]? = some o ∧
      (patch.lines = none ∧ amended = b.book ∨
        ∃ quantities, patch.lines = some quantities ∧ quantities ≠ [] ∧
          (∀ row ∈ orderOpenPosition b o.lines true, row.takenQty = 0) ∧
          amended = b.book.reline orderId o.lines (quantities.map column)) ∧
      b'.book = match patch.status with
        | none => amended
        | some status => amended.setStatus orderId status := by
  unfold updateOrder at h
  simp only [bind, Except.bind, pure, Except.pure, throw, throwThe, MonadExceptOf.throw] at h
  split at h
  · rename_i o ho
    split at h
    · cases h
    · split at h
      · cases h
      · rename_i amended hamended
        refine ⟨o, amended.book, ho, ?_, ?_⟩
        · unfold amendLines at hamended
          split at hamended
          · rename_i hlines
            cases hamended
            exact .inl ⟨hlines, rfl⟩
          · rename_i quantities hlines
            split at hamended
            · cases hamended
            · rename_i hnone
              split at hamended
              · cases hamended
              · rename_i hne
                cases hamended
                refine .inr ⟨quantities, hlines, hne, ?_, replace_lines_book b orderId o quantities⟩
                simpa using hnone
        · cases hstatus : patch.status with
          | none =>
            rw [hstatus] at h
            cases h
            rfl
          | some status =>
            rw [hstatus] at h
            cases h
            rfl
  · cases h

/-- What a call asks of its quantities beyond what the code asks: an order is of positive
quantities, and the lines of a challan that name one order line fit in it together. -/
def Call.Fits (b : Books) : Call → Prop
  | .createOrder payload => ∀ quantity ∈ payload.quantities, 0 < column quantity
  | .issueChallan challanId =>
    ∀ c ∈ b.challans[challanId]?, ∀ orderId ∈ c.orderId, ∀ order ∈ b.orders[orderId]?,
      Together (orderOpenPosition b order.lines false) (c.lines.map (·.takes))
  | .updateOrder _ patch => ∀ quantities ∈ patch.lines, ∀ quantity ∈ quantities, 0 < column quantity
  | .createChallan _ | .updateChallan _ _ => True

/-- The orders whose status was last given by hand, and is not what their lines bear out. -/
def handAfter (b : Books) (hand : List ℕ) : Call → List ℕ
  | .createOrder _ | .createChallan _ => hand
  | .issueChallan challanId => hand.filter (some · ≠ b.challans[challanId]?.bind (·.orderId))
  | .updateChallan challanId patch =>
    if patch.writtenStatus.isSome then
      hand.filter (some · ≠ b.challans[challanId]?.bind (·.orderId))
    else hand
  | .updateOrder orderId patch =>
    match patch.status, b.orders[orderId]? with
    | some status, some order =>
      if orderStatusFor (orderOpenPosition b order.lines false) status = status then
        hand.filter (· ≠ orderId)
      else orderId :: hand
    | _, _ => hand

theorem create_order_sound {b : Books} (h : Sound b.book) {payload : SalesOrderIn}
    (hfits : (Call.createOrder payload).Fits b) : Sound (createOrder b payload).book := by
  rw [create_order_book]
  apply h.open_order
  · simpa using payload.hasLines
  · intro q hq
    obtain ⟨quantity, hquantity, rfl⟩ := List.mem_map.mp hq
    exact hfits quantity hquantity

theorem slip_get {b : Books} {challanId : ℕ} {c : DeliveryChallan}
    (h : b.challans[challanId]? = some c) : b.book.slips[challanId]? = some c.slip := by
  simp [Books.book, h]

theorem create_challan_keeps {b b' : Books} {hand : List ℕ} {payload : DeliveryChallanIn}
    (h : Sound b.book) (hset : Settled orderStatusFor b.book hand)
    (hok : createChallan b payload = .ok b') :
    Sound b'.book ∧ Settled orderStatusFor b'.book hand := by
  obtain ⟨s, hbook, hdraft, hnamed, hnonneg⟩ := create_challan_book hok
  rw [hbook]
  refine ⟨h.raise hnamed hnonneg ?_, hset.congr rfl ?_⟩
  · intro hlive
    exact absurd hlive (by simp [hdraft])
  · intro o _ line _
    rw [Book.taken_raise, Slip.taken, hdraft]
    simp

theorem issue_challan_keeps {b b' : Books} {hand : List ℕ} {challanId : ℕ}
    (h : Sound b.book) (hset : Settled orderStatusFor b.book hand)
    (hfits : (Call.issueChallan challanId).Fits b) (hok : issueChallan b challanId = .ok b') :
    Sound b'.book ∧
      Settled orderStatusFor b'.book (handAfter b hand (.issueChallan challanId)) := by
  obtain ⟨c, position, hc, hposition, haccepted, hbook⟩ := issue_challan_book hok
  have hslip := slip_get hc
  have hnamed := h.named c.slip (List.mem_of_getElem? hslip)
  rw [hbook]
  constructor
  · apply Sound.resettle
    apply h.turn hslip
    intro _ _
    apply h.fits hnamed
    intro a o horder ho
    have hposition' : position = some (orderOpenPosition b o.lines false) := by
      have ho : b.orders[a]? = some o := ho
      have horder : c.orderId = some a := horder
      simp only [positionOf, horder, ho, Except.ok.injEq] at hposition
      exact hposition.symm
    rw [hposition'] at haccepted
    have htogether := hfits c hc a horder o ho
    rw [position_book] at haccepted htogether
    apply accepted_fit (position_distinct h (List.mem_of_getElem? ho)) haccepted
    · exact fun line => rfl
    · exact fun line _ n _ hle => to_decimal_le.mp hle
    · exact htogether
  · simp only [handAfter, hc, Option.bind_some]
    exact hset.turn order_status_derives h hslip true

theorem update_challan_keeps {b b' : Books} {hand : List ℕ} {challanId : ℕ}
    {patch : DeliveryChallanUpdateIn} (h : Sound b.book) (hset : Settled orderStatusFor b.book hand)
    (hok : updateChallan b challanId patch = .ok b') :
    Sound b'.book ∧
      Settled orderStatusFor b'.book (handAfter b hand (.updateChallan challanId patch)) := by
  obtain ⟨c, hc, hwritten⟩ := update_challan_book hok
  have hslip := slip_get hc
  cases hstatus : patch.writtenStatus with
  | none =>
    simp only [hstatus] at hwritten
    simp only [handAfter, hstatus, hwritten]
    exact ⟨h, hset⟩
  | some status =>
    simp only [hstatus] at hwritten
    obtain ⟨hstands, hbook⟩ := hwritten
    simp only [handAfter, hstatus, hc, hbook, Option.isSome_some, ↓reduceIte, Option.bind_some]
    constructor
    · apply Sound.resettle
      apply h.turn hslip
      intro hlive hdead
      exact absurd (hstands hlive) (Bool.eq_false_iff.mp hdead)
    · exact hset.turn order_status_derives h hslip _

theorem update_order_keeps {b b' : Books} {hand : List ℕ} {orderId : ℕ} {patch : SalesOrderUpdateIn}
    (h : Sound b.book) (hset : Settled orderStatusFor b.book hand)
    (hfits : (Call.updateOrder orderId patch).Fits b) (hok : updateOrder b orderId patch = .ok b') :
    Sound b'.book ∧
      Settled orderStatusFor b'.book (handAfter b hand (.updateOrder orderId patch)) := by
  obtain ⟨o, amended, ho, hamended, hbook⟩ := update_order_book hok
  have hlines : amended = b.book ∨ ∃ quantities, quantities ≠ [] ∧ (∀ q ∈ quantities, 0 < q) ∧
      (∀ line ∈ o.lines, b.book.taken line.id = 0) ∧
        amended = b.book.reline orderId o.lines quantities := by
    obtain ⟨-, rfl⟩ | ⟨quantities, hlines, hne, hnone, rfl⟩ := hamended
    · exact .inl rfl
    · refine .inr ⟨quantities.map column, by simpa using hne, ?_, ?_, rfl⟩
      · intro q hq
        obtain ⟨quantity, hquantity, rfl⟩ := List.mem_map.mp hq
        exact hfits quantities hlines quantity hquantity
      · exact fun line hline => delivered_with_drafts h hnone hline
  obtain ⟨hsound, hsettled, hsame⟩ := amend_keeps order_status_derives h hset ho hlines
  cases hstatus : patch.status with
  | none =>
    simp only [hstatus] at hbook
    simp only [handAfter, hstatus, hbook]
    exact ⟨hsound, hsettled⟩
  | some status =>
    simp only [hstatus] at hbook
    simp only [handAfter, hstatus, ho, hbook]
    refine ⟨hsound.set_status orderId status, ?_⟩
    split
    · rename_i hderived
      rw [position_book] at hderived
      exact hsettled.set_derived (hsame status hderived)
    · exact hsettled.set_status orderId status

theorem attempt_keeps {b b' : Books} {hand : List ℕ} {call : Call} (h : Sound b.book)
    (hset : Settled orderStatusFor b.book hand) (hfits : call.Fits b)
    (hok : b.attempt call = .ok b') :
    Sound b'.book ∧ Settled orderStatusFor b'.book (handAfter b hand call) := by
  cases call with
  | createOrder payload =>
    cases hok
    refine ⟨create_order_sound h hfits, ?_⟩
    rw [create_order_book]
    exact hset.open_order (fun _ => rfl) _
  | createChallan payload => exact create_challan_keeps h hset hok
  | issueChallan challanId => exact issue_challan_keeps h hset hfits hok
  | updateChallan challanId patch => exact update_challan_keeps h hset hok
  | updateOrder orderId patch => exact update_order_keeps h hset hfits hok

/-- A refused call writes nothing. -/
def advance (b : Books) (hand : List ℕ) (call : Call) : Books × List ℕ :=
  match b.attempt call with
  | .ok b' => (b', handAfter b hand call)
  | .error _ => (b, hand)

def start : Books × List ℕ := (⟨[], [], 0⟩, [])

/-- What holds of the books of the sales cycle, the status of the orders in `hand` apart. -/
structure Kept (b : Books) (hand : List ℕ) : Prop where
  within : ∀ order ∈ b.orders, ∀ row ∈ orderOpenPosition b order.lines false,
    row.takenQty ≤ row.orderedQty
  named : ∀ c ∈ b.challans, ∀ line ∈ c.lines, ∀ orderLineId, line.orderLineId = some orderLineId →
    ∃ order ∈ b.orders, orderLineId ∈ lineIds order.lines
  settled : ∀ orderId order, b.orders[orderId]? = some order → orderId ∉ hand →
    order.status = orderStatusFor (orderOpenPosition b order.lines false) order.status

theorem kept_of_sound {b : Books} {hand : List ℕ} (h : Sound b.book)
    (hset : Settled orderStatusFor b.book hand) : Kept b hand := by
  refine ⟨?_, ?_, ?_⟩
  · intro order ho row hrow
    rw [position_book] at hrow
    obtain ⟨line, hline, rfl⟩ := List.mem_map.mp hrow
    exact h.within order ho line hline
  · intro c hc line hline orderLineId hname
    obtain ⟨a, order, _, ho, hmem⟩ :=
      h.named c.slip (List.mem_map_of_mem hc) line.takes (List.mem_map_of_mem hline) orderLineId hname
    exact ⟨order, List.mem_of_getElem? ho, hmem⟩
  · intro orderId order ho hhand
    rw [position_book]
    exact (hset orderId order ho hhand).symm

theorem run_keeps {calls : List Call}
    (h : SoloAlong advance (fun b _ call => call.Fits b) start calls) :
    Kept (solo advance start calls).1 (solo advance start calls).2 := by
  have hinv := @solo_keeps _ _ _ _ (fun b hand => Sound b.book ∧ Settled orderStatusFor b.book hand)
    (fun b _ call => call.Fits b) ?_ start calls ?_ h
  · exact kept_of_sound hinv.1 hinv.2
  · intro b hand call hinv hfits
    unfold advance
    split
    · rename_i b' hok
      exact attempt_keeps hinv.1 hinv.2 hfits hok
    · exact hinv
  · exact ⟨Sound.empty, fun a o ho => by simp [start, Books.book] at ho⟩

end Caflow.OrderCycle.Sales
