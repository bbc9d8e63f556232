import Caflow.Settlement.PaymentsConserved

set_option linter.all false

namespace Caflow.Settlement.Payables
open Interleaving Interrupted Tally Text

section
variable {before tables : Tables} {call : UpdateCall} {amountPaise : ℤ} {side : Side}

/-- The changes that one loop of a re-allocation goes through. -/
def UpdateCall.changes (before : Tables) (call : UpdateCall) : Side → List (String × ℤ)
  | .undo => takenOff (before.paymentRows call.paymentId)
  | .redo => call.named

/-- What the bills were changed by before the loop. -/
def UpdateCall.changedBefore (before : Tables) (call : UpdateCall) : Side → String → ℤ
  | .undo => 0
  | .redo => tally (takenOff (before.paymentRows call.paymentId))

/-- The allocations while the loop runs: those of the payment are deleted in between. -/
def UpdateCall.allocationsIn (before : Tables) (call : UpdateCall) : Side → PaymentAllocations
  | .undo => before.allocations
  | .redo => (before.deleteAllocations call.paymentId).allocations

/-- How far the loops of a re-allocation have come: the payment has the amount, every bill has room
for what is asked, and the first changes are made. -/
structure Adjusting (before : Tables) (call : UpdateCall) (amountPaise : ℤ) (side : Side)
    (made : List (String × ℤ)) (tables : Tables) : Prop where
  amount : ∃ row, before.payments call.paymentId = some row ∧ row.amountPaise = amountPaise
  room : ∀ b, ∀ x ∈ call.named, x.1 = b → ∀ bill, before.bills b = some bill →
    bill.paidPaise - priorOn (before.paymentRows call.paymentId) b + tally call.named b +
      bill.debitedPaise ≤ bill.effectivePayable
  bills : BillsGrown before tables (fun b => call.changedBefore before side b + tally made b) 0
  rupees : tables.RupeesWithin
  foreign : tables.ForeignWithin
  payments : tables.payments = before.payments
  allocations : tables.allocations = call.allocationsIn before side
  fx : tables.fxAdjustments = before.fxAdjustments

/-- What a re-allocation has done when it returns, but for the payment's advance. -/
structure Reallocated (before : Tables) (call : UpdateCall) (amountPaise : ℤ)
    (tables : Tables) : Prop where
  amount : ∃ row, before.payments call.paymentId = some row ∧ row.amountPaise = amountPaise
  bills : BillsGrown before tables (fun b => tally (takenOff (before.paymentRows call.paymentId)) b +
    tally call.named b) 0
  rupees : tables.RupeesWithin
  foreign : tables.ForeignWithin
  allocations : tables.allocations.rows =
    before.allocations.rows.filter (·.paymentId ≠ call.paymentId) ++ call.rows
  fx : tables.fxAdjustments = before.fxAdjustments

/-- A request that the checks have let through, but for some bills that are still to come. -/
def Checked (before : Tables) (call : UpdateCall) (amountPaise : ℤ) (rest : List (String × ℤ)) :
    Prop :=
  (∃ row, before.payments call.paymentId = some row ∧ row.amountPaise = amountPaise) ∧
    ∀ x ∈ grouped call.named, x ∈ rest ∨ ∀ bill, before.bills x.1 = some bill →
      x.2 ≤ bill.effectivePayable - bill.debitedPaise - bill.paidPaise +
        priorOn (before.paymentRows call.paymentId) x.1

/-- How far a re-allocation has come. -/
def UpdateGoing (before : Tables) (call : UpdateCall) (tables : Tables) : UpdatePhase → Prop
  | .readPayment => tables = before
  | .readPrior amountPaise =>
    tables = before ∧
      ∃ row, before.payments call.paymentId = some row ∧ row.amountPaise = amountPaise
  | .check amountPaise prior rest =>
    tables = before ∧ prior = before.paymentRows call.paymentId ∧
      Checked before call amountPaise rest
  | .adjustRead amountPaise side billId delta rest _ =>
    ∃ made, call.changes before side = made ++ (billId, delta) :: rest ∧
      Adjusting before call amountPaise side made tables
  | .adjustWrite amountPaise side billId delta rest _ read =>
    tables.bills billId = some read ∧
      ∃ made, call.changes before side = made ++ (billId, delta) :: rest ∧
        Adjusting before call amountPaise side made tables
  | .deletePrior amountPaise =>
    Adjusting before call amountPaise .undo (call.changes before .undo) tables
  | .insertAllocations amountPaise =>
    Adjusting before call amountPaise .redo call.named tables
  | .writePayment amountPaise =>
    tables.payments = before.payments ∧ Reallocated before call amountPaise tables
  | .finished =>
    ∃ amountPaise, tables.payments = (before.writeUnallocated call.paymentId
      (amountPaise - call.totalRequested)).payments ∧ Reallocated before call amountPaise tables
  | .raised _ => True

theorem adjust_next_going (rest : List (String × ℤ)) {made : List (String × ℤ)}
    (hchanges : call.changes before side = made ++ rest)
    (h : Adjusting before call amountPaise side made tables) :
    UpdateGoing before call tables (call.adjustNext amountPaise side rest) := by
  induction rest generalizing made with
  | nil =>
    simp only [List.append_nil] at hchanges
    cases side with
    | undo =>
      obtain rfl := hchanges
      exact h
    | redo =>
      obtain rfl := hchanges
      unfold UpdateCall.adjustNext
      dsimp only
      split
      · rename_i hnone
        refine ⟨h.payments, h.amount, h.bills, h.rupees, h.foreign, ?_, h.fx⟩
        have hrows : call.rows = [] := by simp [UpdateCall.rows, hnone]
        rw [h.allocations, hrows, List.append_nil]
        rfl
      · exact h
  | cons change rest ih =>
    obtain ⟨billId, delta⟩ := change
    unfold UpdateCall.adjustNext
    split
    · -- nothing is made of it
      rename_i hzero
      refine ih (by rw [hchanges, List.append_cons]) ?_
      obtain ⟨hamount, hroom, hbills, hrupees, hforeign, hpayments, hallocations, hfx⟩ := h
      refine ⟨hamount, hroom, ?_, hrupees, hforeign, hpayments, hallocations, hfx⟩
      simpa [tally_snoc, hzero] using hbills
    · exact ⟨made, hchanges, h⟩

theorem prior_on_eq (prior : List PaymentAllocation) (b : String) :
    tally (takenOff prior) b = -priorOn prior b := by
  unfold takenOff priorOn
  induction prior with
  | nil => rfl
  | cons a prior ih =>
    rw [List.map_cons, tally_cons, ih, List.filter_cons]
    by_cases h : a.billId = b
    · simp [h, add_comm]
    · simp [h]

theorem named_positive {allocations : List AllocationIn} {x : String × ℤ}
    (hx : x ∈ allocations.filterMap AllocationIn.named) : 0 < x.2 := by
  obtain ⟨a, -, ha⟩ := List.mem_filterMap.mp hx
  unfold AllocationIn.named at ha
  split at ha
  · split at ha
    · rename_i hpositive
      rw [← Option.some.inj ha]
      exact hpositive
    · cases ha
  · cases ha

theorem taken_off_nonpos (hnonneg : ∀ a ∈ before.allocations.rows, 0 ≤ a.allocatedPaise)
    {x : String × ℤ} (hx : x ∈ takenOff (before.paymentRows call.paymentId)) : x.2 ≤ 0 := by
  obtain ⟨a, ha, rfl⟩ := List.mem_map.mp hx
  have := hnonneg a (List.mem_of_mem_filter ha)
  simpa using this

/-- What the bill of a payment's rows is allocated, it is allocated by those rows and by others. -/
theorem allocated_split (paymentId b : String) :
    before.allocatedTo b = priorOn (before.paymentRows paymentId) b +
      tally ((before.allocations.rows.filter (·.paymentId ≠ paymentId)).map fun a =>
        (a.billId, a.allocatedPaise)) b := by
  unfold Tables.allocatedTo Tables.paymentRows priorOn
  induction before.allocations.rows with
  | nil => rfl
  | cons a rows ih =>
    rw [List.map_cons, tally_cons, ih]
    by_cases hpayment : a.paymentId = paymentId
    · by_cases hbill : a.billId = b
      · simp [hpayment, hbill]
        ring
      · simp [hpayment, hbill]
    · by_cases hbill : a.billId = b
      · simp [hpayment, hbill, tally_cons]
        ring
      · simp [hpayment, hbill, tally_cons]

/-- A bill is paid at least what the payment's rows have on it. -/
theorem prior_le_paid (hbefore : before.Conserved) {bill : Bill}
    (hbill : before.bills b = some bill) (paymentId : String) :
    priorOn (before.paymentRows paymentId) b ≤ bill.paidPaise := by
  have hothers : 0 ≤ tally ((before.allocations.rows.filter (·.paymentId ≠ paymentId)).map fun a =>
      (a.billId, a.allocatedPaise)) b := by
    apply tally_nonneg
    intro x hx
    obtain ⟨a, ha, rfl⟩ := List.mem_map.mp hx
    exact hbefore.nonneg a (List.mem_of_mem_filter ha)
  rw [(hbefore.bills b bill hbill).1, allocated_split paymentId]
  omega

/-- Where a change is about to be made to a bill, it leaves the paid amount at nil or more, and at
no more than was paid before or than there is room for. -/
theorem adjusting_bounds (hbefore : before.Conserved) {made rest : List (String × ℤ)}
    (hchanges : call.changes before side = made ++ (billId, delta) :: rest)
    (h : Adjusting before call amountPaise side made tables) {read : Bill}
    (hread : tables.bills billId = some read) :
    ∃ bill, before.bills billId = some bill ∧ read.billed = bill.billed ∧
      read.paidTxn = bill.paidTxn ∧ 0 ≤ read.paidPaise + delta ∧
      (bill.Within → read.paidPaise + delta + read.debitedPaise ≤ read.effectivePayable) := by
  have hb := h.bills billId
  rw [hread] at hb
  cases hfound : before.bills billId with
  | none =>
    rw [hfound] at hb
    cases hb
  | some bill =>
    rw [hfound] at hb
    cases hb with
    | some hgrown =>
      have hbilled := hgrown.billed
      have hprior := prior_le_paid hbefore hfound call.paymentId
      have hpaid := hgrown.paid
      have htxn : read.paidTxn = bill.paidTxn := by simpa using hgrown.paidTxn
      have hpayable : read.effectivePayable = bill.effectivePayable ∧
          read.debitedPaise = bill.debitedPaise := by
        simp only [Bill.billed, Prod.mk.injEq] at hbilled
        simp [Bill.effectivePayable, hbilled]
      -- what the loop goes through, split at this change
      have htally : tally (call.changes before side) billId =
          tally made billId + (delta + tally rest billId) := by
        rw [hchanges, tally_append, tally_cons, if_pos rfl]
      have hmember : ∀ x ∈ made ++ [(billId, delta)], x ∈ call.changes before side := by
        intro x hx
        rw [hchanges, List.append_cons]
        exact List.mem_append_left _ hx
      have hrest : ∀ x ∈ rest, x ∈ call.changes before side := by
        intro x hx
        rw [hchanges, List.append_cons]
        exact List.mem_append_right _ hx
      have hsofar : tally (made ++ [(billId, delta)]) billId = tally made billId + delta := by
        simp [tally_snoc]
      refine ⟨bill, rfl, hbilled, htxn, ?_⟩
      cases side with
      | undo =>
        have hdown : tally made billId + delta ≤ 0 := by
          rw [← hsofar]
          exact tally_nonpos (fun x hx => taken_off_nonpos hbefore.nonneg (hmember x hx)) billId
        have hleft : tally rest billId ≤ 0 :=
          tally_nonpos (fun x hx => taken_off_nonpos hbefore.nonneg (hrest x hx)) billId
        simp only [UpdateCall.changes, prior_on_eq] at htally
        simp only [UpdateCall.changedBefore, Pi.zero_apply, zero_add] at hpaid
        refine ⟨by omega, fun hwithin => ?_⟩
        unfold Bill.Within at hwithin
        omega
      | redo =>
        have hup : 0 ≤ tally made billId + delta := by
          rw [← hsofar]
          exact tally_nonneg (fun x hx => (named_positive (hmember x hx)).le) billId
        have hleft : 0 ≤ tally rest billId :=
          tally_nonneg (fun x hx => (named_positive (hrest x hx)).le) billId
        have hroom := h.room billId (billId, delta) (hmember _ (by simp)) rfl bill hfound
        simp only [UpdateCall.changes] at htally
        simp only [UpdateCall.changedBefore, prior_on_eq] at hpaid
        exact ⟨by omega, fun _ => by omega⟩

theorem adjusted_grown (read : Bill) (hpaid : 0 ≤ read.paidPaise + delta) :
    Grown delta 0 read (read.adjusted read delta) :=
  ⟨by simp [Bill.adjusted, max_eq_left hpaid], by simp [Bill.adjusted], rfl⟩

/-- A change is made to a bill. -/
theorem adjusting_write (hbefore : before.Conserved) {made rest : List (String × ℤ)}
    (hchanges : call.changes before side = made ++ (billId, delta) :: rest)
    (h : Adjusting before call amountPaise side made tables) {read : Bill}
    (hread : tables.bills billId = some read) :
    Adjusting before call amountPaise side (made ++ [(billId, delta)])
      (tables.writeBill billId (read.adjusted read delta)) := by
  obtain ⟨bill, hbill, hbilled, htxn, hpaid, hroom⟩ := adjusting_bounds hbefore hchanges h hread
  have hgrown := grown_write h.bills hread (adjusted_grown read hpaid)
  have hcurrency : read.txnCurrency = bill.txnCurrency ∧ read.txnNetPayable = bill.txnNetPayable := by
    simp only [Bill.billed, Prod.mk.injEq] at hbilled
    exact ⟨hbilled.2.2.2.1, hbilled.2.2.2.2.2⟩
  refine ⟨h.amount, h.room, ?_, rupees_write h.rupees fun hrupees => ?_,
    foreign_write h.foreign fun hforeign => ?_, h.payments, h.allocations, h.fx⟩
  · simpa [tally_snoc, Pi.zero_def, add_assoc] using hgrown
  · have hwithin := hbefore.rupees billId bill hbill (by rw [← hcurrency.1]; exact hrupees)
    simpa [Bill.Within, Bill.adjusted, Bill.effectivePayable, max_eq_left hpaid] using hroom hwithin
  · have hbefore' := hbefore.foreign billId bill hbill (by rw [← hcurrency.1]; exact hforeign)
    simpa [Bill.adjusted, htxn, hcurrency.2] using hbefore'

theorem adjusting_absent {made : List (String × ℤ)}
    (h : Adjusting before call amountPaise side made tables) (hnone : tables.bills billId = none)
    (delta : ℤ) : Adjusting before call amountPaise side (made ++ [(billId, delta)]) tables := by
  have hgrown := grown_absent h.bills hnone delta 0
  refine ⟨h.amount, h.room, ?_, h.rupees, h.foreign, h.payments, h.allocations, h.fx⟩
  simpa [tally_snoc, Pi.zero_def, add_assoc] using hgrown

/-- Once every bill is checked, the loop over the earlier rows begins. -/
theorem checked_going (hbefore : before.Conserved) (rest : List (String × ℤ))
    (h : Checked before call amountPaise rest) :
    UpdateGoing before call before
      (call.checked amountPaise (before.paymentRows call.paymentId) rest) := by
  cases rest with
  | cons first rest => exact ⟨rfl, rfl, h⟩
  | nil =>
    obtain ⟨hamount, hroom⟩ := h
    refine adjust_next_going _ (show call.changes before .undo =
      [] ++ takenOff (before.paymentRows call.paymentId) from rfl) ?_
    refine ⟨hamount, ?_, ?_, hbefore.rupees, hbefore.foreign, rfl, rfl, rfl⟩
    · rintro b x hx rfl bill hbill
      have hgroup : (x.1, tally call.named x.1) ∈ grouped call.named := by
        rw [grouped_eq]
        exact List.mem_map.mpr ⟨x.1, mem_first_keys.mpr ⟨x, hx, rfl⟩, rfl⟩
      rcases hroom _ hgroup with hnil | hroom
      · cases hnil
      · have := hroom bill hbill
        dsimp only at this
        omega
    · simpa [UpdateCall.changedBefore, Pi.zero_def] using grown_refl before

theorem allocatable_ok {found : Option Bill} (h : allocatable prior billId amount found = .ok bill) :
    found = some bill ∧
      amount ≤ bill.effectivePayable - bill.debitedPaise - bill.paidPaise + priorOn prior billId := by
  unfold allocatable at h
  split at h
  · cases h
  · rename_i read hpayable
    dsimp only at h
    split at h
    · cases h
    · rename_i hroom
      obtain rfl := Except.ok.inj h
      exact ⟨payable_ok hpayable, not_lt.mp hroom⟩

/-- What one statement of a re-allocation does. -/
theorem update_going (hbefore : before.Conserved) (tables : Tables) (phase : UpdatePhase)
    (reply : Outcome Failure) (h : UpdateGoing before call tables phase) :
    UpdateGoing before call (updateStep call tables phase reply).1
      (updateStep call tables phase reply).2 := by
  cases phase with
  | readPayment =>
    obtain rfl := h
    cases reply with
    | refused failure | lost failure => trivial
    | done =>
      simp only [updateStep, reading]
      split
      · trivial
      · rename_i row hrow
        split
        · trivial
        · exact ⟨rfl, row, hrow, rfl⟩
  | readPrior amountPaise =>
    obtain ⟨rfl, hamount⟩ := h
    cases reply with
    | refused failure | lost failure => trivial
    | done => exact checked_going hbefore _ ⟨hamount, fun x hx => .inl hx⟩
  | check amountPaise prior rest =>
    obtain ⟨rfl, rfl, hamount, hroom⟩ := h
    cases rest with
    | nil => exact checked_going hbefore [] ⟨hamount, hroom⟩
    | cons first rest =>
      obtain ⟨billId, amount⟩ := first
      cases reply with
      | refused failure | lost failure => trivial
      | done =>
        simp only [updateStep, reading]
        split
        · trivial
        · rename_i read hread
          obtain ⟨hfound, hfits⟩ := allocatable_ok hread
          refine checked_going hbefore rest ⟨hamount, fun x hx => ?_⟩
          rcases hroom x hx with hrest | hdone
          · rcases List.mem_cons.mp hrest with rfl | hrest
            · refine .inr fun bill hbill => ?_
              obtain rfl : read = bill := by simpa [hfound] using hbill
              exact hfits
            · exact .inl hrest
          · exact .inr hdone
  | adjustRead amountPaise side billId delta rest left =>
    obtain ⟨made, hchanges, hadjusting⟩ := h
    cases reply with
    | refused failure | lost failure => trivial
    | done =>
      simp only [updateStep, reading]
      split
      · rename_i hnone
        exact adjust_next_going rest (by rw [hchanges, List.append_cons])
          (adjusting_absent hadjusting hnone delta)
      · rename_i read hread
        exact ⟨hread, made, hchanges, hadjusting⟩
  | adjustWrite amountPaise side billId delta rest left read =>
    obtain ⟨hread, made, hchanges, hadjusting⟩ := h
    cases reply with
    | refused failure | lost failure => trivial
    | done =>
      simp only [updateStep, update_header_read hread]
      exact adjust_next_going rest (by rw [hchanges, List.append_cons])
        (adjusting_write hbefore hchanges hadjusting hread)
  | deletePrior amountPaise =>
    cases reply with
    | refused failure | lost failure => trivial
    | done =>
      refine adjust_next_going call.named
        (show call.changes before .redo = [] ++ call.named from rfl) ?_
      obtain ⟨hamount, hroom, hbills, hrupees, hforeign, hpayments, hallocations, hfx⟩ := h
      refine ⟨hamount, hroom, ?_, hrupees, hforeign, hpayments, ?_, hfx⟩
      · change BillsGrown before tables _ 0
        simpa [UpdateCall.changedBefore, UpdateCall.changes] using hbills
      · simp [updateStep, UpdateCall.allocationsIn, Tables.deleteAllocations, PaymentAllocations.without, hallocations]
  | insertAllocations amountPaise =>
    cases reply with
    | refused failure | lost failure => trivial
    | done =>
      rcases Option.eq_none_or_eq_some (tables.insertAllocations call.rows) with hnone | ⟨t, hsome⟩
      · simp only [updateStep, hnone]
        trivial
      · obtain ⟨hunique, rfl⟩ := insert_allocations_some hsome
        simp only [updateStep, hsome]
        obtain ⟨hamount, -, hbills, hrupees, hforeign, hpayments, hallocations, hfx⟩ := h
        refine ⟨hpayments, hamount, hbills, hrupees, hforeign, ?_, hfx⟩
        simp [hallocations, UpdateCall.allocationsIn, Tables.deleteAllocations,
          PaymentAllocations.without]
  | writePayment amountPaise =>
    obtain ⟨hpayments, hamount, hbills, hrupees, hforeign, hallocations, hfx⟩ := h
    cases reply with
    | refused failure | lost failure => trivial
    | done =>
      refine ⟨amountPaise, ?_, hamount, hbills, hrupees, hforeign, hallocations, hfx⟩
      simp only [updateStep, Tables.writeUnallocated, hpayments]
  | finished => exact h
  | raised failure => trivial

end

end Caflow.Settlement.Payables
