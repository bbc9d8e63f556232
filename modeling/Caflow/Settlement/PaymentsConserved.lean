import Caflow.Settlement.PaymentCalls
import Caflow.Settlement.OverSettlement

set_option linter.all false

namespace Caflow.Settlement.Payables
open Interleaving Interrupted Tally Text

namespace Tables

variable (tables : Tables)

/-- What the allocations have on a bill. -/
def allocatedTo (billId : String) : ℤ :=
  tally (tables.allocations.rows.map fun a => (a.billId, a.allocatedPaise)) billId

def allocatedTxnTo (billId : String) : ℤ :=
  tally (tables.allocations.rows.map fun a => (a.billId, a.allocatedTxn.getD 0)) billId

/-- What the allocations have of a payment. -/
def allocatedOf (paymentId : String) : ℤ :=
  tally (tables.allocations.rows.map fun a => (a.paymentId, a.allocatedPaise)) paymentId

def fxOf (paymentId : String) : ℤ :=
  tally (tables.fxAdjustments.map fun f => (f.paymentId, f.baseDeltaPaise)) paymentId

def RupeesWithin : Prop :=
  ∀ b bill, tables.bills b = some bill → upper bill.txnCurrency = "INR" → bill.Within

def ForeignWithin : Prop :=
  ∀ b bill, tables.bills b = some bill → upper bill.txnCurrency ≠ "INR" →
    bill.paidTxn ≤ bill.txnNetPayable

/-- The books of the payments: each payment is allocated or an advance, but for what its rate gained
or lost, each bill is paid what is allocated to it, no bill is paid more than is due, and nothing
allocated is negative. -/
structure Conserved : Prop where
  payments : ∀ id row, tables.payments id = some row →
    tables.allocatedOf id + row.unallocatedPaise = row.amountPaise + tables.fxOf id
  bills : ∀ b bill, tables.bills b = some bill →
    bill.paidPaise = tables.allocatedTo b ∧ bill.paidTxn = tables.allocatedTxnTo b
  rupees : tables.RupeesWithin
  foreign : tables.ForeignWithin
  nonneg : ∀ a ∈ tables.allocations.rows, 0 ≤ a.allocatedPaise
  owned : ∀ a ∈ tables.allocations.rows, tables.payments a.paymentId ≠ none
  fxOwned : ∀ f ∈ tables.fxAdjustments, tables.payments f.paymentId ≠ none

end Tables

/-- The columns of a bill that no payment writes. -/
def Bill.billed (bill : Bill) : ℤ × ℤ × ℤ × String × ℚ × ℤ :=
  (bill.netPayablePaise, bill.debitedPaise, bill.creditNotePaise, bill.txnCurrency,
    bill.exchangeRate, bill.txnNetPayable)

/-- A bill that is paid so much more. -/
structure Grown (paise txn : ℤ) (bill bill' : Bill) : Prop where
  paid : bill'.paidPaise = bill.paidPaise + paise
  paidTxn : bill'.paidTxn = bill.paidTxn + txn
  billed : bill'.billed = bill.billed

/-- Every bill is paid so much more. -/
def BillsGrown (before after : Tables) (paise txn : String → ℤ) : Prop :=
  ∀ b, Option.Rel (Grown (paise b) (txn b)) (before.bills b) (after.bills b)

def Tables.writeBill (tables : Tables) (billId : String) (bill : Bill) : Tables :=
  { tables with bills := Function.update tables.bills billId (some bill) }

section
variable {before tables : Tables} {paise txn : String → ℤ}

theorem grown_refl (tables : Tables) : BillsGrown tables tables 0 0 := by
  intro b
  cases tables.bills b with
  | none => exact .none
  | some bill => exact .some ⟨by simp, by simp, rfl⟩

theorem grown_write (h : BillsGrown before tables paise txn) {bill bill' : Bill}
    (hbill : tables.bills billId = some bill) (hgrown : Grown d e bill bill') :
    BillsGrown before (tables.writeBill billId bill')
      (fun b => paise b + if billId = b then d else 0) fun b => txn b + if billId = b then e else 0 := by
  intro b
  have hb := h b
  by_cases hsame : billId = b
  · subst hsame
    rw [hbill] at hb
    cases hbefore : before.bills billId with
    | none =>
      rw [hbefore] at hb
      cases hb
    | some first =>
      rw [hbefore] at hb
      cases hb with
      | some hold =>
        simp only [Tables.writeBill, Function.update_self, if_true]
        refine .some ⟨?_, ?_, hgrown.billed.trans hold.billed⟩
        · rw [hgrown.paid, hold.paid, add_assoc]
        · rw [hgrown.paidTxn, hold.paidTxn, add_assoc]
  · simpa [Tables.writeBill, Function.update_of_ne (Ne.symm hsame), hsame] using hb

/-- What is put on a bill that is not there moves no bill. -/
theorem grown_absent (h : BillsGrown before tables paise txn) (hnone : tables.bills billId = none)
    (d e : ℤ) : BillsGrown before tables (fun b => paise b + if billId = b then d else 0)
      fun b => txn b + if billId = b then e else 0 := by
  intro b
  have hb := h b
  by_cases hsame : billId = b
  · subst hsame
    rw [hnone] at hb ⊢
    cases hbefore : before.bills billId with
    | none => exact .none
    | some first =>
      rw [hbefore] at hb
      cases hb
  · simpa [hsame] using hb

theorem rupees_write (h : tables.RupeesWithin) {bill : Bill}
    (hbill : upper bill.txnCurrency = "INR" → bill.Within) :
    (tables.writeBill billId bill).RupeesWithin := by
  intro b found hfound hrupees
  by_cases hb : b = billId
  · subst hb
    obtain rfl : bill = found := by simpa [Tables.writeBill] using hfound
    exact hbill hrupees
  · exact h b found (by simpa [Tables.writeBill, hb] using hfound) hrupees

theorem foreign_write (h : tables.ForeignWithin) {bill : Bill}
    (hbill : upper bill.txnCurrency ≠ "INR" → bill.paidTxn ≤ bill.txnNetPayable) :
    (tables.writeBill billId bill).ForeignWithin := by
  intro b found hfound hforeign
  by_cases hb : b = billId
  · subst hb
    obtain rfl : bill = found := by simpa [Tables.writeBill] using hfound
    exact hbill hforeign
  · exact h b found (by simpa [Tables.writeBill, hb] using hfound) hforeign

theorem tally_snoc (pairs : List (String × ℤ)) (billId : String) (d : ℤ) :
    tally (pairs ++ [(billId, d)]) = fun b => tally pairs b + if billId = b then d else 0 := by
  funext b
  simp [tally_append, tally_cons]

/-- An update that meets the bill it was read from goes through. -/
theorem update_header_read {expect : Bill → Prop} [DecidablePred expect] {values : Bill → Bill}
    {read : Bill} (hbill : tables.bills billId = some read) (hexpect : expect read) :
    tables.updateHeader billId expect values = some (tables.writeBill billId (values read)) := by
  simp [Tables.updateHeader, hbill, hexpect, Tables.writeBill]

/-- What a payment that is under way has done: it is recorded, and its first rows are on their
bills. -/
structure Midway (before : Tables) (paymentId : String) (row : PaymentRow) (paise txn : String → ℤ)
    (tables : Tables) : Prop where
  bills : BillsGrown before tables paise txn
  rupees : tables.RupeesWithin
  foreign : tables.ForeignWithin
  payments : tables.payments = (before.insertPayment paymentId row).payments
  allocations : tables.allocations = before.allocations
  fx : tables.fxAdjustments = before.fxAdjustments

/-- What a payment that returns has done. -/
structure Recorded (before : Tables) (paymentId : String) (row : PaymentRow)
    (paise txn : String → ℤ) (rows : List PaymentAllocation) (fx : List FxAdjustment)
    (tables : Tables) : Prop where
  bills : BillsGrown before tables paise txn
  rupees : tables.RupeesWithin
  foreign : tables.ForeignWithin
  payments : tables.payments = (before.insertPayment paymentId row).payments
  allocations : tables.allocations.rows = before.allocations.rows ++ rows
  fx : tables.fxAdjustments = before.fxAdjustments ++ fx

theorem midway_start (h : before.Conserved) (paymentId : String) (row : PaymentRow) :
    Midway before paymentId row 0 0 (before.insertPayment paymentId row) :=
  ⟨grown_refl before, h.rupees, h.foreign, rfl, rfl, rfl⟩

theorem midway_write (h : Midway before paymentId row paise txn tables) {bill bill' : Bill}
    (hbill : tables.bills billId = some bill) (hgrown : Grown d e bill bill')
    (hrupees : upper bill'.txnCurrency = "INR" → bill'.Within)
    (hforeign : upper bill'.txnCurrency ≠ "INR" → bill'.paidTxn ≤ bill'.txnNetPayable) :
    Midway before paymentId row (fun b => paise b + if billId = b then d else 0)
      (fun b => txn b + if billId = b then e else 0) (tables.writeBill billId bill') :=
  ⟨grown_write h.bills hbill hgrown, rupees_write h.rupees hrupees,
    foreign_write h.foreign hforeign, h.payments, h.allocations, h.fx⟩

theorem midway_absent (h : Midway before paymentId row paise txn tables)
    (hnone : tables.bills billId = none) (d e : ℤ) :
    Midway before paymentId row (fun b => paise b + if billId = b then d else 0)
      (fun b => txn b + if billId = b then e else 0) tables :=
  ⟨grown_absent h.bills hnone d e, h.rupees, h.foreign, h.payments, h.allocations, h.fx⟩

theorem insert_allocations_some {inserted : Tables}
    (h : tables.insertAllocations added = some inserted) :
    ∃ hunique, inserted = { tables with
      allocations := ⟨tables.allocations.rows ++ added, hunique⟩ } := by
  unfold Tables.insertAllocations at h
  split at h
  · rename_i hunique
    exact ⟨hunique, (Option.some.inj h).symm⟩
  · cases h

theorem midway_insert {inserted : Tables} (h : Midway before paymentId row paise txn tables)
    (hinserted : tables.insertAllocations rows = some inserted) :
    Recorded before paymentId row paise txn rows [] inserted := by
  obtain ⟨hunique, rfl⟩ := insert_allocations_some hinserted
  exact ⟨h.bills, h.rupees, h.foreign, h.payments, by simp [h.allocations], by simp [h.fx]⟩

theorem midway_bare (h : Midway before paymentId row paise txn tables) :
    Recorded before paymentId row paise txn [] [] tables :=
  ⟨h.bills, h.rupees, h.foreign, h.payments, by simp [h.allocations], by simp [h.fx]⟩

/-! ### A payment in rupees -/

def PaymentCall.row (call : PaymentCall) : PaymentRow := ⟨call.amountPaise, call.unallocatedPaise⟩

/-- Every bill has room for all that is put on it, but for some bills that are still to come. -/
def Cleared (before : Tables) (call : PaymentCall) (rest : List (String × ℤ)) : Prop :=
  ∀ x ∈ grouped call.named, x ∈ rest ∨ ∀ bill, before.bills x.1 = some bill →
    bill.paidPaise + bill.debitedPaise + x.2 ≤ bill.effectivePayable

/-- How far a payment in rupees has come, from the tables before it. -/
def PayGoing (before : Tables) (call : PaymentCall) (tables : Tables) : PayPhase → Prop
  | .vendor | .period | .checkStatus _ => tables = before
  | .prevalidate rest => tables = before ∧ Cleared before call rest
  | .journal | .insertPayment => tables = before ∧ Cleared before call []
  | .readBill billId amount rest _ =>
    Cleared before call [] ∧ ∃ put, call.named = put ++ (billId, amount) :: rest ∧
      Midway before call.paymentId call.row (tally put) 0 tables
  | .writeBill billId amount rest _ read =>
    Cleared before call [] ∧ ∃ put, call.named = put ++ (billId, amount) :: rest ∧
      Midway before call.paymentId call.row (tally put) 0 tables ∧
      tables.bills billId = some read ∧
      read.paidPaise + amount + read.debitedPaise ≤ read.effectivePayable
  | .insertAllocations => Midway before call.paymentId call.row (tally call.named) 0 tables
  | .finished =>
    Recorded before call.paymentId call.row (tally call.named) 0 call.rows [] tables
  | .compensate _ | .raised _ => True

theorem settle_next_going {call : PaymentCall} (hcleared : Cleared before call [])
    (hnamed : call.named = put ++ rest)
    (h : Midway before call.paymentId call.row (tally put) 0 tables) :
    PayGoing before call tables (settleNext call rest) := by
  cases rest with
  | cons first rest => exact ⟨hcleared, put, hnamed, h⟩
  | nil =>
    obtain rfl : call.named = put := by simpa using hnamed
    unfold settleNext
    dsimp only
    split
    · rename_i hnone
      have hrows : call.rows = [] := by simp [PaymentCall.rows, hnone]
      change Recorded before call.paymentId call.row (tally call.named) 0 call.rows [] tables
      rw [hrows]
      exact midway_bare h
    · exact h

theorem paying_grown (read : Bill) (amount : ℤ) : Grown amount 0 read (read.paying read amount) :=
  ⟨rfl, by simp [Bill.paying], rfl⟩

theorem status_checked_going (call : PaymentCall) (rest : List (String × ℤ)) :
    PayGoing before call before (statusChecked call rest) := by
  unfold statusChecked
  split
  · split
    · rename_i hnone
      refine ⟨rfl, ?_⟩
      simp [Cleared, hnone, grouped]
    · exact ⟨rfl, fun x hx => .inl hx⟩
  · rfl

theorem prevalidated_going {call : PaymentCall} {rest : List (String × ℤ)}
    (h : Cleared before call rest) : PayGoing before call before (prevalidated rest) := by
  unfold prevalidated
  split <;> exact ⟨rfl, h⟩

/-- A bill is done with: it has room, or it is not there. -/
theorem cleared_next {call : PaymentCall} {rest : List (String × ℤ)} {x : String × ℤ}
    (h : Cleared before call (x :: rest))
    (hx : ∀ bill, before.bills x.1 = some bill →
      bill.paidPaise + bill.debitedPaise + x.2 ≤ bill.effectivePayable) :
    Cleared before call rest := by
  intro y hy
  rcases h y hy with hrest | hdone
  · rcases List.mem_cons.mp hrest with rfl | hrest
    · exact .inr hx
    · exact .inl hrest
  · exact .inr hdone

theorem pay_going (hbefore : before.Conserved) {call : PaymentCall} (tables : Tables)
    (phase : PayPhase) (reply : Outcome Failure) (h : PayGoing before call tables phase) :
    PayGoing before call (payStep call tables phase reply).1 (payStep call tables phase reply).2 := by
  cases phase with
  | vendor =>
    obtain rfl := h
    cases reply with
    | refused failure | lost failure => trivial
    | done =>
      simp only [payStep, reading, opened]
      split
      · trivial
      · split
        · trivial
        · rfl
  | period =>
    obtain rfl := h
    cases reply with
    | refused failure | lost failure => trivial
    | done => exact status_checked_going call _
  | checkStatus rest =>
    obtain rfl := h
    cases rest with
    | nil => exact status_checked_going call []
    | cons first rest =>
      cases reply with
      | refused failure | lost failure => trivial
      | done =>
        simp only [payStep, reading]
        split
        · trivial
        · exact status_checked_going call rest
  | prevalidate rest =>
    obtain ⟨rfl, hcleared⟩ := h
    cases rest with
    | nil => exact ⟨rfl, hcleared⟩
    | cons first rest =>
      cases reply with
      | refused failure | lost failure => trivial
      | done =>
        simp only [payStep, reading]
        split
        · rename_i hnone
          exact prevalidated_going (cleared_next hcleared fun bill hbill => by simp [hnone] at hbill)
        · rename_i bill hbill
          split
          · trivial
          · rename_i hroom
            refine prevalidated_going (cleared_next hcleared fun found hfound => ?_)
            obtain rfl : bill = found := by simpa [hbill] using hfound
            exact not_lt.mp hroom
  | journal =>
    obtain ⟨rfl, hcleared⟩ := h
    cases reply with
    | refused failure | lost failure => trivial
    | done => exact ⟨rfl, hcleared⟩
  | insertPayment =>
    obtain ⟨rfl, hcleared⟩ := h
    cases reply with
    | refused failure | lost failure => trivial
    | done =>
      refine settle_next_going hcleared (List.nil_append call.named).symm ?_
      exact midway_start hbefore call.paymentId call.row
  | readBill billId amount rest left =>
    obtain ⟨hcleared, put, hnamed, hmid⟩ := h
    cases reply with
    | refused failure | lost failure => trivial
    | done =>
      simp only [payStep, reading]
      split
      · rename_i hnone
        refine settle_next_going hcleared
          (by simp [hnamed] : call.named = (put ++ [(billId, amount)]) ++ rest) ?_
        simpa [tally_snoc, Pi.zero_def] using midway_absent hmid hnone amount 0
      · rename_i read hread
        split
        · trivial
        · rename_i hroom
          exact ⟨hcleared, put, hnamed, hmid, hread, not_lt.mp hroom⟩
  | writeBill billId amount rest left read =>
    obtain ⟨hcleared, put, hnamed, hmid, hread, hroom⟩ := h
    cases reply with
    | refused failure | lost failure => trivial
    | done =>
      simp only [payStep, update_header_read hread]
      refine settle_next_going hcleared
        (by simp [hnamed] : call.named = (put ++ [(billId, amount)]) ++ rest) ?_
      have hwrite := midway_write hmid hread (paying_grown read amount)
        (fun _ => by simp only [Bill.Within, Bill.paying, Bill.effectivePayable] at hroom ⊢; omega)
        fun hforeign => hmid.foreign billId read hread hforeign
      simpa [tally_snoc, Pi.zero_def] using hwrite
  | insertAllocations =>
    cases reply with
    | refused failure | lost failure => trivial
    | done =>
      rcases Option.eq_none_or_eq_some (tables.insertAllocations call.rows) with hnone | ⟨t, hsome⟩
      · simp only [payStep, hnone]
        trivial
      · simp only [payStep, hsome]
        exact midway_insert h hsome
  | compensate failure => cases reply <;> trivial
  | finished => exact h
  | raised failure => trivial

/-! ### A payment in another currency -/

def paiseOf (plan : List Settled) : List (String × ℤ) := plan.map fun p => (p.billId, p.apRelieved)

def txnOf (plan : List Settled) : List (String × ℤ) := plan.map fun p => (p.billId, p.foreign)

def ForeignCall.fxRows (call : ForeignCall) (plan : List Settled) : List FxAdjustment :=
  if call.fxDiff plan ≠ 0 then [⟨call.paymentId, call.fxDiff plan⟩] else []

/-- The parts that are planned of what is asked, but for some that are still to come. -/
def Planned (before : Tables) (call : ForeignCall) (rest : List AllocationIn)
    (plan : List Settled) : Prop :=
  ∃ done, call.asked = done ++ rest ∧
    done.map (call.plan · before.bills) = plan.map .ok

/-- How far a foreign payment has come. -/
def ForeignGoing (before : Tables) (call : ForeignCall) (tables : Tables) : ForeignPhase → Prop
  | .vendor | .period | .policy => tables = before
  | .plan rest plan => tables = before ∧ Planned before call rest plan
  | .journal plan | .insertPayment plan => tables = before ∧ Planned before call [] plan
  | .readBill plan part rest _ =>
    Planned before call [] plan ∧ ∃ put, plan = put ++ part :: rest ∧
      Midway before call.paymentId (call.row plan) (tally (paiseOf put)) (tally (txnOf put)) tables
  | .writeBill plan part rest _ read =>
    Planned before call [] plan ∧ (∃ put, plan = put ++ part :: rest ∧
      Midway before call.paymentId (call.row plan) (tally (paiseOf put)) (tally (txnOf put))
        tables) ∧
      tables.bills part.billId = some read ∧ read.paidTxn + part.foreign ≤ read.txnNetPayable
  | .insertAllocations plan =>
    Planned before call [] plan ∧
      Midway before call.paymentId (call.row plan) (tally (paiseOf plan)) (tally (txnOf plan)) tables
  | .insertFx plan =>
    Planned before call [] plan ∧ call.fxDiff plan ≠ 0 ∧
      Recorded before call.paymentId (call.row plan) (tally (paiseOf plan)) (tally (txnOf plan))
        (call.rows plan) [] tables
  | .readVendor | .finished =>
    ∃ plan, Planned before call [] plan ∧
      Recorded before call.paymentId (call.row plan) (tally (paiseOf plan)) (tally (txnOf plan))
        (call.rows plan) (call.fxRows plan) tables
  | .compensate _ | .raised _ => True

theorem record_fx_going {call : ForeignCall} {plan : List Settled}
    (hplanned : Planned before call [] plan)
    (h : Recorded before call.paymentId (call.row plan) (tally (paiseOf plan))
      (tally (txnOf plan)) (call.rows plan) [] tables) :
    ForeignGoing before call tables (call.recordFx plan) := by
  unfold ForeignCall.recordFx
  split
  · rename_i hdiff
    exact ⟨hplanned, hdiff, h⟩
  · rename_i hdiff
    refine ⟨plan, hplanned, ?_⟩
    have hrows : call.fxRows plan = [] := if_neg hdiff
    rw [hrows]
    exact h

theorem foreign_next_going {call : ForeignCall} {plan put rest : List Settled}
    (hplanned : Planned before call [] plan) (hplan : plan = put ++ rest)
    (h : Midway before call.paymentId (call.row plan) (tally (paiseOf put)) (tally (txnOf put))
      tables) :
    ForeignGoing before call tables (call.settleNext plan rest) := by
  cases rest with
  | cons part rest => exact ⟨hplanned, put, hplan, h⟩
  | nil =>
    obtain rfl : plan = put := by simpa using hplan
    unfold ForeignCall.settleNext
    dsimp only
    split
    · rename_i hnone
      apply record_fx_going hplanned
      have hrows : call.rows plan = [] := by simp [ForeignCall.rows, hnone]
      rw [hrows]
      exact midway_bare h
    · exact ⟨hplanned, h⟩

theorem planned_going {call : ForeignCall} {plan : List Settled} {rest : List AllocationIn}
    (h : Planned before call rest plan) :
    ForeignGoing before call before (call.planned plan rest) := by
  unfold ForeignCall.planned
  split
  · split
    · trivial
    · exact ⟨rfl, h⟩
  · exact ⟨rfl, h⟩

theorem payable_ok {found : Option Bill} (h : payable billId found = .ok bill) :
    found = some bill := by
  unfold payable at h
  split at h
  · cases h
  · split at h
    · cases h
    · split at h
      · cases h
      · rw [Except.ok.inj h]

/-- A part that is planned is of a bill in the currency of the payment. -/
theorem plan_ok {call : ForeignCall} {bills : String → Option Bill}
    (h : call.plan a bills = .ok part) :
    ∃ bill, bills part.billId = some bill ∧ upper bill.txnCurrency = call.currency ∧
      part.foreign = a.allocatedPaise ∧ part.foreign ≤ bill.foreignOut ∧
      part.apRelieved = bill.apRelieved part.foreign call.minor := by
  unfold ForeignCall.plan at h
  dsimp only at h
  split at h
  · cases h
  · rename_i bill hpayable
    split at h
    · cases h
    · rename_i hcurrency
      split at h
      · cases h
      · rename_i hroom
        split at h
        · cases h
        · obtain rfl := Except.ok.inj h
          have hbill := payable_ok hpayable
          obtain ⟨billId, hid, hbill⟩ := Option.bind_eq_some_iff.mp hbill
          refine ⟨bill, ?_, not_not.mp hcurrency, rfl, not_lt.mp hroom, rfl⟩
          rw [hid]
          exact hbill

theorem plan_id {call : ForeignCall} {bills : String → Option Bill}
    (h : call.plan a bills = .ok part) : a.purchaseBillId = some part.billId := by
  unfold ForeignCall.plan at h
  dsimp only at h
  split at h
  · cases h
  · rename_i bill hpayable
    obtain ⟨billId, hid, -⟩ := Option.bind_eq_some_iff.mp (payable_ok hpayable)
    split at h
    · cases h
    · split at h
      · cases h
      · split at h
        · cases h
        · obtain rfl := Except.ok.inj h
          rw [hid]
          rfl

theorem planned_snoc {call : ForeignCall} {a : AllocationIn} {rest : List AllocationIn}
    {plan : List Settled} {part : Settled} (hplan : Planned before call (a :: rest) plan)
    (h : call.plan a before.bills = .ok part) : Planned before call rest (plan ++ [part]) := by
  obtain ⟨done, hasked, hparts⟩ := hplan
  exact ⟨done ++ [a], by rw [hasked, List.append_cons], by simp [hparts, h]⟩

/-- Each part of a plan is planned of something asked. -/
theorem planned_part {call : ForeignCall} {plan : List Settled} {part : Settled}
    (hplan : Planned before call rest plan) (hpart : part ∈ plan) :
    ∃ a ∈ call.asked, call.plan a before.bills = .ok part := by
  obtain ⟨done, hasked, hparts⟩ := hplan
  have hok : .ok part ∈ done.map (call.plan · before.bills) := by
    rw [hparts]
    exact List.mem_map_of_mem hpart
  obtain ⟨a, ha, hplanned⟩ := List.mem_map.mp hok
  refine ⟨a, ?_, hplanned⟩
  rw [hasked]
  exact List.mem_append_left _ ha

theorem paying_foreign_grown (read : Bill) (part : Settled) :
    Grown part.apRelieved part.foreign read (read.payingForeign read part) :=
  ⟨rfl, rfl, rfl⟩

/-- A bill that grew is billed in the currency it was billed in. -/
theorem grown_currency (h : BillsGrown before tables paise txn) {read : Bill}
    (hread : tables.bills billId = some read) :
    ∃ bill, before.bills billId = some bill ∧ upper read.txnCurrency = upper bill.txnCurrency := by
  have hb := h billId
  rw [hread] at hb
  cases hbefore : before.bills billId with
  | none =>
    rw [hbefore] at hb
    cases hb
  | some bill =>
    rw [hbefore] at hb
    cases hb with
    | some hgrown =>
      have hbilled := hgrown.billed
      simp only [Bill.billed, Prod.mk.injEq] at hbilled
      exact ⟨bill, rfl, by rw [hbilled.2.2.2.1]⟩

theorem foreign_going (hbefore : before.Conserved) {call : ForeignCall} (tables : Tables)
    (phase : ForeignPhase) (reply : Outcome Failure) (h : ForeignGoing before call tables phase) :
    ForeignGoing before call (foreignStep call tables phase reply).1
      (foreignStep call tables phase reply).2 := by
  have hnil : Planned before call call.asked [] := ⟨[], rfl, rfl⟩
  cases phase with
  | vendor | period =>
    obtain rfl := h
    cases reply with
    | refused failure | lost failure => trivial
    | done => rfl
  | policy =>
    obtain rfl := h
    cases reply with
    | refused failure | lost failure => trivial
    | done =>
      simp only [foreignStep, reading, ForeignCall.priced]
      split
      · trivial
      · split
        · trivial
        · exact planned_going hnil
  | plan rest plan =>
    obtain ⟨rfl, hplan⟩ := h
    cases rest with
    | nil => exact planned_going hplan
    | cons a rest =>
      cases reply with
      | refused failure | lost failure => trivial
      | done =>
        simp only [foreignStep, reading]
        split
        · trivial
        · rename_i part hpart
          exact planned_going (planned_snoc hplan hpart)
  | journal plan =>
    cases reply with
    | refused failure | lost failure => trivial
    | done => exact h
  | insertPayment plan =>
    obtain ⟨rfl, hplan⟩ := h
    cases reply with
    | refused failure | lost failure => trivial
    | done =>
      refine foreign_next_going hplan (List.nil_append plan).symm ?_
      exact midway_start hbefore call.paymentId (call.row plan)
  | readBill plan part rest left =>
    obtain ⟨hplanned, put, hplan, hmid⟩ := h
    cases reply with
    | refused failure | lost failure => trivial
    | done =>
      simp only [foreignStep, reading]
      split
      · rename_i hnone
        refine foreign_next_going hplanned
          (by simp [hplan] : plan = (put ++ [part]) ++ rest) ?_
        simpa [paiseOf, txnOf, tally_snoc] using
          midway_absent hmid hnone part.apRelieved part.foreign
      · rename_i read hread
        split
        · trivial
        · rename_i hroom
          exact ⟨hplanned, ⟨put, hplan, hmid⟩, hread, not_lt.mp hroom⟩
  | writeBill plan part rest left read =>
    obtain ⟨hplanned, ⟨put, hplan, hmid⟩, hread, hroom⟩ := h
    cases reply with
    | refused failure | lost failure => trivial
    | done =>
      simp only [foreignStep, update_header_read hread]
      refine foreign_next_going hplanned (by simp [hplan] : plan = (put ++ [part]) ++ rest) ?_
      have hwrite := midway_write hmid hread (paying_foreign_grown read part)
        (fun hrupees => ?_) fun _ => hroom
      · simpa [paiseOf, txnOf, tally_snoc] using hwrite
      · -- no bill in rupees is in a plan
        obtain ⟨bill, hbill, hsame⟩ := grown_currency hmid.bills hread
        obtain ⟨a, -, hpart⟩ := planned_part hplanned (by simp [hplan] : part ∈ plan)
        obtain ⟨found, hfound, hcurrency, -⟩ := plan_ok hpart
        obtain rfl : bill = found := by simpa [hbill] using hfound
        exact absurd (hcurrency.symm.trans (hsame.symm.trans hrupees)) call.foreign
  | insertAllocations plan =>
    obtain ⟨hplanned, hmid⟩ := h
    cases reply with
    | refused failure | lost failure => trivial
    | done =>
      rcases Option.eq_none_or_eq_some (tables.insertAllocations (call.rows plan)) with
        hnone | ⟨t, hsome⟩
      · simp only [foreignStep, hnone]
        trivial
      · simp only [foreignStep, hsome]
        exact record_fx_going hplanned (midway_insert hmid hsome)
  | insertFx plan =>
    obtain ⟨hplanned, hdiff, hrecorded⟩ := h
    cases reply with
    | refused failure | lost failure => trivial
    | done =>
      refine ⟨plan, hplanned, ?_⟩
      have hrows : call.fxRows plan = [⟨call.paymentId, call.fxDiff plan⟩] := if_pos hdiff
      rw [hrows]
      obtain ⟨hbills, hrupees, hforeign, hpayments, hallocations, hfx⟩ := hrecorded
      refine ⟨hbills, hrupees, hforeign, hpayments, hallocations, ?_⟩
      change tables.fxAdjustments ++ _ = _
      rw [hfx, List.append_nil]
  | compensate failure => cases reply <;> trivial
  | readVendor =>
    cases reply with
    | refused failure | lost failure => trivial
    | done => exact h
  | finished => exact h
  | raised failure => trivial

end

end Caflow.Settlement.Payables
