import Caflow.Settlement.Reallocation

set_option linter.all false

namespace Caflow.Settlement.Payables
open Interleaving Interrupted Tally Text

section
variable {before tables : Tables}

/-! ### The books after a call that returns -/

theorem grown_bill {paise txn : String → ℤ} (h : BillsGrown before tables paise txn) {bill : Bill}
    (hbill : tables.bills b = some bill) :
    ∃ first, before.bills b = some first ∧ Grown (paise b) (txn b) first bill := by
  have hb := h b
  rw [hbill] at hb
  cases hbefore : before.bills b with
  | none =>
    rw [hbefore] at hb
    cases hb
  | some first =>
    rw [hbefore] at hb
    cases hb with
    | some hgrown => exact ⟨first, rfl, hgrown⟩

/-- A payment that nothing is known of has no allocations. -/
theorem allocated_of_none (h : before.Conserved) (hfresh : before.payments paymentId = none) :
    before.allocatedOf paymentId = 0 := by
  apply tally_absent
  intro p hp hid
  obtain ⟨a, ha, rfl⟩ := List.mem_map.mp hp
  exact h.owned a ha (by rw [show a.paymentId = paymentId from hid, hfresh])

theorem fx_of_none (h : before.Conserved) (hfresh : before.payments paymentId = none) :
    before.fxOf paymentId = 0 := by
  apply tally_absent
  intro p hp hid
  obtain ⟨f, hf, rfl⟩ := List.mem_map.mp hp
  exact h.fxOwned f hf (by rw [show f.paymentId = paymentId from hid, hfresh])

/-- A payment is recorded with rows that come to what it put on the bills, and the books are kept. -/
theorem recorded_conserved (hbefore : before.Conserved) {row : PaymentRow} {paise txn : String → ℤ}
    {rows : List PaymentAllocation} {fx : List FxAdjustment} (hfresh : before.payments paymentId = none)
    (h : Recorded before paymentId row paise txn rows fx tables)
    (hid : ∀ a ∈ rows, a.paymentId = paymentId) (hnonneg : ∀ a ∈ rows, 0 ≤ a.allocatedPaise)
    (hfxid : ∀ f ∈ fx, f.paymentId = paymentId)
    (hpaise : ∀ b, paise b = tally (rows.map fun a => (a.billId, a.allocatedPaise)) b)
    (htxn : ∀ b, txn b = tally (rows.map fun a => (a.billId, a.allocatedTxn.getD 0)) b)
    (hsum : (rows.map PaymentAllocation.allocatedPaise).sum + row.unallocatedPaise =
      row.amountPaise + (fx.map FxAdjustment.baseDeltaPaise).sum) : tables.Conserved := by
  have hpayments : ∀ other, tables.payments other = if other = paymentId then some row else
      before.payments other := by
    intro other
    simp [h.payments, Tables.insertPayment, Function.update_apply]
  have hkept : ∀ other, before.payments other ≠ none → tables.payments other ≠ none := by
    intro other hother
    rw [hpayments]
    split
    · exact Option.some_ne_none row
    · exact hother
  have howns : tables.payments paymentId ≠ none := by simp [hpayments]
  refine ⟨?_, ?_, h.rupees, h.foreign, ?_, ?_, ?_⟩
  · intro other found hfound
    unfold Tables.allocatedOf Tables.fxOf
    rw [h.allocations, h.fx, List.map_append, List.map_append, tally_append, tally_append]
    rw [hpayments] at hfound
    by_cases hother : other = paymentId
    · subst hother
      have hrow : row = found := by simpa using hfound
      have hown := allocated_of_none hbefore hfresh
      have hfxown := fx_of_none hbefore hfresh
      unfold Tables.allocatedOf at hown
      unfold Tables.fxOf at hfxown
      rw [hown, hfxown, tally_all (by simpa using hid), tally_all (by simpa using hfxid)]
      simpa [Function.comp_def, hrow] using hsum
    · have hbooks := hbefore.payments other found (by simpa [hother] using hfound)
      unfold Tables.allocatedOf Tables.fxOf at hbooks
      have hrows : tally (rows.map fun a => (a.paymentId, a.allocatedPaise)) other = 0 := by
        apply tally_absent
        intro p hp
        obtain ⟨a, ha, rfl⟩ := List.mem_map.mp hp
        rw [hid a ha]
        exact Ne.symm hother
      have hfx : tally (fx.map fun f => (f.paymentId, f.baseDeltaPaise)) other = 0 := by
        apply tally_absent
        intro p hp
        obtain ⟨f, hf, rfl⟩ := List.mem_map.mp hp
        rw [hfxid f hf]
        exact Ne.symm hother
      rw [hrows, hfx, add_zero, add_zero]
      exact hbooks
  · intro b bill hbill
    obtain ⟨first, hfirst, hgrown⟩ := grown_bill h.bills hbill
    obtain ⟨hpaid, hpaidTxn⟩ := hbefore.bills b first hfirst
    unfold Tables.allocatedTo Tables.allocatedTxnTo at *
    rw [h.allocations, List.map_append, List.map_append, tally_append, tally_append, ← hpaise,
      ← htxn, hgrown.paid, hgrown.paidTxn, hpaid, hpaidTxn]
    exact ⟨rfl, rfl⟩
  · intro a ha
    rw [h.allocations] at ha
    rcases List.mem_append.mp ha with hold | hnew
    · exact hbefore.nonneg a hold
    · exact hnonneg a hnew
  · intro a ha
    rw [h.allocations] at ha
    rcases List.mem_append.mp ha with hold | hnew
    · exact hkept _ (hbefore.owned a hold)
    · rw [hid a hnew]
      exact howns
  · intro f hf
    rw [h.fx] at hf
    rcases List.mem_append.mp hf with hold | hnew
    · exact hkept _ (hbefore.fxOwned f hold)
    · rw [hfxid f hnew]
      exact howns

/-- A payment with no part in another currency. -/
def Tables.InRupees (tables : Tables) (paymentId : String) : Prop :=
  (∀ a ∈ tables.paymentRows paymentId, a.allocatedTxn = none) ∧ tables.fxOf paymentId = 0

/-- A payment is allocated anew, and the books are kept. -/
theorem reallocated_conserved (hbefore : before.Conserved) {call : UpdateCall} {amountPaise : ℤ}
    (hrupees : before.InRupees call.paymentId)
    (htotal : call.totalRequested = (call.named.map Prod.snd).sum)
    (h : Reallocated before call amountPaise tables)
    (hpayments : tables.payments =
      (before.writeUnallocated call.paymentId (amountPaise - call.totalRequested)).payments) :
    tables.Conserved := by
  have hnamed : ∀ b, tally (call.rows.map fun a => (a.billId, a.allocatedPaise)) b =
      tally call.named b := by
    intro b
    simp [UpdateCall.rows, Function.comp_def]
  have hnamedTxn : ∀ b, tally (call.rows.map fun a => (a.billId, a.allocatedTxn.getD 0)) b = 0 := by
    apply tally_zero
    intro p hp
    obtain ⟨a, ha, rfl⟩ := List.mem_map.mp hp
    obtain ⟨x, -, rfl⟩ := List.mem_map.mp ha
    rfl
  have hsum : (call.rows.map PaymentAllocation.allocatedPaise).sum = call.totalRequested := by
    rw [htotal]
    simp [UpdateCall.rows, Function.comp_def]
  have hids : ∀ a ∈ call.rows, a.paymentId = call.paymentId := by
    intro a ha
    obtain ⟨x, -, rfl⟩ := List.mem_map.mp ha
    rfl
  have hkept : ∀ other, before.payments other ≠ none → tables.payments other ≠ none := by
    intro other hother
    simpa [hpayments, Tables.writeUnallocated] using hother
  have hfx : ∀ other, tables.fxOf other = before.fxOf other := by
    intro other
    unfold Tables.fxOf
    rw [h.fx]
  refine ⟨?_, ?_, h.rupees, h.foreign, ?_, ?_, ?_⟩
  · intro other found hfound
    rw [hfx]
    unfold Tables.allocatedOf
    rw [h.allocations, List.map_append, tally_append]
    by_cases hother : other = call.paymentId
    · subst hother
      obtain ⟨row, hrow, hamount⟩ := h.amount
      have hkeys : tally ((before.allocations.rows.filter (·.paymentId ≠ call.paymentId)).map
          fun a => (a.paymentId, a.allocatedPaise)) call.paymentId = 0 := by
        apply tally_absent
        intro p hp
        obtain ⟨a, ha, rfl⟩ := List.mem_map.mp hp
        simpa using (List.mem_filter.mp ha).2
      have hfound' : { row with unallocatedPaise := amountPaise - call.totalRequested } = found := by
        simpa [hpayments, Tables.writeUnallocated, hrow] using hfound
      rw [hkeys, tally_all (by simpa using hids), List.map_map, hrupees.2, ← hfound']
      simp only [Function.comp_def, hsum, hamount]
      omega
    · have hrow : before.payments other = some found := by
        simpa [hpayments, Tables.writeUnallocated, hother] using hfound
      have hbooks := hbefore.payments other found hrow
      have hsplit := tally_split (·.paymentId = call.paymentId)
        (fun a : PaymentAllocation => (a.paymentId, a.allocatedPaise)) before.allocations.rows other
      have hprior : tally ((before.allocations.rows.filter (·.paymentId = call.paymentId)).map
          fun a => (a.paymentId, a.allocatedPaise)) other = 0 := by
        apply tally_absent
        intro p hp
        obtain ⟨a, ha, rfl⟩ := List.mem_map.mp hp
        rw [show a.paymentId = call.paymentId by simpa using (List.mem_filter.mp ha).2]
        exact Ne.symm hother
      have hnew : tally (call.rows.map fun a => (a.paymentId, a.allocatedPaise)) other = 0 := by
        apply tally_absent
        intro p hp
        obtain ⟨a, ha, rfl⟩ := List.mem_map.mp hp
        rw [hids a ha]
        exact Ne.symm hother
      unfold Tables.allocatedOf at hbooks
      rw [hsplit, hprior, zero_add] at hbooks
      rw [hnew, add_zero]
      exact hbooks
  · intro b bill hbill
    obtain ⟨first, hfirst, hgrown⟩ := grown_bill h.bills hbill
    obtain ⟨hpaid, hpaidTxn⟩ := hbefore.bills b first hfirst
    have hsplit := tally_split (·.paymentId = call.paymentId)
      (fun a : PaymentAllocation => (a.billId, a.allocatedTxn.getD 0)) before.allocations.rows b
    have hprior : tally ((before.allocations.rows.filter (·.paymentId = call.paymentId)).map
        fun a => (a.billId, a.allocatedTxn.getD 0)) b = 0 := by
      apply tally_zero
      intro p hp
      obtain ⟨a, ha, rfl⟩ := List.mem_map.mp hp
      dsimp only
      rw [hrupees.1 a ha]
      rfl
    have hgrowth := hgrown.paid
    have hgrowthTxn := hgrown.paidTxn
    rw [allocated_split call.paymentId] at hpaid
    unfold Tables.allocatedTxnTo at hpaidTxn
    rw [hsplit, hprior] at hpaidTxn
    rw [prior_on_eq] at hgrowth
    unfold Tables.allocatedTo Tables.allocatedTxnTo
    rw [h.allocations, List.map_append, List.map_append, tally_append, tally_append, hnamed,
      hnamedTxn]
    simp only [Pi.zero_apply, ne_eq] at hgrowthTxn hpaidTxn ⊢
    simp only [ne_eq] at hpaid
    constructor <;> omega
  · intro a ha
    rw [h.allocations] at ha
    rcases List.mem_append.mp ha with hold | hnew
    · exact hbefore.nonneg a (List.mem_of_mem_filter hold)
    · obtain ⟨x, hx, rfl⟩ := List.mem_map.mp hnew
      exact (named_positive hx).le
  · intro a ha
    rw [h.allocations] at ha
    rcases List.mem_append.mp ha with hold | hnew
    · exact hkept _ (hbefore.owned a (List.mem_of_mem_filter hold))
    · obtain ⟨row, hrow, -⟩ := h.amount
      rw [hids a hnew]
      exact hkept _ (by simp [hrow])
  · intro f hf
    rw [h.fx] at hf
    exact hkept _ (hbefore.fxOwned f hf)

/-! ### The books after a call that raises -/

/-- The bills and the allocations are as they were. -/
structure Unmoved (before tables : Tables) : Prop where
  bills : tables.bills = before.bills
  allocations : tables.allocations = before.allocations

/-- A statement that fails leaves the bills and the allocations as they were before its call, and a
deletion that makes good for a failure is carried out. -/
def Early (advance : Tables → π → Outcome Failure → Tables × π) (compensating : π → Prop)
    (before tables : Tables) (phase : π) (reply : Outcome Failure) : Prop :=
  reply ≠ .done → Unmoved before (advance tables phase reply).1 ∧
    (compensating phase → ∀ failure, reply ≠ .refused failure)

/-- What a call leaves that raises: the payments are as they were too, unless all was done. -/
def Stopped (before tables : Tables) (done : Prop) : Prop :=
  Unmoved before tables ∧
    ((tables.payments = before.payments ∧ tables.fxAdjustments = before.fxAdjustments) ∨ done)

theorem stopped_refl {before : Tables} {done : Prop} : Stopped before before done :=
  ⟨⟨rfl, rfl⟩, .inl ⟨rfl, rfl⟩⟩

/-- The bills and the allocations are as they were, and a payment may be recorded. -/
def Compensable (before : Tables) (paymentId : String) (row : PaymentRow) (tables : Tables) : Prop :=
  Unmoved before tables ∧ tables.fxAdjustments = before.fxAdjustments ∧
    (tables.payments = before.payments ∨
      tables.payments = (before.insertPayment paymentId row).payments)

theorem allocations_eq {x y : PaymentAllocations} (h : x.rows = y.rows) : x = y := by
  cases x
  cases y
  congr

theorem not_fresh (hbefore : before.Conserved) (hfresh : before.payments paymentId = none)
    {a : PaymentAllocation} (ha : a ∈ before.allocations.rows) : a.paymentId ≠ paymentId := by
  intro hid
  apply hbefore.owned a ha
  rw [hid, hfresh]

/-- Once its payment is deleted, a call leaves nothing behind. -/
theorem compensated (hbefore : before.Conserved) (hfresh : before.payments paymentId = none)
    {row : PaymentRow} {done : Prop} (h : Compensable before paymentId row tables) :
    Stopped before (tables.deletePayment paymentId) done := by
  obtain ⟨⟨hbills, hallocations⟩, hfx, hpayments⟩ := h
  refine ⟨⟨hbills, allocations_eq ?_⟩, .inl ⟨?_, hfx⟩⟩
  · simp only [Tables.deletePayment, PaymentAllocations.without, hallocations]
    rw [List.filter_eq_self]
    intro a ha
    simpa using not_fresh hbefore hfresh ha
  · change Function.update tables.payments paymentId none = before.payments
    rw [← hfresh]
    rcases hpayments with hpayments | hpayments
    · rw [hpayments, Function.update_eq_self]
    · rw [hpayments, Tables.insertPayment, Function.update_idem, Function.update_eq_self]

/-- Rows for different bills of a payment that has none are inserted. -/
theorem insert_allocations_fresh (paymentId : String) {rows : List PaymentAllocation}
    (hid : ∀ a ∈ rows, a.paymentId = paymentId) (hbills : (rows.map PaymentAllocation.billId).Nodup)
    (hothers : ∀ a ∈ tables.allocations.rows, a.paymentId ≠ paymentId) :
    tables.insertAllocations rows ≠ none := by
  have hrows : (rows.map fun a => (a.paymentId, a.billId)).Nodup := by
    apply List.Nodup.of_map Prod.snd
    rw [List.map_map]
    exact hbills
  have hunique : ((tables.allocations.rows ++ rows).map fun a => (a.paymentId, a.billId)).Nodup := by
    rw [List.map_append]
    refine List.nodup_append.mpr ⟨tables.allocations.unique, hrows, ?_⟩
    rintro x hx y hy rfl
    obtain ⟨a, ha, rfl⟩ := List.mem_map.mp hx
    obtain ⟨a', ha', hsame⟩ := List.mem_map.mp hy
    apply hothers a ha
    rw [← hid a' ha']
    exact (congrArg Prod.fst hsame).symm
  rw [Tables.insertAllocations, dif_pos hunique]
  exact Option.some_ne_none _

/-- A bill that nothing is put on yet is as it was. -/
theorem untouched_bill {put : List (String × ℤ)} {txn : String → ℤ}
    (h : Midway before paymentId row (tally put) txn tables) (hput : billId ∉ put.map Prod.fst)
    {read : Bill} (hread : tables.bills billId = some read) :
    ∃ bill, before.bills billId = some bill ∧ read.paidPaise = bill.paidPaise ∧
      read.paidTxn = bill.paidTxn + txn billId ∧ read.billed = bill.billed := by
  obtain ⟨bill, hbill, hgrown⟩ := grown_bill h.bills hread
  have hnone : tally put billId = 0 := by
    apply tally_absent
    rintro x hx rfl
    exact hput (List.mem_map_of_mem hx)
  exact ⟨bill, hbill, by simpa [hnone] using hgrown.paid, hgrown.paidTxn, hgrown.billed⟩

/-- Where a payment in rupees has failed: what it leaves. -/
def PayStopped (before : Tables) (call : PaymentCall) (tables : Tables) : PayPhase → Prop
  | .compensate _ => Compensable before call.paymentId call.row tables
  | .raised _ => Stopped before tables (PayGoing before call tables .finished)
  | _ => True

def PayPhase.Compensating : PayPhase → Prop
  | .compensate _ => True
  | _ => False

theorem pay_stopped_next (call : PaymentCall) (rest : List (String × ℤ)) :
    PayStopped before call tables (settleNext call rest) := by
  unfold settleNext
  split
  · trivial
  · split <;> trivial

theorem cleared_room {call : PaymentCall} (h : Cleared before call []) {put rest : List (String × ℤ)}
    (hnamed : call.named = put ++ (billId, amount) :: rest) {bill : Bill}
    (hbill : before.bills billId = some bill) :
    bill.paidPaise + bill.debitedPaise + amount ≤ bill.effectivePayable := by
  have hmember : (billId, amount) ∈ call.named := by simp [hnamed]
  have hgroup : (billId, tally call.named billId) ∈ grouped call.named := by
    rw [grouped_eq]
    exact List.mem_map.mpr ⟨billId, mem_first_keys.mpr ⟨_, hmember, rfl⟩, rfl⟩
  have hpositive : ∀ x ∈ call.named, 0 ≤ x.2 := fun x hx => (named_positive hx).le
  have hput : 0 ≤ tally put billId :=
    tally_nonneg (fun x hx => hpositive x (by rw [hnamed]; exact List.mem_append_left _ hx)) billId
  have hrest : 0 ≤ tally rest billId :=
    tally_nonneg (fun x hx => hpositive x (by simp [hnamed, hx])) billId
  have hall : tally call.named billId = tally put billId + (amount + tally rest billId) := by
    rw [hnamed, tally_append, tally_cons, if_pos rfl]
  rcases h _ hgroup with hnil | hroom
  · cases hnil
  · have := hroom bill hbill
    dsimp only at this
    omega

/-- No bill runs out of room while a payment is put on bills that it names once. -/
theorem pay_stopped (hbefore : before.Conserved) {call : PaymentCall}
    (hfresh : before.payments call.paymentId = none) (hdistinct : (call.named.map Prod.fst).Nodup)
    (phase : PayPhase) (reply : Outcome Failure) (hgoing : PayGoing before call tables phase)
    (h : PayStopped before call tables phase)
    (hearly : Early (payStep call) PayPhase.Compensating before tables phase reply) :
    PayStopped before call (payStep call tables phase reply).1
      (payStep call tables phase reply).2 := by
  have hnext : ∀ t rest, PayStopped before call t (statusChecked call rest) := by
    intro t rest
    unfold statusChecked
    split
    · split <;> trivial
    · trivial
  cases phase with
  | vendor =>
    obtain rfl := hgoing
    cases reply with
    | refused failure | lost failure => exact stopped_refl
    | done =>
      simp only [payStep, reading, opened]
      split
      · exact stopped_refl
      · split
        · exact stopped_refl
        · trivial
  | period =>
    obtain rfl := hgoing
    cases reply with
    | refused failure | lost failure => exact stopped_refl
    | done => exact hnext _ _
  | checkStatus rest =>
    obtain rfl := hgoing
    cases rest with
    | nil => exact hnext _ []
    | cons first rest =>
      cases reply with
      | refused failure | lost failure => exact stopped_refl
      | done =>
        simp only [payStep, reading]
        split
        · exact stopped_refl
        · exact hnext _ rest
  | prevalidate rest =>
    obtain ⟨rfl, -⟩ := hgoing
    have hprevalidated : ∀ rest, PayStopped tables call tables (prevalidated rest) := by
      intro rest
      unfold prevalidated
      split <;> trivial
    cases rest with
    | nil => trivial
    | cons first rest =>
      cases reply with
      | refused failure | lost failure => exact stopped_refl
      | done =>
        simp only [payStep, reading]
        split
        · exact hprevalidated rest
        · split
          · exact stopped_refl
          · exact hprevalidated rest
  | journal =>
    obtain ⟨rfl, -⟩ := hgoing
    cases reply with
    | refused failure | lost failure => exact stopped_refl
    | done => trivial
  | insertPayment =>
    obtain ⟨rfl, -⟩ := hgoing
    cases reply with
    | refused failure => exact ⟨⟨rfl, rfl⟩, rfl, .inl rfl⟩
    | lost failure => exact ⟨⟨rfl, rfl⟩, rfl, .inr rfl⟩
    | done => exact pay_stopped_next call call.named
  | readBill billId amount rest left =>
    obtain ⟨hcleared, put, hnamed, hmid⟩ := hgoing
    cases reply with
    | refused failure | lost failure => exact ⟨(hearly (by simp)).1, hmid.fx, .inr hmid.payments⟩
    | done =>
      simp only [payStep, reading]
      split
      · exact pay_stopped_next call rest
      · rename_i read hread
        split
        · -- what was cleared of it before still holds
          rename_i hover
          have hput : billId ∉ put.map Prod.fst := by
            rw [hnamed, List.map_append, List.map_cons] at hdistinct
            exact fun hmem => (List.nodup_append.mp hdistinct).2.2 _ hmem _ List.mem_cons_self rfl
          obtain ⟨bill, hbill, hpaid, -, hbilled⟩ := untouched_bill hmid hput hread
          have hroom := cleared_room hcleared hnamed hbill
          simp only [Bill.billed, Prod.mk.injEq] at hbilled
          simp only [Bill.effectivePayable, hbilled, hpaid] at hover hroom
          omega
        · trivial
  | writeBill billId amount rest left read =>
    obtain ⟨-, put, -, hmid, hread, -⟩ := hgoing
    cases reply with
    | refused failure => exact ⟨(hearly (by simp)).1, hmid.fx, .inr hmid.payments⟩
    | lost failure =>
      have hunmoved := (hearly (by simp)).1
      simp only [payStep, update_header_read hread] at hunmoved ⊢
      exact ⟨hunmoved, hmid.fx, .inr hmid.payments⟩
    | done =>
      simp only [payStep, update_header_read hread]
      exact pay_stopped_next call rest
  | insertAllocations =>
    cases reply with
    | refused failure => exact ⟨(hearly (by simp)).1, hgoing.fx, .inr hgoing.payments⟩
    | lost failure =>
      have hunmoved := (hearly (by simp)).1
      simp only [payStep] at hunmoved ⊢
      rcases Option.eq_none_or_eq_some (tables.insertAllocations call.rows) with hnone | ⟨t, hsome⟩
      · simp only [hnone, Option.getD_none] at hunmoved ⊢
        exact ⟨hunmoved, hgoing.fx, .inr hgoing.payments⟩
      · obtain ⟨hunique, rfl⟩ := insert_allocations_some hsome
        simp only [hsome, Option.getD_some] at hunmoved ⊢
        exact ⟨hunmoved, hgoing.fx, .inr hgoing.payments⟩
    | done =>
      rcases Option.eq_none_or_eq_some (tables.insertAllocations call.rows) with hnone | ⟨t, hsome⟩
      · -- rows of a new payment meet none
        refine absurd hnone (insert_allocations_fresh call.paymentId ?_ ?_ ?_)
        · intro a ha
          obtain ⟨x, -, rfl⟩ := List.mem_map.mp ha
          rfl
        · simpa [PaymentCall.rows, Function.comp_def] using hdistinct
        · intro a ha
          rw [hgoing.allocations] at ha
          exact not_fresh hbefore hfresh ha
      · simp only [payStep, hsome]
        trivial
  | compensate failure =>
    cases reply with
    | refused failure => exact absurd rfl ((hearly (by simp)).2 trivial failure)
    | done | lost failure => exact compensated hbefore hfresh h
  | finished => trivial
  | raised failure => exact h

/-- Where a foreign payment has failed: what it leaves. -/
def ForeignStopped (before : Tables) (call : ForeignCall) (tables : Tables) : ForeignPhase → Prop
  | .compensate _ => ∃ plan, Compensable before call.paymentId (call.row plan) tables
  | .raised _ => Stopped before tables (ForeignGoing before call tables .finished)
  | _ => True

def ForeignPhase.Compensating : ForeignPhase → Prop
  | .compensate _ => True
  | _ => False

theorem foreign_stopped_record (call : ForeignCall) (plan : List Settled) :
    ForeignStopped before call tables (call.recordFx plan) := by
  unfold ForeignCall.recordFx
  split <;> trivial

theorem foreign_stopped_next (call : ForeignCall) (plan rest : List Settled) :
    ForeignStopped before call tables (call.settleNext plan rest) := by
  unfold ForeignCall.settleNext
  split
  · trivial
  · split
    · exact foreign_stopped_record call plan
    · trivial

theorem foreign_stopped_planned (call : ForeignCall) (plan : List Settled)
    (rest : List AllocationIn) : ForeignStopped before call before (call.planned plan rest) := by
  unfold ForeignCall.planned
  split
  · split
    · exact stopped_refl
    · trivial
  · trivial

/-- What is planned of different bills is of different bills. -/
theorem planned_distinct {call : ForeignCall} {plan : List Settled}
    (hplan : Planned before call [] plan)
    (hdistinct : (call.asked.map AllocationIn.purchaseBillId).Nodup) :
    (plan.map Settled.billId).Nodup := by
  obtain ⟨done, hasked, hparts⟩ := hplan
  rw [List.append_nil] at hasked
  have hids : call.asked.map AllocationIn.purchaseBillId =
      (plan.map Settled.billId).map some := by
    rw [hasked]
    clear hasked
    induction done generalizing plan with
    | nil =>
      obtain rfl : plan = [] := by simpa using hparts.symm
      rfl
    | cons a done ih =>
      cases plan with
      | nil => simp at hparts
      | cons part plan =>
        obtain ⟨hfirst, hrest⟩ := List.cons.inj hparts
        rw [List.map_cons, List.map_cons, List.map_cons, ih hrest, plan_id hfirst]
  rw [hids] at hdistinct
  exact hdistinct.of_map

/-- No bill runs out of room while a foreign payment is put on bills that it names once. -/
theorem foreign_stopped (hbefore : before.Conserved) {call : ForeignCall}
    (hfresh : before.payments call.paymentId = none)
    (hdistinct : (call.asked.map AllocationIn.purchaseBillId).Nodup)
    (phase : ForeignPhase) (reply : Outcome Failure) (hgoing : ForeignGoing before call tables phase)
    (h : ForeignStopped before call tables phase)
    (hearly : Early (foreignStep call) ForeignPhase.Compensating before tables phase reply) :
    ForeignStopped before call (foreignStep call tables phase reply).1
      (foreignStep call tables phase reply).2 := by
  cases phase with
  | vendor | period =>
    obtain rfl := hgoing
    cases reply with
    | refused failure | lost failure => exact stopped_refl
    | done => trivial
  | policy =>
    obtain rfl := hgoing
    cases reply with
    | refused failure | lost failure => exact stopped_refl
    | done =>
      simp only [foreignStep, reading, ForeignCall.priced]
      split
      · exact stopped_refl
      · split
        · exact stopped_refl
        · exact foreign_stopped_planned call [] call.asked
  | plan rest plan =>
    obtain ⟨rfl, -⟩ := hgoing
    cases rest with
    | nil => exact foreign_stopped_planned call plan []
    | cons a rest =>
      cases reply with
      | refused failure | lost failure => exact stopped_refl
      | done =>
        simp only [foreignStep, reading]
        split
        · exact stopped_refl
        · exact foreign_stopped_planned call _ rest
  | journal plan =>
    obtain ⟨rfl, -⟩ := hgoing
    cases reply with
    | refused failure | lost failure => exact stopped_refl
    | done => trivial
  | insertPayment plan =>
    obtain ⟨rfl, -⟩ := hgoing
    cases reply with
    | refused failure => exact ⟨plan, ⟨rfl, rfl⟩, rfl, .inl rfl⟩
    | lost failure => exact ⟨plan, ⟨rfl, rfl⟩, rfl, .inr rfl⟩
    | done => exact foreign_stopped_next call plan plan
  | readBill plan part rest left =>
    obtain ⟨hplanned, put, hplan, hmid⟩ := hgoing
    cases reply with
    | refused failure | lost failure =>
      exact ⟨plan, (hearly (by simp)).1, hmid.fx, .inr hmid.payments⟩
    | done =>
      simp only [foreignStep, reading]
      split
      · exact foreign_stopped_next call plan rest
      · rename_i read hread
        split
        · -- what was planned of it still fits
          rename_i hover
          have hput : part.billId ∉ put.map Settled.billId := by
            have hids := planned_distinct hplanned hdistinct
            rw [hplan, List.map_append, List.map_cons] at hids
            exact fun hmem => (List.nodup_append.mp hids).2.2 _ hmem _ List.mem_cons_self rfl
          have hnone : tally (txnOf put) part.billId = 0 := by
            apply tally_absent
            intro x hx hid
            obtain ⟨other, hother, rfl⟩ := List.mem_map.mp hx
            exact hput (List.mem_map.mpr ⟨other, hother, hid⟩)
          obtain ⟨bill, hbill, -, hpaidTxn, hbilled⟩ :=
            untouched_bill hmid (by simpa [paiseOf, Function.comp_def] using hput) hread
          obtain ⟨a, -, hpart⟩ := planned_part hplanned (by simp [hplan] : part ∈ plan)
          obtain ⟨found, hfound, -, -, hfits, -⟩ := plan_ok hpart
          obtain rfl : bill = found := by simpa [hbill] using hfound
          simp only [Bill.billed, Prod.mk.injEq] at hbilled
          simp only [Bill.foreignOut] at hfits
          simp only [hbilled, hpaidTxn, hnone] at hover
          omega
        · trivial
  | writeBill plan part rest left read =>
    obtain ⟨-, ⟨put, -, hmid⟩, hread, -⟩ := hgoing
    cases reply with
    | refused failure => exact ⟨plan, (hearly (by simp)).1, hmid.fx, .inr hmid.payments⟩
    | lost failure =>
      have hunmoved := (hearly (by simp)).1
      simp only [foreignStep, update_header_read hread] at hunmoved ⊢
      exact ⟨plan, hunmoved, hmid.fx, .inr hmid.payments⟩
    | done =>
      simp only [foreignStep, update_header_read hread]
      exact foreign_stopped_next call plan rest
  | insertAllocations plan =>
    obtain ⟨hplanned, hmid⟩ := hgoing
    cases reply with
    | refused failure => exact ⟨plan, (hearly (by simp)).1, hmid.fx, .inr hmid.payments⟩
    | lost failure =>
      have hunmoved := (hearly (by simp)).1
      simp only [foreignStep] at hunmoved ⊢
      rcases Option.eq_none_or_eq_some (tables.insertAllocations (call.rows plan)) with
        hnone | ⟨t, hsome⟩
      · simp only [hnone, Option.getD_none] at hunmoved ⊢
        exact ⟨plan, hunmoved, hmid.fx, .inr hmid.payments⟩
      · obtain ⟨hunique, rfl⟩ := insert_allocations_some hsome
        simp only [hsome, Option.getD_some] at hunmoved ⊢
        exact ⟨plan, hunmoved, hmid.fx, .inr hmid.payments⟩
    | done =>
      rcases Option.eq_none_or_eq_some (tables.insertAllocations (call.rows plan)) with
        hnone | ⟨t, hsome⟩
      · -- rows of a new payment meet none
        refine absurd hnone (insert_allocations_fresh call.paymentId ?_ ?_ ?_)
        · intro a ha
          obtain ⟨part, -, rfl⟩ := List.mem_map.mp ha
          rfl
        · simpa [ForeignCall.rows, Function.comp_def] using planned_distinct hplanned hdistinct
        · intro a ha
          rw [hmid.allocations] at ha
          exact not_fresh hbefore hfresh ha
      · simp only [foreignStep, hsome]
        exact foreign_stopped_record call plan
  | insertFx plan =>
    obtain ⟨-, hdiff, hrecorded⟩ := hgoing
    -- a difference is of some part, whose allocation is there by now
    have hmoved : ∀ t, t.allocations = tables.allocations → ¬ Unmoved before t := by
      intro t ht hunmoved
      have hrows := hrecorded.allocations
      rw [← ht, hunmoved.allocations, List.self_eq_append_right] at hrows
      obtain rfl : plan = [] := by simpa [ForeignCall.rows] using hrows
      simp [ForeignCall.fxDiff, ForeignCall.settledCashBase, totalApRelieved,
        totalForeignSettled] at hdiff
    cases reply with
    | refused failure => exact absurd (hearly (by simp)).1 (hmoved _ rfl)
    | lost failure => exact absurd (hearly (by simp)).1 (hmoved _ rfl)
    | done => trivial
  | compensate failure =>
    obtain ⟨plan, h⟩ := h
    cases reply with
    | refused failure => exact absurd rfl ((hearly (by simp)).2 trivial failure)
    | done | lost failure => exact compensated hbefore hfresh h
  | readVendor =>
    cases reply with
    | refused failure | lost failure => exact ⟨(hearly (by simp)).1, .inr hgoing⟩
    | done => trivial
  | finished => trivial
  | raised failure => exact h

/-- Where a re-allocation has failed: what it leaves. -/
def UpdateStopped (before : Tables) (call : UpdateCall) (tables : Tables) : UpdatePhase → Prop
  | .raised _ => Stopped before tables (UpdateGoing before call tables .finished)
  | _ => True

theorem update_stopped_next (call : UpdateCall) (amountPaise : ℤ) (side : Side)
    (rest : List (String × ℤ)) :
    UpdateStopped before call tables (call.adjustNext amountPaise side rest) := by
  induction rest with
  | nil =>
    unfold UpdateCall.adjustNext
    cases side with
    | undo => trivial
    | redo =>
      dsimp only
      split <;> trivial
  | cons change rest ih =>
    unfold UpdateCall.adjustNext
    split
    · exact ih
    · trivial

theorem update_stopped_checked (call : UpdateCall) (amountPaise : ℤ)
    (prior : List PaymentAllocation) (rest : List (String × ℤ)) :
    UpdateStopped before call tables (call.checked amountPaise prior rest) := by
  cases rest with
  | nil => exact update_stopped_next call amountPaise .undo _
  | cons first rest => trivial

/-- Every change meets its bill while a payment is allocated anew to bills that are named once. -/
theorem update_stopped {call : UpdateCall} (hdistinct : (call.named.map Prod.fst).Nodup)
    (phase : UpdatePhase) (reply : Outcome Failure) (hgoing : UpdateGoing before call tables phase)
    (h : UpdateStopped before call tables phase)
    (hearly : Early (updateStep call) (fun _ => False) before tables phase reply) :
    UpdateStopped before call (updateStep call tables phase reply).1
      (updateStep call tables phase reply).2 := by
  cases phase with
  | readPayment =>
    obtain rfl := hgoing
    cases reply with
    | refused failure | lost failure => exact stopped_refl
    | done =>
      simp only [updateStep, reading]
      split
      · exact stopped_refl
      · split
        · exact stopped_refl
        · trivial
  | readPrior amountPaise =>
    obtain ⟨rfl, -⟩ := hgoing
    cases reply with
    | refused failure | lost failure => exact stopped_refl
    | done => exact update_stopped_checked call amountPaise _ _
  | check amountPaise prior rest =>
    obtain ⟨rfl, -⟩ := hgoing
    cases rest with
    | nil => exact update_stopped_checked call amountPaise prior []
    | cons first rest =>
      cases reply with
      | refused failure | lost failure => exact stopped_refl
      | done =>
        simp only [updateStep, reading]
        split
        · exact stopped_refl
        · exact update_stopped_checked call amountPaise prior rest
  | adjustRead amountPaise side billId delta rest left =>
    obtain ⟨made, -, hadjusting⟩ := hgoing
    cases reply with
    | refused failure | lost failure =>
      exact ⟨(hearly (by simp)).1, .inl ⟨hadjusting.payments, hadjusting.fx⟩⟩
    | done =>
      simp only [updateStep, reading]
      split
      · exact update_stopped_next call amountPaise side rest
      · trivial
  | adjustWrite amountPaise side billId delta rest left read =>
    obtain ⟨hread, made, -, hadjusting⟩ := hgoing
    cases reply with
    | refused failure => exact ⟨(hearly (by simp)).1, .inl ⟨hadjusting.payments, hadjusting.fx⟩⟩
    | lost failure =>
      have hunmoved := (hearly (by simp)).1
      simp only [updateStep, update_header_read hread] at hunmoved ⊢
      exact ⟨hunmoved, .inl ⟨hadjusting.payments, hadjusting.fx⟩⟩
    | done =>
      simp only [updateStep, update_header_read hread]
      exact update_stopped_next call amountPaise side rest
  | deletePrior amountPaise =>
    cases reply with
    | refused failure | lost failure =>
      exact ⟨(hearly (by simp)).1, .inl ⟨hgoing.payments, hgoing.fx⟩⟩
    | done => exact update_stopped_next call amountPaise .redo call.named
  | insertAllocations amountPaise =>
    cases reply with
    | refused failure => exact ⟨(hearly (by simp)).1, .inl ⟨hgoing.payments, hgoing.fx⟩⟩
    | lost failure =>
      have hunmoved := (hearly (by simp)).1
      simp only [updateStep] at hunmoved ⊢
      rcases Option.eq_none_or_eq_some (tables.insertAllocations call.rows) with hnone | ⟨t, hsome⟩
      · simp only [hnone, Option.getD_none] at hunmoved ⊢
        exact ⟨hunmoved, .inl ⟨hgoing.payments, hgoing.fx⟩⟩
      · obtain ⟨hunique, rfl⟩ := insert_allocations_some hsome
        simp only [hsome, Option.getD_some] at hunmoved ⊢
        exact ⟨hunmoved, .inl ⟨hgoing.payments, hgoing.fx⟩⟩
    | done =>
      rcases Option.eq_none_or_eq_some (tables.insertAllocations call.rows) with hnone | ⟨t, hsome⟩
      · -- the payment's earlier rows are deleted by now
        refine absurd hnone (insert_allocations_fresh call.paymentId ?_ ?_ ?_)
        · intro a ha
          obtain ⟨x, -, rfl⟩ := List.mem_map.mp ha
          rfl
        · simpa [UpdateCall.rows, Function.comp_def] using hdistinct
        · intro a ha
          rw [hgoing.allocations] at ha
          simpa using (List.mem_filter.mp ha).2
      · simp only [updateStep, hsome]
        trivial
  | writePayment amountPaise =>
    obtain ⟨hpayments, hreallocated⟩ := hgoing
    cases reply with
    | refused failure => exact ⟨(hearly (by simp)).1, .inl ⟨hpayments, hreallocated.fx⟩⟩
    | lost failure =>
      refine ⟨(hearly (by simp)).1, .inr ⟨amountPaise, ?_, ?_⟩⟩
      · simp only [updateStep, Tables.writeUnallocated, hpayments]
      · obtain ⟨hamount, hbills, hrupees, hforeign, hallocations, hfx⟩ := hreallocated
        exact ⟨hamount, hbills, hrupees, hforeign, hallocations, hfx⟩
    | done => trivial
  | finished => trivial
  | raised failure => exact h

/-! ### Calls one after another -/

theorem paid_conserved (hbefore : before.Conserved) {call : PaymentCall}
    (hfresh : before.payments call.paymentId = none)
    (htotal : call.totalAllocated = (call.named.map Prod.snd).sum)
    (h : PayGoing before call tables .finished) : tables.Conserved := by
  refine recorded_conserved hbefore hfresh h ?_ ?_ (by simp) ?_ ?_ ?_
  · intro a ha
    obtain ⟨x, -, rfl⟩ := List.mem_map.mp ha
    rfl
  · intro a ha
    obtain ⟨x, hx, rfl⟩ := List.mem_map.mp ha
    exact (named_positive hx).le
  · intro b
    simp [PaymentCall.rows, Function.comp_def]
  · intro b
    refine (tally_zero (fun p hp => ?_) b).symm
    obtain ⟨a, ha, rfl⟩ := List.mem_map.mp hp
    obtain ⟨x, -, rfl⟩ := List.mem_map.mp ha
    rfl
  · simp [PaymentCall.rows, PaymentCall.row, PaymentCall.unallocatedPaise, Function.comp_def, htotal]

theorem paid_foreign_conserved (hbefore : before.Conserved) {call : ForeignCall}
    (hfresh : before.payments call.paymentId = none)
    (hrelieved : ∀ a ∈ call.asked, ∀ part, call.plan a before.bills = .ok part → 0 ≤ part.apRelieved)
    (h : ForeignGoing before call tables .finished) : tables.Conserved := by
  obtain ⟨plan, hplanned, hrecorded⟩ := h
  have hfx : ((call.fxRows plan).map FxAdjustment.baseDeltaPaise).sum = call.fxDiff plan := by
    unfold ForeignCall.fxRows
    split
    · simp
    · rename_i hdiff
      simpa using (not_not.mp hdiff).symm
  refine recorded_conserved hbefore hfresh hrecorded ?_ ?_ ?_ ?_ ?_ ?_
  · intro a ha
    obtain ⟨part, -, rfl⟩ := List.mem_map.mp ha
    rfl
  · intro a ha
    obtain ⟨part, hpart, rfl⟩ := List.mem_map.mp ha
    obtain ⟨asked, hasked, hplan⟩ := planned_part hplanned hpart
    exact hrelieved asked hasked part hplan
  · intro f hf
    unfold ForeignCall.fxRows at hf
    split at hf
    · rw [List.mem_singleton.mp hf]
    · cases hf
  · intro b
    simp [ForeignCall.rows, paiseOf, Function.comp_def]
  · intro b
    simp [ForeignCall.rows, txnOf, Function.comp_def]
  · rw [hfx]
    simp only [ForeignCall.rows, ForeignCall.row, ForeignCall.unallocBase, ForeignCall.fxDiff,
      List.map_map, totalApRelieved, Function.comp_def]
    ring

/-- A call that left things as they were, or did all it had to, kept the books. -/
theorem stopped_conserved (hbefore : before.Conserved) {done : Prop}
    (hdone : done → tables.Conserved) (h : Stopped before tables done) : tables.Conserved := by
  obtain ⟨⟨hbills, hallocations⟩, ⟨hpayments, hfx⟩ | h⟩ := h
  · refine ⟨?_, ?_, ?_, ?_, ?_, ?_, ?_⟩ <;>
      simp only [Tables.allocatedOf, Tables.fxOf, Tables.allocatedTo, Tables.allocatedTxnTo,
        Tables.RupeesWithin, Tables.ForeignWithin, hbills, hallocations, hpayments, hfx]
    · exact hbefore.payments
    · exact hbefore.bills
    · exact hbefore.rupees
    · exact hbefore.foreign
    · exact hbefore.nonneg
    · exact hbefore.owned
    · exact hbefore.fxOwned
  · exact hdone h

/-- What has become of a call. -/
inductive Ending where
  | running
  | returned
  | raised (failure : Failure)
  deriving DecidableEq

def PayPhase.ending : PayPhase → Ending
  | .finished => .returned
  | .raised failure => .raised failure
  | _ => .running

def ForeignPhase.ending : ForeignPhase → Ending
  | .finished => .returned
  | .raised failure => .raised failure
  | _ => .running

def UpdatePhase.ending : UpdatePhase → Ending
  | .finished => .returned
  | .raised failure => .raised failure
  | _ => .running

theorem pay_finished {phase : PayPhase} (h : phase.ending = .returned) : phase = .finished := by
  cases phase <;> simp [PayPhase.ending] at h ⊢

theorem pay_raised {failure : Failure} {phase : PayPhase} (h : phase.ending = .raised failure) :
    phase = .raised failure := by
  cases phase <;> simp_all [PayPhase.ending]

theorem foreign_finished {phase : ForeignPhase} (h : phase.ending = .returned) : phase = .finished := by
  cases phase <;> simp [ForeignPhase.ending] at h ⊢

theorem foreign_raised {failure : Failure} {phase : ForeignPhase} (h : phase.ending = .raised failure) :
    phase = .raised failure := by
  cases phase <;> simp_all [ForeignPhase.ending]

theorem update_finished {phase : UpdatePhase} (h : phase.ending = .returned) : phase = .finished := by
  cases phase <;> simp [UpdatePhase.ending] at h ⊢

theorem update_raised {failure : Failure} {phase : UpdatePhase} (h : phase.ending = .raised failure) :
    phase = .raised failure := by
  cases phase <;> simp_all [UpdatePhase.ending]

/-- A call that runs alone, a statement for each reply. -/
def Request.perform (request : Request) (tables : Tables) (replies : List (Outcome Failure)) :
    Tables × Ending :=
  match request with
  | .createPayment call =>
    let s := solo (payStep call) (tables, .vendor) replies
    (s.1, s.2.ending)
  | .createForeignPayment call =>
    let s := solo (foreignStep call) (tables, .vendor) replies
    (s.1, s.2.ending)
  | .updateAllocations call =>
    let s := solo (updateStep call) (tables, .readPayment) replies
    (s.1, s.2.ending)

/-- The id of a new payment is a new one, all that is allocated is allocated to some bill, no part of
a foreign payment takes less than nothing off its bill, and what is allocated anew was paid in
rupees. -/
def Request.Admitted (tables : Tables) : Request → Prop
  | .createPayment call =>
    tables.payments call.paymentId = none ∧
      call.totalAllocated = (call.named.map Prod.snd).sum
  | .createForeignPayment call =>
    tables.payments call.paymentId = none ∧
      ∀ a ∈ call.asked, ∀ part, call.plan a tables.bills = .ok part → 0 ≤ part.apRelieved
  | .updateAllocations call =>
    tables.InRupees call.paymentId ∧ call.totalRequested = (call.named.map Prod.snd).sum

/-- No bill is named twice. -/
def Request.Distinct : Request → Prop
  | .createPayment call => (call.named.map Prod.fst).Nodup
  | .createForeignPayment call => (call.asked.map AllocationIn.purchaseBillId).Nodup
  | .updateAllocations call => (call.named.map Prod.fst).Nodup

/-- What fails in a call fails before it has changed a bill or an allocation. -/
def Request.FailsEarly (request : Request) (tables : Tables) (replies : List (Outcome Failure)) :
    Prop :=
  match request with
  | .createPayment call =>
    SoloAlong (payStep call) (Early (payStep call) PayPhase.Compensating tables) (tables, .vendor)
      replies
  | .createForeignPayment call =>
    SoloAlong (foreignStep call) (Early (foreignStep call) ForeignPhase.Compensating tables)
      (tables, .vendor) replies
  | .updateAllocations call =>
    SoloAlong (updateStep call) (Early (updateStep call) (fun _ => False) tables)
      (tables, .readPayment) replies

theorem pay_ended (hbefore : before.Conserved) (replies : List (Outcome Failure))
    (call : PaymentCall) :
    PayGoing before call (solo (payStep call) (before, .vendor) replies).1
      (solo (payStep call) (before, .vendor) replies).2 :=
  solo_keeps (PayGoing before call) (fun s p r h _ => pay_going hbefore s p r h) replies rfl
    (solo_along_of_all (fun _ _ _ => trivial) _ _)

theorem foreign_ended (hbefore : before.Conserved) (replies : List (Outcome Failure))
    (call : ForeignCall) :
    ForeignGoing before call (solo (foreignStep call) (before, .vendor) replies).1
      (solo (foreignStep call) (before, .vendor) replies).2 :=
  solo_keeps (ForeignGoing before call) (fun s p r h _ => foreign_going hbefore s p r h) replies rfl
    (solo_along_of_all (fun _ _ _ => trivial) _ _)

theorem update_ended (hbefore : before.Conserved) (replies : List (Outcome Failure))
    (call : UpdateCall) :
    UpdateGoing before call (solo (updateStep call) (before, .readPayment) replies).1
      (solo (updateStep call) (before, .readPayment) replies).2 :=
  solo_keeps (UpdateGoing before call) (fun s p r h _ => update_going hbefore s p r h) replies rfl
    (solo_along_of_all (fun _ _ _ => trivial) _ _)

/-- A call that returns keeps the books. -/
theorem returned_conserved (hbefore : before.Conserved) {request : Request}
    (hadmitted : request.Admitted before) (replies : List (Outcome Failure))
    (h : (request.perform before replies).2 = .returned) :
    (request.perform before replies).1.Conserved := by
  cases request with
  | createPayment call =>
    have hgoing := pay_ended hbefore replies call
    rw [pay_finished h] at hgoing
    exact paid_conserved hbefore hadmitted.1 hadmitted.2 hgoing
  | createForeignPayment call =>
    have hgoing := foreign_ended hbefore replies call
    rw [foreign_finished h] at hgoing
    exact paid_foreign_conserved hbefore hadmitted.1 hadmitted.2 hgoing
  | updateAllocations call =>
    have hgoing := update_ended hbefore replies call
    rw [update_finished h] at hgoing
    obtain ⟨amountPaise, hpayments, hreallocated⟩ := hgoing
    exact reallocated_conserved hbefore hadmitted.1 hadmitted.2 hreallocated hpayments

/-- A call that raises, having failed early if a statement failed, leaves the bills and the
allocations as they were, and keeps the books. -/
theorem raised_unmoved {failure : Failure} (hbefore : before.Conserved) {request : Request}
    (hadmitted : request.Admitted before) (hdistinct : request.Distinct)
    (replies : List (Outcome Failure)) (hearly : request.FailsEarly before replies)
    (h : (request.perform before replies).2 = .raised failure) :
    Unmoved before (request.perform before replies).1 ∧
      (request.perform before replies).1.Conserved := by
  cases request with
  | createPayment call =>
    have hstopped := solo_keeps
      (fun s p => PayGoing before call s p ∧ PayStopped before call s p)
      (fun s p r hs hok => ⟨pay_going hbefore s p r hs.1,
        pay_stopped hbefore hadmitted.1 hdistinct p r hs.1 hs.2 hok⟩)
      (s := (before, .vendor)) replies ⟨rfl, trivial⟩ hearly
    rw [pay_raised h] at hstopped
    exact ⟨hstopped.2.1, stopped_conserved hbefore
      (paid_conserved hbefore hadmitted.1 hadmitted.2) hstopped.2⟩
  | createForeignPayment call =>
    have hstopped := solo_keeps
      (fun s p => ForeignGoing before call s p ∧ ForeignStopped before call s p)
      (fun s p r hs hok => ⟨foreign_going hbefore s p r hs.1,
        foreign_stopped hbefore hadmitted.1 hdistinct p r hs.1 hs.2 hok⟩)
      (s := (before, .vendor)) replies ⟨rfl, trivial⟩ hearly
    rw [foreign_raised h] at hstopped
    exact ⟨hstopped.2.1, stopped_conserved hbefore
      (paid_foreign_conserved hbefore hadmitted.1 hadmitted.2) hstopped.2⟩
  | updateAllocations call =>
    have hstopped := solo_keeps
      (fun s p => UpdateGoing before call s p ∧ UpdateStopped before call s p)
      (fun s p r hs hok => ⟨update_going hbefore s p r hs.1,
        update_stopped hdistinct p r hs.1 hs.2 hok⟩)
      (s := (before, .readPayment)) replies ⟨rfl, trivial⟩ hearly
    rw [update_raised h] at hstopped
    refine ⟨hstopped.2.1, stopped_conserved hbefore (fun hdone => ?_) hstopped.2⟩
    obtain ⟨amountPaise, hpayments, hreallocated⟩ := hdone
    exact reallocated_conserved hbefore hadmitted.1 hadmitted.2 hreallocated hpayments

/-- The tables that calls come to, one after another, that return or fail early. -/
inductive Reached (start : Tables) : Tables → Prop
  | start : Reached start start
  | returned {before : Tables} {request : Request} {replies : List (Outcome Failure)} :
    Reached start before → request.Admitted before →
    (request.perform before replies).2 = .returned →
    Reached start (request.perform before replies).1
  | raised {before : Tables} {request : Request} {replies : List (Outcome Failure)}
      {failure : Failure} :
    Reached start before → request.Admitted before → request.Distinct →
    request.FailsEarly before replies →
    (request.perform before replies).2 = .raised failure →
    Reached start (request.perform before replies).1

/-- However payments are recorded and allocated anew, one call after another, the books are kept, and
a call that raises early leaves every bill and every allocation as it was. -/
theorem payments_conserved {start : Tables} (hstart : start.Conserved)
    (hreached : Reached start tables) :
    tables.Conserved ∧ ∀ (request : Request) (replies : List (Outcome Failure)) (failure : Failure),
      request.Admitted tables → request.Distinct → request.FailsEarly tables replies →
      (request.perform tables replies).2 = .raised failure →
      Unmoved tables (request.perform tables replies).1 := by
  have hconserved : tables.Conserved := by
    induction hreached with
    | start => exact hstart
    | returned _ hadmitted hreturned ih => exact returned_conserved ih hadmitted _ hreturned
    | raised _ hadmitted hdistinct hearly hraised ih =>
      exact (raised_unmoved ih hadmitted hdistinct _ hearly hraised).2
  refine ⟨hconserved, fun request replies failure hadmitted hdistinct hearly hraised => ?_⟩
  exact (raised_unmoved hconserved hadmitted hdistinct replies hearly hraised).1

end

/-- Bills that nothing is paid on, in books with no payments. -/
def unpaid (bill : Bill) : Tables where
  bills := fun id => if id = "timber" then some bill else none
  payments := fun _ => none
  allocations := .empty
  fxAdjustments := []
  notes := .empty
  noteAllocations := .empty

theorem unpaid_conserved {bill : Bill} (hpaid : bill.paidPaise = 0) (hpaidTxn : bill.paidTxn = 0)
    (hwithin : bill.Within) (hforeign : 0 ≤ bill.txnNetPayable) : (unpaid bill).Conserved := by
  have hbill : ∀ b found, (unpaid bill).bills b = some found → bill = found := by
    intro b found hfound
    simp only [unpaid] at hfound
    split at hfound
    · exact Option.some.inj hfound
    · cases hfound
  refine ⟨by simp [unpaid], fun b found hfound => ?_, fun b found hfound _ => ?_,
    fun b found hfound _ => ?_, by simp [unpaid], by simp [unpaid], by simp [unpaid]⟩
  · obtain rfl := hbill b found hfound
    exact ⟨hpaid, hpaidTxn⟩
  · obtain rfl := hbill b found hfound
    exact hwithin
  · obtain rfl := hbill b found hfound
    rw [hpaidTxn]
    exact hforeign

def paymentOf (paymentId : String) (amount : ℤ) : Request :=
  .createPayment ⟨paymentId, amount, [⟨some "timber", amount⟩]⟩

/-- Six rupees of ten are paid. -/
def partPaid : Tables := ((paymentOf "VPMT-1" 600).perform (unpaid timber) (List.replicate 9 .done)).1

/-- The payment keeps the books. -/
theorem part_paid : partPaid.Conserved ∧
    ∀ (request : Request) (replies : List (Outcome Failure)) (failure : Failure),
      request.Admitted partPaid → request.Distinct → request.FailsEarly partPaid replies →
      (request.perform partPaid replies).2 = .raised failure →
      Unmoved partPaid (request.perform partPaid replies).1 := by
  have hwithin : timber.Within := by
    unfold Bill.Within
    decide
  have hstart : (unpaid timber).Conserved := unpaid_conserved rfl rfl hwithin le_rfl
  exact payments_conserved hstart (.returned .start ⟨rfl, by decide⟩ (by decide +kernel))

/-- Cloth for a hundred dollars, booked at eighty rupees. -/
def cloth : Bill :=
  { timber with
    netPayablePaise := 800000
    txnCurrency := "USD"
    exchangeRate := 80
    txnNetPayable := 10000 }

/-- The hundred dollars are paid at eighty-two. -/
def dollars : ForeignCall :=
  ⟨"VPMT-1", "USD", by decide, 2, 82, 10000, [⟨some "timber", 10000⟩]⟩

/-- What the payment has allocated, and what it has not, are not its amount. -/
theorem dollars_short :
    (unpaid cloth).Conserved ∧ (Request.createForeignPayment dollars).Admitted (unpaid cloth) ∧
      ∃ t row, t = (Request.createForeignPayment dollars).perform (unpaid cloth)
          (List.replicate 11 .done) ∧
        t.2 = .returned ∧ t.1.payments "VPMT-1" = some row ∧
        t.1.allocatedOf "VPMT-1" + row.unallocatedPaise ≠ row.amountPaise := by
  have hwithin : cloth.Within := by
    unfold Bill.Within
    decide
  refine ⟨unpaid_conserved rfl rfl hwithin (by decide), ⟨rfl, ?_⟩, _, ⟨820000, 0⟩, rfl,
    by decide +kernel, by decide +kernel, by decide +kernel⟩
  intro a ha part hpart
  obtain rfl : a = ⟨some "timber", 10000⟩ := by simpa [ForeignCall.asked, dollars] using ha
  have hplan : dollars.plan ⟨some "timber", 10000⟩ (unpaid cloth).bills =
      .ok ⟨"timber", 10000, 800000⟩ := by
    decide +kernel
  rw [hplan] at hpart
  obtain rfl := Except.ok.inj hpart
  decide

end Caflow.Settlement.Payables
