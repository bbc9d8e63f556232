import Caflow.Payments.Webhooks

namespace Caflow.Payments
open Interleaving Interrupted Limits

/-- A payment but for how it stands. -/
def Payment.fixed (payment : Payment) : Payment :=
  { payment with status := .capturing, receiptId := none }

/-- A payment that a delivery has claimed and not yet sealed. -/
def Store.claimed (store : Store) (id : ℕ) : Bool :=
  (store.payments[id]?).any fun payment => payment.status = .capturing ∧ payment.receiptId = none

def Unsettled (store : Store) (id : ℕ) : Prop := id ∉ store.receipts.map Receipt.payment

/-- A receipt is of a verified capture of its payment, and settles it. -/
def Backed (payments : List Payment) (x : Receipt) : Prop :=
  ∃ p : Payment, payments[x.payment]? = some p ∧ x.event.signatureVerified = true ∧
    x.event.status = .captured ∧ p.provider = x.event.provider ∧
    p.providerPaymentId = x.event.providerPaymentId ∧
    ∃ invoice, x.data = settlement p x.payment invoice

structure Consistent (store : Store) : Prop where
  unique : ∀ (i j : ℕ) (p q : Payment), store.payments[i]? = some p →
    store.payments[j]? = some q →
    p.provider = q.provider → p.providerPaymentId = q.providerPaymentId →
    p.providerPaymentId ≠ none → i = j
  one : (store.receipts.map Receipt.payment).Nodup
  sealed : ∀ (id : ℕ) (p : Payment) (r : ℕ), store.payments[id]? = some p → p.receiptId = some r →
    (store.receipts[r]?).map Receipt.payment = some id
  free : ∀ (id : ℕ) (p : Payment), store.payments[id]? = some p → p.Claimable →
    Unsettled store id
  backed : ∀ x ∈ store.receipts, Backed store.payments x

/-- The payment a delivery is settling. -/
def Phase.holds : Phase → Option ℕ
  | .settling _ id => some id
  | .receipting _ id _ => some id
  | .reverting id => some id
  | .sealing _ id _ => some id
  | _ => none

/-- What a delivery has read of its payment is so, but for how it stands. -/
def Reads (store : Store) (event : VerifiedEvent) (payment : Payment) (id : ℕ) : Prop :=
  payment.provider = event.provider ∧ payment.providerPaymentId = event.providerPaymentId ∧
    ∃ row : Payment, store.payments[id]? = some row ∧ row.fixed = payment.fixed

/-- What holds of a delivery where it stands. -/
def Standing (event : VerifiedEvent) (store : Store) : Phase → Prop
  | .received => True
  | .noting (some known) => event.signatureVerified = true ∧ Reads store event known.1 known.2
  | .applying payment id => event.signatureVerified = true ∧ Reads store event payment id
  | .settling payment id => event.signatureVerified = true ∧ Reads store event payment id ∧
      event.status = .captured ∧ store.claimed id = true ∧ Unsettled store id
  | .receipting payment id data => event.signatureVerified = true ∧ Reads store event payment id ∧
      event.status = .captured ∧ store.claimed id = true ∧ Unsettled store id ∧
      ∃ invoice, data = settlement payment id invoice
  | .reverting id => store.claimed id = true ∧ Unsettled store id
  | .sealing _ id receipt => store.claimed id = true ∧
      (store.receipts[receipt]?).map Receipt.payment = some id
  | .paying _ _ => True
  | .answered _ => True
  | .raised => True
  | _ => event.signatureVerified = true

structure Sound (calls : ι → Call) (w : World ι Store Phase) : Prop where
  consistent : Consistent w.store
  standing : ∀ i, Standing (calls i).event w.store (w.phase i)
  alone : ∀ i j id, (w.phase i).holds = some id → (w.phase j).holds = some id → i = j

/-- A statement of a calm run: no other status meets a payment while it is being settled, and a
settlement that raises has left no receipt. -/
def calm (calls : ι → Call) (w : World ι Store Phase) (i : ι) (r : Reply) : Bool :=
  match w.phase i with
  | .applying payment id => settles (calls i).event payment || !w.store.claimed id
  | .receipting _ _ _ =>
    match r.written with
    | .lost _ => false
    | _ => true
  | _ => true

/-- Rows are kept, but for how they stand. -/
def Extends (before after : Store) : Prop :=
  ∀ (id : ℕ) (row : Payment), before.payments[id]? = some row →
    ∃ row' : Payment, after.payments[id]? = some row' ∧ row'.fixed = row.fixed

/-- Of a payment, nothing has changed. -/
structure Untouched (before after : Store) (id : ℕ) : Prop where
  row : ∀ row, before.payments[id]? = some row → after.payments[id]? = some row
  unsettled : Unsettled before id → Unsettled after id
  receipt : ∀ r : ℕ, (before.receipts[r]?).map Receipt.payment = some id →
    (after.receipts[r]?).map Receipt.payment = some id

section
variable {store before after : Store} {event : VerifiedEvent} {payment : Payment} {id : ℕ}
  {f : Payment → Payment} {phase : Phase}

theorem settlement_fixed {p q : Payment} (h : p.fixed = q.fixed) (id : ℕ)
    (invoice : Option InvoiceFigures) : settlement p id invoice = settlement q id invoice := by
  cases p
  cases q
  simp only [Payment.fixed, Payment.mk.injEq, true_and, and_true] at h
  obtain ⟨rfl, rfl, rfl, rfl, rfl, rfl⟩ := h
  rfl

theorem fixed_key {p q : Payment} (h : p.fixed = q.fixed) :
    p.provider = q.provider ∧ p.providerPaymentId = q.providerPaymentId := by
  have hprovider : p.fixed.provider = q.fixed.provider := by rw [h]
  have hid : p.fixed.providerPaymentId = q.fixed.providerPaymentId := by rw [h]
  exact ⟨hprovider, hid⟩

theorem claimed_iff : store.claimed id = true ↔
    ∃ row : Payment, store.payments[id]? = some row ∧ row.status = .capturing ∧
      row.receiptId = none := by
  unfold Store.claimed
  simp [Option.any_eq_true]

theorem Extends.refl_of (h : after.payments = before.payments) : Extends before after :=
  fun id row hrow => ⟨row, by rw [h]; exact hrow, rfl⟩

theorem Untouched.refl_of (hpayments : after.payments = before.payments)
    (hreceipts : after.receipts = before.receipts) (id : ℕ) : Untouched before after id where
  row := fun row hrow => by rw [hpayments]; exact hrow
  unsettled := fun h => by unfold Unsettled; rw [hreceipts]; exact h
  receipt := fun r h => by rw [hreceipts]; exact h

theorem Untouched.claimed (h : Untouched before after id) (hclaimed : before.claimed id = true) :
    after.claimed id = true := by
  obtain ⟨row, hrow, hstatus⟩ := claimed_iff.mp hclaimed
  exact claimed_iff.mpr ⟨row, h.row row hrow, hstatus⟩

theorem Reads.kept (h : Reads before event payment id) (hext : Extends before after) :
    Reads after event payment id := by
  obtain ⟨hprovider, hid, row, hrow, hfixed⟩ := h
  obtain ⟨row', hrow', hsame⟩ := hext id row hrow
  exact ⟨hprovider, hid, row', hrow', hsame.trans hfixed⟩

theorem Backed.kept {x : Receipt} (h : Backed before.payments x) (hext : Extends before after) :
    Backed after.payments x := by
  obtain ⟨p, hp, hverified, hcaptured, hprovider, hid, invoice, hdata⟩ := h
  obtain ⟨p', hp', hfixed⟩ := hext x.payment p hp
  obtain ⟨hprovider', hid'⟩ := fixed_key hfixed
  exact ⟨p', hp', hverified, hcaptured, hprovider'.trans hprovider, hid'.trans hid, invoice,
    hdata.trans (settlement_fixed hfixed.symm _ _)⟩

/-- A delivery stands where it stood while others change other payments. -/
theorem Standing.kept (h : Standing event before phase) (hext : Extends before after)
    (hframe : ∀ id, phase.holds = some id → Untouched before after id) :
    Standing event after phase := by
  cases phase with
  | noting known =>
    cases known with
    | none => exact h
    | some known => exact ⟨h.1, h.2.kept hext⟩
  | applying payment id => exact ⟨h.1, h.2.kept hext⟩
  | settling payment id =>
    obtain ⟨hverified, hreads, hcaptured, hclaimed, hunsettled⟩ := h
    have hsame := hframe id rfl
    exact ⟨hverified, hreads.kept hext, hcaptured, hsame.claimed hclaimed,
      hsame.unsettled hunsettled⟩
  | receipting payment id data =>
    obtain ⟨hverified, hreads, hcaptured, hclaimed, hunsettled, hdata⟩ := h
    have hsame := hframe id rfl
    exact ⟨hverified, hreads.kept hext, hcaptured, hsame.claimed hclaimed,
      hsame.unsettled hunsettled, hdata⟩
  | reverting id =>
    have hsame := hframe id rfl
    exact ⟨hsame.claimed h.1, hsame.unsettled h.2⟩
  | sealing payment id receipt =>
    have hsame := hframe id rfl
    exact ⟨hsame.claimed h.1, hsame.receipt receipt h.2⟩
  | received => trivial
  | verified => exact h
  | correlating => exact h
  | linking => exact h
  | ordering => exact h
  | opening link => exact h
  | paying payment id => trivial
  | answered answer => trivial
  | raised => trivial

theorem get_update (store : Store) (id : ℕ) (f : Payment → Payment) (id' : ℕ) :
    (store.update id f).payments[id']? =
      if id = id' then (store.payments[id']?).map f else store.payments[id']? := by
  change (store.payments.modify id f)[id']? = _
  rw [List.getElem?_modify]
  split
  · rfl
  · exact congrFun Option.map_id _

theorem update_extends (store : Store) (id : ℕ) (hf : ∀ p, (f p).fixed = p.fixed) :
    Extends store (store.update id f) := by
  intro id' row hrow
  rw [get_update]
  split
  · exact ⟨f row, by rw [hrow]; rfl, hf row⟩
  · exact ⟨row, hrow, rfl⟩

theorem update_untouched (store : Store) (f : Payment → Payment) {id id' : ℕ} (hne : id' ≠ id) :
    Untouched store (store.update id f) id' where
  row := fun row hrow => by
    rw [get_update, if_neg (Ne.symm hne)]
    exact hrow
  unsettled := fun h => h
  receipt := fun _ h => h

theorem Consistent.quiet (h : Consistent before) (hpayments : after.payments = before.payments)
    (hreceipts : after.receipts = before.receipts) : Consistent after := by
  cases before
  cases after
  subst hpayments hreceipts
  exact ⟨h.unique, h.one, h.sealed, h.free, h.backed⟩

/-- A payment may stand otherwise, if its seal is of its own receipt, and it is free for a claim
only without one. -/
theorem Consistent.update (h : Consistent store) (hf : ∀ p, (f p).fixed = p.fixed)
    (hsealed : ∀ row r, store.payments[id]? = some row → (f row).receiptId = some r →
      (store.receipts[r]?).map Receipt.payment = some id)
    (hfree : ∀ row, store.payments[id]? = some row → (f row).Claimable → Unsettled store id) :
    Consistent (store.update id f) := by
  have hext := update_extends store id hf
  have hback (i : ℕ) (p : Payment) (hp : (store.update id f).payments[i]? = some p) :
      ∃ q : Payment, store.payments[i]? = some q ∧ p.fixed = q.fixed := by
    rw [get_update] at hp
    split at hp
    · obtain ⟨q, hq, rfl⟩ := Option.map_eq_some_iff.mp hp
      exact ⟨q, hq, hf q⟩
    · exact ⟨p, hp, rfl⟩
  refine ⟨fun i j p q hp hq hprovider hid hsome => ?_, h.one, fun i p r hp hr => ?_,
    fun i p hp hclaimable => ?_, fun x hx => (h.backed x hx).kept hext⟩
  · obtain ⟨p', hp', hsame⟩ := hback i p hp
    obtain ⟨q', hq', hsame'⟩ := hback j q hq
    obtain ⟨hprovider₁, hid₁⟩ := fixed_key hsame
    obtain ⟨hprovider₂, hid₂⟩ := fixed_key hsame'
    refine h.unique i j p' q' hp' hq' ?_ ?_ ?_
    · rw [← hprovider₁, ← hprovider₂, hprovider]
    · rw [← hid₁, ← hid₂, hid]
    · rw [← hid₁]
      exact hsome
  · rw [get_update] at hp
    split at hp
    · rename_i hsame
      subst hsame
      obtain ⟨q, hq, rfl⟩ := Option.map_eq_some_iff.mp hp
      exact hsealed q r hq hr
    · exact h.sealed i p r hp hr
  · rw [get_update] at hp
    split at hp
    · rename_i hsame
      subst hsame
      obtain ⟨q, hq, rfl⟩ := Option.map_eq_some_iff.mp hp
      exact hfree q hq hclaimable
    · exact h.free i p hp hclaimable

/-- A payment that a link's first event opens has no receipt. -/
theorem Consistent.opened (h : Consistent store) (hadmits : store.admits payment)
    (hreceipt : payment.receiptId = none) :
    Consistent { store with payments := store.payments ++ [payment] } := by
  obtain ⟨-, hnew⟩ := hadmits
  have hext : Extends store { store with payments := store.payments ++ [payment] } := by
    intro id row hrow
    exact ⟨row, (List.getElem?_append_left (List.getElem?_eq_some_iff.mp hrow).1).trans hrow, rfl⟩
  have hcases (i : ℕ) (p : Payment) (hp : (store.payments ++ [payment])[i]? = some p) :
      store.payments[i]? = some p ∨ i = store.payments.length ∧ p = payment := by
    rcases Nat.lt_or_ge i store.payments.length with hlt | hge
    · rw [List.getElem?_append_left hlt] at hp
      exact .inl hp
    · rw [List.getElem?_append_right hge, List.getElem?_singleton] at hp
      split at hp
      · exact .inr ⟨by omega, (Option.some.inj hp).symm⟩
      · cases hp
  refine ⟨fun i j p q hp hq hprovider hid hsome => ?_, h.one, fun i p r hp hr => ?_,
    fun i p hp hclaimable => ?_, fun x hx => (h.backed x hx).kept hext⟩
  · rcases hcases i p hp with hold | ⟨rfl, rfl⟩ <;>
      rcases hcases j q hq with hold' | ⟨rfl, rfl⟩
    · exact h.unique i j p q hold hold' hprovider hid hsome
    · rw [hid] at hsome
      exact absurd hid (hnew hsome p (List.mem_of_getElem? hold) hprovider)
    · exact absurd hid.symm (hnew hsome q (List.mem_of_getElem? hold') hprovider.symm)
    · rfl
  · rcases hcases i p hp with hp | ⟨-, rfl⟩
    · exact h.sealed i p r hp hr
    · rw [hreceipt] at hr
      cases hr
  · rcases hcases i p hp with hp | ⟨rfl, -⟩
    · exact h.free i p hp hclaimable
    · intro hmem
      obtain ⟨x, hx, hpayment⟩ := List.mem_map.mp hmem
      obtain ⟨row, hrow, -⟩ := h.backed x hx
      rw [hpayment, List.getElem?_eq_none le_rfl] at hrow
      cases hrow

theorem receipts_append (store : Store) (x : Receipt) (r : ℕ) (id : ℕ)
    (h : (store.receipts[r]?).map Receipt.payment = some id) :
    ((store.receipts ++ [x])[r]?).map Receipt.payment = some id := by
  obtain ⟨y, hy, rfl⟩ := Option.map_eq_some_iff.mp h
  rw [List.getElem?_append_left (List.getElem?_eq_some_iff.mp hy).1, hy]
  rfl

/-- A claimed payment is settled. -/
theorem Consistent.made (h : Consistent store) {x : Receipt} (hbacked : Backed store.payments x)
    (hclaimed : store.claimed x.payment = true) (hunsettled : Unsettled store x.payment) :
    Consistent { store with receipts := store.receipts ++ [x] } := by
  refine ⟨h.unique, ?_, fun i p r hp hr => receipts_append store x r i (h.sealed i p r hp hr),
    fun i p hp hclaimable => ?_, fun y hy => ?_⟩
  · rw [List.map_append, List.map_singleton]
    refine List.nodup_append.mpr ⟨h.one, List.nodup_singleton _, fun a ha b hb => ?_⟩
    rw [List.mem_singleton.mp hb]
    rintro rfl
    exact hunsettled ha
  · intro hmem
    rw [List.map_append, List.mem_append] at hmem
    rcases hmem with hmem | hmem
    · exact h.free i p hp hclaimable hmem
    · rw [List.map_singleton, List.mem_singleton] at hmem
      subst hmem
      obtain ⟨row, hrow, hstatus, -⟩ := claimed_iff.mp hclaimed
      rw [hrow] at hp
      rw [← Option.some.inj hp] at hclaimable
      exact hclaimable.2 hstatus
  · rcases List.mem_append.mp hy with hold | hnew
    · exact h.backed y hold
    · rw [List.mem_singleton.mp hnew]
      exact hbacked

theorem made_untouched (store : Store) {x : Receipt} (hne : id ≠ x.payment) :
    Untouched store { store with receipts := store.receipts ++ [x] } id where
  row := fun _ hrow => hrow
  unsettled := fun h hmem => by
    rw [List.map_append, List.mem_append] at hmem
    rcases hmem with hmem | hmem
    · exact h hmem
    · exact hne (List.mem_singleton.mp hmem)
  receipt := fun r h => receipts_append store x r id h

theorem given_some {text : Option String} {s : String} (h : given text = some s) :
    text = some s :=
  (Option.filter_eq_some_iff.mp h).1

/-- The payment that is found is there, and is the event's. -/
theorem find_payment {known : Payment × ℕ} (h : store.findPayment event = some known) :
    Reads store event known.1 known.2 := by
  unfold Store.findPayment at h
  obtain ⟨s, hs, hfound⟩ := Option.bind_eq_some_iff.mp h
  have hmem := List.mem_of_find?_eq_some hfound
  obtain ⟨hprovider, hid⟩ : known.1.provider = event.provider ∧
      known.1.providerPaymentId = some s := by simpa using List.find?_some hfound
  exact ⟨hprovider, hid.trans (given_some hs).symm, known.1,
    List.mem_zipIdx_iff_getElem?.mp hmem, rfl⟩

@[simp] theorem record_event_payments (store : Store) (payment : Option ℕ) (event : VerifiedEvent)
    (firmId : Option String) (written : Outcome Failure) :
    (store.recordEvent payment event firmId written).payments = store.payments := by
  unfold Store.recordEvent carried
  split
  · rfl
  · split <;> rfl

@[simp] theorem record_event_receipts (store : Store) (payment : Option ℕ) (event : VerifiedEvent)
    (firmId : Option String) (written : Outcome Failure) :
    (store.recordEvent payment event firmId written).receipts = store.receipts := by
  unfold Store.recordEvent carried
  split
  · rfl
  · split <;> rfl

/-- An unsigned request touches no payment and no receipt. -/
theorem refuse_unsigned (store : Store) (call : Call) (written : Outcome Failure) :
    (refuseUnsigned store call written).1.payments = store.payments ∧
      (refuseUnsigned store call written).1.receipts = store.receipts ∧
      ∃ answer, (refuseUnsigned store call written).2 = .answered answer := by
  unfold refuseUnsigned
  dsimp only
  split
  · split
    · exact ⟨record_event_payments _ _ _ _ _, record_event_receipts _ _ _ _ _, _, rfl⟩
    · exact ⟨rfl, rfl, _, rfl⟩
  · exact ⟨rfl, rfl, _, rfl⟩

end

section
variable {ι : Type*} [DecidableEq ι] {calls : ι → Call} {w : World ι Store Phase} {i : ι}
  {store : Store} {phase : Phase} {r : Reply}

/-- A delivery that changes its own payment alone. -/
theorem Sound.move (h : Sound calls w) (hconsistent : Consistent store)
    (hext : Extends w.store store) (hown : Standing (calls i).event store phase)
    (hframe : ∀ j id, j ≠ i → (w.phase j).holds = some id → Untouched w.store store id)
    (hholds : ∀ id, phase.holds = some id →
      (w.phase i).holds = some id ∨ ∀ j, (w.phase j).holds ≠ some id) :
    Sound calls ⟨store, Function.update w.phase i phase⟩ := by
  refine ⟨hconsistent, fun j => ?_, fun j k id hj hk => ?_⟩
  · dsimp only
    by_cases hji : j = i
    · subst hji
      rw [Function.update_self]
      exact hown
    · rw [Function.update_of_ne hji]
      exact (h.standing j).kept hext fun id => hframe j id hji
  · dsimp only at hj hk
    by_cases hji : j = i <;> by_cases hki : k = i
    · rw [hji, hki]
    · subst hji
      rw [Function.update_self] at hj
      rw [Function.update_of_ne hki] at hk
      rcases hholds id hj with hown | hnone
      · exact h.alone j k id hown hk
      · exact absurd hk (hnone k)
    · subst hki
      rw [Function.update_self] at hk
      rw [Function.update_of_ne hji] at hj
      rcases hholds id hk with hown | hnone
      · exact h.alone j k id hj hown
      · exact absurd hj (hnone j)
    · rw [Function.update_of_ne hji] at hj
      rw [Function.update_of_ne hki] at hk
      exact h.alone j k id hj hk

/-- A statement that leaves the payments and the receipts, and claims nothing. -/
theorem Sound.quiet (h : Sound calls w) (hpayments : store.payments = w.store.payments)
    (hreceipts : store.receipts = w.store.receipts)
    (hown : Standing (calls i).event store phase)
    (hholds : ∀ id, phase.holds = some id → (w.phase i).holds = some id) :
    Sound calls ⟨store, Function.update w.phase i phase⟩ :=
  h.move (h.consistent.quiet hpayments hreceipts) (.refl_of hpayments) hown
    (fun _ id _ _ => .refl_of hpayments hreceipts id) fun id hid => .inl (hholds id hid)

/-- A delivery that has raised or is answered holds nothing. -/
theorem Sound.over (h : Sound calls w) (hpayments : store.payments = w.store.payments)
    (hreceipts : store.receipts = w.store.receipts) :
    Sound calls ⟨store, Function.update w.phase i .raised⟩ :=
  h.quiet hpayments hreceipts trivial fun _ hid => nomatch hid

/-- A read, and what follows it where it is answered. -/
theorem Sound.read (h : Sound calls w) (r : Reply)
    (hown : Standing (calls i).event (w.store.later r) phase) (hnone : phase.holds = none) :
    Sound calls ⟨w.store.later r, Function.update w.phase i (answeredBy r.written phase)⟩ := by
  unfold answeredBy
  split
  · refine h.quiet rfl rfl hown fun id hid => ?_
    rw [hnone] at hid
    cases hid
  · exact h.over rfl rfl

theorem read_sound (h : Sound calls w) (r : Reply)
    (hphase : w.phase i = .verified ∨ w.phase i = .correlating ∨ w.phase i = .linking ∨
      w.phase i = .ordering) : Sound calls (step (advance calls) w (i, r)) := by
  have hstanding := h.standing i
  unfold step advance
  rcases hphase with hphase | hphase | hphase | hphase
  · rw [hphase] at hstanding ⊢
    dsimp only
    split
    · exact h.quiet rfl rfl hstanding fun _ hid => nomatch hid
    · refine h.read r ?_ ?_
      · split
        · trivial
        · exact hstanding
      · split <;> rfl
  · rw [hphase] at hstanding ⊢
    dsimp only
    split
    · exact h.quiet rfl rfl hstanding fun _ hid => nomatch hid
    · cases hfound : (w.store.later r).findPayment (calls i).event with
      | none => exact h.read r hstanding rfl
      | some known =>
        have hnext : Standing (calls i).event (w.store.later r) (.noting (some known)) :=
          ⟨hstanding, find_payment hfound⟩
        exact h.read r hnext rfl
  · rw [hphase] at hstanding ⊢
    dsimp only
    split
    · exact h.quiet rfl rfl hstanding fun _ hid => nomatch hid
    · cases hfound : findByLink (w.store.later r).links (calls i).event with
      | none => exact h.read r hstanding rfl
      | some link => exact h.read r hstanding rfl
  · rw [hphase] at hstanding ⊢
    dsimp only
    split
    · exact h.quiet rfl rfl hstanding fun _ hid => nomatch hid
    · cases hfound : findByOrder (w.store.later r).links (calls i).event with
      | none => exact h.read r hstanding rfl
      | some link => exact h.read r hstanding rfl

/-- A payment is opened at the end of the table. -/
theorem opening_sound (h : Sound calls w) {link : PaymentLink} (hphase : w.phase i = .opening link)
    (r : Reply) : Sound calls (step (advance calls) w (i, r)) := by
  have hverified : (calls i).event.signatureVerified = true := by
    have hstanding := h.standing i
    rwa [hphase] at hstanding
  unfold step advance
  rw [hphase]
  dsimp only
  split
  · rename_i hadmits
    set payment := newPayment link (calls i).event
    have hopened : Consistent { w.store.later r with
        payments := (w.store.later r).payments ++ [payment] } :=
      (h.consistent.quiet rfl rfl : Consistent (w.store.later r)).opened hadmits rfl
    have hold (id : ℕ) (row : Payment) (hrow : w.store.payments[id]? = some row) :
        (w.store.payments ++ [payment])[id]? = some row :=
      (List.getElem?_append_left (List.getElem?_eq_some_iff.mp hrow).1).trans hrow
    have hext : Extends w.store { w.store.later r with
        payments := (w.store.later r).payments ++ [payment] } :=
      fun id row hrow => ⟨row, hold id row hrow, rfl⟩
    have hframe (id : ℕ) : Untouched w.store { w.store.later r with
        payments := (w.store.later r).payments ++ [payment] } id :=
      ⟨hold id, fun hunsettled => hunsettled, fun _ hreceipt => hreceipt⟩
    have hnew : (w.store.payments ++ [payment])[w.store.payments.length]? = some payment :=
      List.getElem?_concat_length
    cases r.written with
    | refused raised => exact h.over rfl rfl
    | done =>
      exact h.move hopened hext ⟨hverified, rfl, rfl, payment, hnew, rfl⟩
        (fun _ id _ _ => hframe id) fun _ hid => nomatch hid
    | lost raised =>
      exact h.move hopened hext trivial (fun _ id _ _ => hframe id) fun _ hid => nomatch hid
  · exact h.over rfl rfl

theorem noting_sound (h : Sound calls w) {known : Option (Payment × ℕ)}
    (hphase : w.phase i = .noting known) (r : Reply) :
    Sound calls (step (advance calls) w (i, r)) := by
  have hstanding := h.standing i
  rw [hphase] at hstanding
  unfold step advance
  rw [hphase]
  cases known with
  | none =>
    exact h.quiet (record_event_payments _ _ _ _ _) (record_event_receipts _ _ _ _ _) trivial
      fun _ hid => nomatch hid
  | some known =>
    have hpayments : ((w.store.later r).recordEvent (some known.2) (calls i).event
        (some known.1.subject.firmId) r.written).payments = w.store.payments :=
      record_event_payments _ _ _ _ _
    refine h.quiet hpayments (record_event_receipts _ _ _ _ _) ?_ fun _ hid => nomatch hid
    exact ⟨hstanding.1, hstanding.2.kept (.refl_of hpayments)⟩

omit [DecidableEq ι] in
theorem held_claimed {event : VerifiedEvent} {id : ℕ} (h : Standing event store phase)
    (hholds : phase.holds = some id) : store.claimed id = true := by
  cases phase with
  | settling payment id' =>
    rw [← Option.some.inj hholds]
    exact h.2.2.2.1
  | receipting payment id' data =>
    rw [← Option.some.inj hholds]
    exact h.2.2.2.1
  | reverting id' =>
    rw [← Option.some.inj hholds]
    exact h.1
  | sealing payment id' receipt =>
    rw [← Option.some.inj hholds]
    exact h.1
  | _ => cases hholds

omit [DecidableEq ι] in
theorem Sound.unheld (h : Sound calls w) {id : ℕ} (hfree : w.store.claimed id = false) (j : ι) :
    (w.phase j).holds ≠ some id := by
  intro hj
  have hclaimed := held_claimed (h.standing j) hj
  rw [hfree] at hclaimed
  cases hclaimed

/-- A delivery changes how a payment stands that no other is settling. -/
theorem Sound.updated (h : Sound calls w) (r : Reply) {id : ℕ} {f : Payment → Payment}
    (hf : ∀ p, (f p).fixed = p.fixed)
    (hsealed : ∀ row r, w.store.payments[id]? = some row → (f row).receiptId = some r →
      (w.store.receipts[r]?).map Receipt.payment = some id)
    (hfree : ∀ row, w.store.payments[id]? = some row → (f row).Claimable → Unsettled w.store id)
    (hothers : ∀ j, j ≠ i → (w.phase j).holds ≠ some id)
    (hown : Standing (calls i).event ((w.store.later r).update id f) phase)
    (hholds : ∀ id', phase.holds = some id' →
      (w.phase i).holds = some id' ∨ ∀ j, (w.phase j).holds ≠ some id') :
    Sound calls ⟨carried r.written (w.store.later r) ((w.store.later r).update id f),
      Function.update w.phase i (answeredBy r.written phase)⟩ := by
  have hlater : Consistent (w.store.later r) := h.consistent.quiet rfl rfl
  have hnext := hlater.update hf hsealed hfree
  have hext : Extends w.store ((w.store.later r).update id f) :=
    update_extends (w.store.later r) id hf
  have hframe (j : ι) (id' : ℕ) (hji : j ≠ i) (hj : (w.phase j).holds = some id') :
      Untouched w.store ((w.store.later r).update id f) id' := by
    have hne : id' ≠ id := by
      rintro rfl
      exact hothers j hji hj
    obtain ⟨hrow, hunsettled, hreceipt⟩ := update_untouched (w.store.later r) f hne
    exact ⟨hrow, hunsettled, hreceipt⟩
  cases r.written with
  | refused raised => exact h.over rfl rfl
  | done => exact h.move hnext hext hown hframe hholds
  | lost raised => exact h.move hnext hext trivial hframe fun _ hid => nomatch hid

/-- A claim: the payment is free, and then nobody else's. -/
theorem claim_sound (h : Sound calls w) {payment : Payment} {id : ℕ}
    (hphase : w.phase i = .applying payment id) (hsettles : settles (calls i).event payment)
    (r : Reply) : Sound calls (step (advance calls) w (i, r)) := by
  have hstanding := h.standing i
  rw [hphase] at hstanding
  obtain ⟨hverified, hreads⟩ := hstanding
  unfold step advance
  rw [hphase]
  dsimp only
  rw [if_pos hsettles]
  split
  · rename_i hclaimable
    obtain ⟨row, hrow, hfree⟩ : ∃ row : Payment, (w.store.later r).payments[id]? = some row ∧
        row.Claimable := by
      simpa [Store.claimable, Option.any_eq_true] using hclaimable
    have hf : ∀ p : Payment, ({ p with status := .capturing } : Payment).fixed = p.fixed :=
      fun _ => rfl
    have hunclaimed : w.store.claimed id = false := by
      rw [Bool.eq_false_iff]
      intro hclaimed
      obtain ⟨row', hrow', hstatus, -⟩ := claimed_iff.mp hclaimed
      rw [← Option.some.inj (hrow.symm.trans hrow')] at hstatus
      exact hfree.2 hstatus
    have hclaimed : ((w.store.later r).update id fun p =>
        { p with status := .capturing }).claimed id = true := by
      refine claimed_iff.mpr ⟨{ row with status := .capturing }, ?_, rfl, hfree.1⟩
      rw [get_update, if_pos rfl, hrow]
      rfl
    refine h.updated r hf (fun row' r' hrow' hr' => h.consistent.sealed id row' r' hrow' hr')
      (fun row' _ hclaimable' => absurd rfl hclaimable'.2) (fun j _ => h.unheld hunclaimed j)
      ⟨hverified, hreads.kept (update_extends (w.store.later r) id hf), hsettles.1, hclaimed,
        h.consistent.free id row hrow hfree⟩ fun id' hid' => .inr ?_
    rw [← Option.some.inj hid']
    exact h.unheld hunclaimed
  · exact h.read r trivial rfl

/-- Any other status meets a payment that nobody is settling. -/
theorem status_sound (h : Sound calls w) {payment : Payment} {id : ℕ}
    (hphase : w.phase i = .applying payment id) (hsettles : ¬ settles (calls i).event payment)
    (hunclaimed : w.store.claimed id = false) (r : Reply) :
    Sound calls (step (advance calls) w (i, r)) := by
  unfold step advance
  rw [hphase]
  dsimp only
  rw [if_neg hsettles]
  refine h.updated r (fun _ => rfl)
    (fun row r' hrow hr' => h.consistent.sealed id row r' hrow hr') (fun row hrow hclaimable => ?_)
    (fun j _ => h.unheld hunclaimed j) trivial fun _ hid => nomatch hid
  refine h.consistent.free id row hrow ⟨hclaimable.1, fun hstatus => ?_⟩
  rw [Bool.eq_false_iff] at hunclaimed
  exact hunclaimed (claimed_iff.mpr ⟨row, hrow, hstatus, hclaimable.1⟩)

theorem settling_sound (h : Sound calls w) {payment : Payment} {id : ℕ}
    (hphase : w.phase i = .settling payment id) (r : Reply) :
    Sound calls (step (advance calls) w (i, r)) := by
  have hstanding := h.standing i
  rw [hphase] at hstanding
  obtain ⟨hverified, hreads, hcaptured, hclaimed, hunsettled⟩ := hstanding
  have hheld : (w.phase i).holds = some id := by
    rw [hphase]
    rfl
  unfold step advance
  rw [hphase]
  dsimp only
  split
  · exact h.quiet rfl rfl ⟨hverified, hreads, hcaptured, hclaimed, hunsettled, _, rfl⟩
      fun _ hid => hheld.trans hid
  · exact h.quiet rfl rfl ⟨hclaimed, hunsettled⟩ fun _ hid => hheld.trans hid

/-- A receipt is made for a payment that is claimed and has none. -/
theorem receipting_sound (h : Sound calls w) {payment : Payment} {id : ℕ} {data : ReceiptData}
    (hphase : w.phase i = .receipting payment id data) {r : Reply}
    (hcalm : ∀ raised, r.written ≠ .lost raised) :
    Sound calls (step (advance calls) w (i, r)) := by
  have hstanding := h.standing i
  rw [hphase] at hstanding
  obtain ⟨hverified, ⟨hprovider, hid, row, hrow, hfixed⟩, hcaptured, hclaimed, hunsettled, invoice,
    rfl⟩ := hstanding
  have hheld : (w.phase i).holds = some id := by
    rw [hphase]
    rfl
  unfold step advance
  rw [hphase]
  dsimp only
  split
  · set x : Receipt := ⟨id, (calls i).event, settlement payment id invoice⟩
    have hbacked : Backed (w.store.later r).payments x := by
      obtain ⟨hprovider', hid'⟩ := fixed_key hfixed
      exact ⟨row, hrow, hverified, hcaptured, hprovider'.trans hprovider, hid'.trans hid, invoice,
        settlement_fixed hfixed.symm id invoice⟩
    have hlater : Consistent (w.store.later r) := h.consistent.quiet rfl rfl
    refine h.move (hlater.made hbacked hclaimed hunsettled) (.refl_of rfl) ⟨hclaimed, ?_⟩
      (fun j id' hji hj => ?_) fun _ hid' => .inl (hheld.trans hid')
    · change (((w.store.receipts ++ [x])[w.store.receipts.length]?).map Receipt.payment) = some id
      rw [List.getElem?_concat_length]
      rfl
    · have hne : id' ≠ x.payment := by
        rintro rfl
        exact hji (h.alone j i _ hj hheld)
      obtain ⟨hsame, hkept, hreceipt⟩ := made_untouched (w.store.later r) hne
      exact ⟨hsame, hkept, hreceipt⟩
  · cases hwritten : r.written with
    | refused raised =>
      exact h.quiet rfl rfl ⟨hclaimed, hunsettled⟩ fun _ hid' => hheld.trans hid'
    | done => exact absurd hwritten ‹_›
    | lost raised => exact absurd hwritten (hcalm raised)

theorem answered_by_raised (written : Outcome Failure) : answeredBy written .raised = .raised := by
  cases written <;> rfl

theorem reverting_sound (h : Sound calls w) {id : ℕ} (hphase : w.phase i = .reverting id)
    (r : Reply) : Sound calls (step (advance calls) w (i, r)) := by
  have hstanding := h.standing i
  rw [hphase] at hstanding
  have hheld : (w.phase i).holds = some id := by
    rw [hphase]
    rfl
  unfold step advance
  rw [hphase]
  dsimp only
  rw [← answered_by_raised r.written]
  exact h.updated r (fun _ => rfl)
    (fun row r' hrow hr' => h.consistent.sealed id row r' hrow hr') (fun _ _ _ => hstanding.2)
    (fun j hji hj => hji (h.alone j i id hj hheld)) trivial fun _ hid => nomatch hid

theorem sealing_sound (h : Sound calls w) {payment : Payment} {id receipt : ℕ}
    (hphase : w.phase i = .sealing payment id receipt) (r : Reply) :
    Sound calls (step (advance calls) w (i, r)) := by
  have hstanding := h.standing i
  rw [hphase] at hstanding
  have hheld : (w.phase i).holds = some id := by
    rw [hphase]
    rfl
  unfold step advance
  rw [hphase]
  refine h.updated r (fun _ => rfl) (fun row r' _ hr' => ?_)
    (fun _ _ hclaimable => (nomatch hclaimable.1)) (fun j hji hj => hji (h.alone j i id hj hheld))
    trivial fun _ hid => nomatch hid
  rw [← Option.some.inj hr']
  exact hstanding.2

theorem paying_sound (h : Sound calls w) {payment : Payment} {id : ℕ}
    (hphase : w.phase i = .paying payment id) (r : Reply) :
    Sound calls (step (advance calls) w (i, r)) := by
  unfold step advance
  rw [hphase]
  dsimp only
  split
  · exact h.quiet rfl rfl trivial fun _ hid => nomatch hid
  · cases r.written with
    | done => exact h.quiet rfl rfl trivial fun _ hid => nomatch hid
    | refused raised => exact h.over rfl rfl
    | lost raised => exact h.over rfl rfl

theorem step_sound (h : Sound calls w) (hcalm : calm calls w i r = true) :
    Sound calls (step (advance calls) w (i, r)) := by
  cases hphase : w.phase i with
  | received =>
    unfold step advance
    rw [hphase]
    dsimp only
    split
    · exact h.quiet rfl rfl ‹_› fun _ hid => nomatch hid
    · obtain ⟨hpayments, hreceipts, answer, hanswer⟩ :=
        refuse_unsigned (w.store.later r) (calls i) r.written
      rw [hanswer]
      exact h.quiet hpayments hreceipts trivial fun _ hid => nomatch hid
  | verified => exact read_sound h r (.inl hphase)
  | correlating => exact read_sound h r (.inr (.inl hphase))
  | linking => exact read_sound h r (.inr (.inr (.inl hphase)))
  | ordering => exact read_sound h r (.inr (.inr (.inr hphase)))
  | opening link => exact opening_sound h hphase r
  | noting known => exact noting_sound h hphase r
  | applying payment id =>
    by_cases hsettles : settles (calls i).event payment
    · exact claim_sound h hphase hsettles r
    · refine status_sound h hphase hsettles ?_ r
      simpa [calm, hphase, hsettles] using hcalm
  | settling payment id => exact settling_sound h hphase r
  | receipting payment id data =>
    refine receipting_sound h hphase fun raised hlost => ?_
    simp [calm, hphase, hlost] at hcalm
  | reverting id => exact reverting_sound h hphase r
  | sealing payment id receipt => exact sealing_sound h hphase r
  | paying payment id => exact paying_sound h hphase r
  | answered answer =>
    unfold step advance
    rw [hphase]
    exact h.quiet rfl rfl trivial fun _ hid => nomatch hid
  | raised =>
    unfold step advance
    rw [hphase]
    exact h.over rfl rfl

end

/-- However many deliveries interleave, whether their statements are refused, lost or never sent, a
payment of the gateway's has one receipt at most, made for a verified capture of it and for its own
amount; and what seals a payment is its own receipt. -/
theorem one_receipt_per_payment [DecidableEq ι] (calls : ι → Call) (store : Store)
    (hstore : Consistent store) (phases : ι → Phase) (hstarts : ∀ i, phases i = .received)
    (events : List (ι × Reply))
    (hcalm : Throughout (advance calls) (fun w i r => calm calls w i r = true) ⟨store, phases⟩
      events) :
    let w := run (advance calls) ⟨store, phases⟩ events
    (w.store.receipts.map Receipt.payment).Nodup ∧
    (∀ (a b : ℕ) (x y : Receipt), w.store.receipts[a]? = some x → w.store.receipts[b]? = some y →
      x.event.provider = y.event.provider →
      x.event.providerPaymentId = y.event.providerPaymentId →
      x.event.providerPaymentId ≠ none → a = b) ∧
    (∀ x ∈ w.store.receipts, Backed w.store.payments x) ∧
    ∀ (id : ℕ) (p : Payment) (r : ℕ), w.store.payments[id]? = some p → p.receiptId = some r →
      (w.store.receipts[r]?).map Receipt.payment = some id := by
  have hstart : Sound calls ⟨store, phases⟩ := by
    refine ⟨hstore, fun i => ?_, fun i j id hi => ?_⟩
    · dsimp only
      rw [hstarts i]
      trivial
    · dsimp only at hi
      rw [hstarts i] at hi
      cases hi
  have hsound := run_keeps_throughout (Sound calls) (fun w i r h hcalm => step_sound h hcalm)
    events hstart hcalm
  obtain ⟨hunique, hone, hsealed, -, hbacked⟩ := hsound.consistent
  refine ⟨hone, fun a b x y hx hy hprovider hid hsome => ?_, hbacked, hsealed⟩
  obtain ⟨p, hp, -, -, hprovider₁, hid₁, -⟩ := hbacked x (List.mem_of_getElem? hx)
  obtain ⟨q, hq, -, -, hprovider₂, hid₂, -⟩ := hbacked y (List.mem_of_getElem? hy)
  have hpayment : x.payment = y.payment := by
    refine hunique x.payment y.payment p q hp hq ?_ ?_ ?_
    · rw [hprovider₁, hprovider₂, hprovider]
    · rw [hid₁, hid₂, hid]
    · rw [hid₁]
      exact hsome
  have hlength : a < ((run (advance calls) ⟨store, phases⟩ events).store.receipts.map
      Receipt.payment).length := by
    rw [List.length_map]
    exact (List.getElem?_eq_some_iff.mp hx).1
  refine (List.getElem?_inj hlength hone).mp ?_
  rw [List.getElem?_map, List.getElem?_map, hx, hy, Option.map_some, Option.map_some, hpayment]

/-- The two events a gateway sends of one capture. -/
def captures (i : Fin 2) : Call where
  event :=
    { provider := "razorpay"
      eventId := if i = 0 then "evt_1" else "evt_2"
      eventType := if i = 0 then "payment.captured" else "payment_link.paid"
      status := .captured
      signatureVerified := true
      providerPaymentId := some "pay_1"
      providerOrderId := none
      providerLinkId := some "plink_1"
      amountPaise := some 500000 }
  clientIp := none

def awaiting : Store where
  clock := 0
  links := [⟨"link", ⟨"firm", "client", "customer", "invoice"⟩, 500000, "razorpay",
    some "plink_1", none, .active⟩]
  payments := []
  events := []
  receipts := []
  perIp := []
  samples := []

theorem awaiting_consistent : Consistent awaiting where
  unique := fun _ _ _ _ hp => nomatch hp
  one := List.nodup_nil
  sealed := fun _ _ _ hp => nomatch hp
  free := fun _ _ hp => nomatch hp
  backed := fun _ hx => nomatch hx

def carriedOut : Reply where
  elapsed := 1
  elapsedPos := by norm_num
  meanwhile := id
  written := .done
  invoice := some ⟨500000, 0, 100000, 0⟩

/-- The second delivery finds the payment the first opened, and then finds it claimed. -/
theorem captured_twice_settled_once :
    let w := run (advance captures) ⟨awaiting, fun _ => .received⟩
      (([0, 0, 0, 0, 0, 1, 1, 1, 0, 0, 1, 1, 0, 0, 0, 0] : List (Fin 2)).map (·, carriedOut))
    w.store.receipts.length = 1 ∧ (w.store.receipts.map Receipt.payment).Nodup := by
  have hcalm : Throughout (advance captures) (fun w i r => calm captures w i r = true)
      ⟨awaiting, fun _ => .received⟩
      (([0, 0, 0, 0, 0, 1, 1, 1, 0, 0, 1, 1, 0, 0, 0, 0] : List (Fin 2)).map (·, carriedOut)) := by
    decide +kernel
  exact ⟨by decide +kernel, (one_receipt_per_payment captures awaiting awaiting_consistent
    (fun _ => .received) (fun _ => rfl) _ hcalm).1⟩

end Caflow.Payments
