import Caflow.Settlement.Payables

set_option linter.all false

namespace Caflow.Settlement.Payables
open Interleaving Interrupted

/-- No more is settled on a bill than is payable on it. -/
def Bill.Within (bill : Bill) : Prop := bill.paidPaise + bill.debitedPaise ≤ bill.effectivePayable

def Tables.Within (tables : Tables) : Prop :=
  ∀ billId bill, tables.bills billId = some bill → bill.Within

/-- What a statement makes of a bill: a payment or a note is put on it, or a note's part restored. -/
inductive Touches : Phase → String → Bill → Bill → Prop
  | pays {bill read : Bill} (h : bill.paidPaise = read.paidPaise) :
      Touches (.paying call (.writeBill billId amount rest left read)) billId bill
        (bill.paying read amount)
  | debits {bill read : Bill} {note : DebitNote} (h : bill.debitedPaise = read.debitedPaise) :
      Touches (.noting noteId (.writeBill note billId left read)) billId bill
        (bill.debiting read note.totalPaise)
  | unrecorded {bill read : Bill} {failure : Failure} :
      Touches (.noting noteId (.undoUnrecorded note billId read failure)) billId bill
        (bill.restored read)
  | unposted {bill read : Bill} {failure : Failure} :
      Touches (.noting noteId (.undoUnposted note billId read failure)) billId bill
        (bill.restored read)

/-- The bills are as they were, but for one that the statement touched. -/
def BillsMove (phase : Phase) (before after : Tables) : Prop :=
  after.bills = before.bills ∨
    ∃ billId bill bill', before.bills billId = some bill ∧ Touches phase billId bill bill' ∧
      after.bills = Function.update before.bills billId (some bill')

variable {billId noteId : String} {bill bill' read : Bill} {failure : Failure} {note : DebitNote}
  {call : PaymentCall} {phase : Phase}

section
variable {tables : Tables} {expect : Bill → Prop} [DecidablePred expect]
  {values : Bill → Bill}

theorem update_header_some (h : tables.updateHeader billId expect values = some written) :
    ∃ bill, tables.bills billId = some bill ∧ expect bill ∧
      written = { tables with bills := Function.update tables.bills billId (some (values bill)) } := by
  unfold Tables.updateHeader at h
  split at h
  · rename_i bill hbill
    split at h
    · rename_i hexpect
      exact ⟨bill, hbill, hexpect, (Option.some.inj h).symm⟩
    · cases h
  · cases h

/-- An update through its guard touches its bill, and one that it stops leaves the bills. -/
theorem update_header_moves {phase : Phase}
    (htouch : ∀ bill, expect bill → Touches phase billId bill (values bill)) :
    BillsMove phase tables ((tables.updateHeader billId expect values).getD tables) := by
  cases h : tables.updateHeader billId expect values with
  | none => exact .inl rfl
  | some written =>
    obtain ⟨bill, hbill, hexpect, rfl⟩ := update_header_some h
    exact .inr ⟨billId, bill, _, hbill, htouch bill hexpect, rfl⟩

end

theorem reading_store (tables : Tables) (reply : Outcome Failure) (raise : Failure → π) (next : π) :
    (reading tables reply raise next).1 = tables := by
  cases reply <;> rfl

theorem insert_allocations_bills {tables inserted : Tables}
    (h : tables.insertAllocations added = some inserted) : inserted.bills = tables.bills := by
  unfold Tables.insertAllocations at h
  split at h
  · rw [← Option.some.inj h]
  · cases h

theorem insert_note_allocation_bills {tables inserted : Tables}
    (h : tables.insertNoteAllocation added = some inserted) : inserted.bills = tables.bills := by
  unfold Tables.insertNoteAllocation at h
  split at h
  · rw [← Option.some.inj h]
  · cases h

theorem pay_bills (call : PaymentCall) (tables : Tables) (phase : PayPhase)
    (reply : Outcome Failure) :
    BillsMove (.paying call phase) tables (payStep call tables phase reply).1 := by
  cases phase with
  | vendor | period | journal => exact .inl (by rw [payStep, reading_store])
  | checkStatus rest | prevalidate rest =>
    cases rest with
    | nil => exact .inl rfl
    | cons first rest => exact .inl (by rw [payStep, reading_store])
  | readBill billId amount rest left => exact .inl (by rw [payStep, reading_store])
  | insertPayment => cases reply <;> exact .inl rfl
  | writeBill billId amount rest left read =>
    have hmoves : BillsMove (.paying call (.writeBill billId amount rest left read)) tables
        ((tables.updateHeader billId (·.paidPaise = read.paidPaise) (·.paying read amount)).getD
          tables) :=
      update_header_moves fun bill hguard => .pays hguard
    cases reply with
    | refused failure => exact .inl rfl
    | lost failure => exact hmoves
    | done =>
      unfold payStep
      dsimp only
      cases hwritten : tables.updateHeader billId (·.paidPaise = read.paidPaise)
        (·.paying read amount) with
      | some written =>
        rw [hwritten] at hmoves
        exact hmoves
      | none => cases left <;> exact .inl rfl
  | insertAllocations =>
    unfold payStep
    dsimp only
    cases hinserted : tables.insertAllocations call.rows with
    | none => cases reply <;> exact .inl rfl
    | some inserted =>
      have hbills := insert_allocations_bills hinserted
      cases reply with
      | refused failure => exact .inl rfl
      | done | lost failure => exact .inl hbills
  | compensate failure => cases reply <;> exact .inl rfl
  | finished | raised failure => exact .inl rfl

theorem restore_moves {phase : Phase} {read : Bill}
    (htouch : ∀ bill, Touches phase billId bill (bill.restored read)) (tables : Tables) :
    BillsMove phase tables (tables.restoreBill billId read) :=
  update_header_moves fun bill _ => htouch bill

theorem note_bills (noteId : String) (tables : Tables) (phase : NotePhase)
    (reply : Outcome Failure) :
    BillsMove (.noting noteId phase) tables (noteStep noteId tables phase reply).1 := by
  cases phase with
  | readNote | checks note | readBill note billId left | journal note prior =>
    exact .inl (by rw [noteStep, reading_store])
  | writeBill note billId left read =>
    have hmoves : BillsMove (.noting noteId (.writeBill note billId left read)) tables
        ((tables.updateHeader billId (·.debitedPaise = read.debitedPaise)
          (·.debiting read note.totalPaise)).getD tables) :=
      update_header_moves fun bill hguard => .debits hguard
    cases reply with
    | refused failure => exact .inl rfl
    | lost failure => exact hmoves
    | done =>
      unfold noteStep
      dsimp only
      cases hwritten : tables.updateHeader billId (·.debitedPaise = read.debitedPaise)
        (·.debiting read note.totalPaise) with
      | some written =>
        rw [hwritten] at hmoves
        exact hmoves
      | none => cases left <;> exact .inl rfl
  | insertAllocation note billId read =>
    unfold noteStep
    dsimp only
    cases hinserted : tables.insertNoteAllocation ⟨noteId, billId, note.totalPaise⟩ with
    | none => cases reply <;> exact .inl rfl
    | some inserted =>
      have hbills := insert_note_allocation_bills hinserted
      cases reply with
      | refused failure => exact .inl rfl
      | done | lost failure => exact .inl hbills
  | undoUnrecorded note billId read failure =>
    cases reply with
    | refused failure => exact .inl rfl
    | done | lost failure => exact restore_moves (fun _ => .unrecorded) tables
  | deleteAllocation note billId read failure => cases reply <;> exact .inl rfl
  | undoUnposted note billId read failure =>
    cases reply with
    | refused failure => exact .inl rfl
    | done | lost failure => exact restore_moves (fun _ => .unposted) tables
  | writeNote note applied => cases reply <;> exact .inl rfl
  | finished | raised failure => exact .inl rfl

/-- What one statement does to the bills. -/
theorem advance_bills (tables : Tables) (phase : Phase) (reply : Outcome Failure) :
    BillsMove phase tables (advance tables phase reply).1 := by
  cases phase with
  | paying call phase => exact pay_bills call tables phase reply
  | noting noteId phase => exact note_bills noteId tables phase reply

theorem debitable_ok {found : Option Bill} (h : debitable note found = .ok read) :
    found = some read ∧
      read.paidPaise + (read.debitedPaise + note.totalPaise) ≤ read.effectivePayable := by
  unfold debitable at h
  split at h
  · cases h
  · split at h
    · cases h
    · split at h
      · cases h
      · dsimp only at h
        split at h
        · cases h
        · rename_i hroom
          obtain rfl := Except.ok.inj h
          exact ⟨rfl, by omega⟩

/-- What is payable on a bill is what a call read of it. -/
def Tables.Billed (tables : Tables) (billId : String) (read : Bill) : Prop :=
  ∀ bill, tables.bills billId = some bill → bill.effectivePayable = read.effectivePayable

/-- A call that comes to write a bill found room for its amount. -/
def Standing (tables : Tables) : Phase → Prop
  | .paying _ (.writeBill billId amount _ _ read) =>
    read.paidPaise + amount + read.debitedPaise ≤ read.effectivePayable ∧ tables.Billed billId read
  | .noting _ (.writeBill note billId _ read) =>
    read.paidPaise + (read.debitedPaise + note.totalPaise) ≤ read.effectivePayable ∧
      tables.Billed billId read
  | _ => True

theorem touches_billed (h : Touches phase billId bill bill') :
    bill'.effectivePayable = bill.effectivePayable := by
  cases h <;> rfl

theorem advance_billed {tables : Tables} (h : tables.Billed billId read) (phase : Phase)
    (reply : Outcome Failure) : (advance tables phase reply).1.Billed billId read := by
  intro bill hbill
  rcases advance_bills tables phase reply with hsame | ⟨touched, before, after, hbefore, htouch, hupd⟩
  · rw [hsame] at hbill
    exact h bill hbill
  · rw [hupd] at hbill
    by_cases htouched : billId = touched
    · subst htouched
      rw [Function.update_self] at hbill
      obtain rfl := Option.some.inj hbill
      exact (touches_billed htouch).trans (h before hbefore)
    · rw [Function.update_of_ne htouched] at hbill
      exact h bill hbill

theorem advance_others {tables : Tables} (phase : Phase) (reply : Outcome Failure) (p : Phase)
    (h : Standing tables p) : Standing (advance tables phase reply).1 p := by
  unfold Standing at h ⊢
  split at h
  · exact ⟨h.1, advance_billed h.2 phase reply⟩
  · exact ⟨h.1, advance_billed h.2 phase reply⟩
  · trivial

theorem settle_next_standing (tables : Tables) (call call' : PaymentCall)
    (rest : List (String × ℤ)) : Standing tables (.paying call' (settleNext call rest)) := by
  cases rest with
  | cons first rest => trivial
  | nil =>
    unfold settleNext
    dsimp only
    split <;> trivial

theorem pay_standing (call : PaymentCall) (tables : Tables) (phase : PayPhase)
    (reply : Outcome Failure) (h : Standing tables (.paying call phase)) :
    let next := payStep call tables phase reply
    Standing next.1 (.paying call next.2) := by
  have hstatus : ∀ t rest, Standing t (.paying call (statusChecked call rest)) := by
    intro t rest
    unfold statusChecked
    split
    · split <;> trivial
    · trivial
  have hprevalidated : ∀ t rest, Standing t (.paying call (prevalidated rest)) := by
    intro t rest
    unfold prevalidated
    split <;> trivial
  cases phase with
  | vendor =>
    cases reply with
    | refused failure | lost failure => trivial
    | done =>
      unfold payStep reading opened
      dsimp only
      split
      · trivial
      · split <;> trivial
  | period =>
    cases reply with
    | refused failure | lost failure => trivial
    | done => exact hstatus _ _
  | checkStatus rest =>
    cases rest with
    | nil => exact hstatus tables []
    | cons first rest =>
      cases reply with
      | refused failure | lost failure => trivial
      | done =>
        unfold payStep reading
        dsimp only
        split
        · trivial
        · exact hstatus _ _
  | prevalidate rest =>
    cases rest with
    | nil => trivial
    | cons first rest =>
      cases reply with
      | refused failure | lost failure => trivial
      | done =>
        unfold payStep reading
        dsimp only
        split
        · exact hprevalidated _ _
        · split
          · trivial
          · exact hprevalidated _ _
  | journal => cases reply <;> trivial
  | insertPayment =>
    cases reply with
    | refused failure | lost failure => trivial
    | done => exact settle_next_standing _ _ _ _
  | readBill billId amount rest left =>
    cases reply with
    | refused failure | lost failure => trivial
    | done =>
      unfold payStep reading
      dsimp only
      split
      · exact settle_next_standing _ _ _ _
      · rename_i read hread
        split
        · trivial
        · rename_i hroom
          refine ⟨not_lt.mp hroom, fun bill hbill => ?_⟩
          rw [hread] at hbill
          rw [Option.some.inj hbill]
  | writeBill billId amount rest left read =>
    cases reply with
    | refused failure | lost failure => trivial
    | done =>
      unfold payStep
      dsimp only
      split
      · exact settle_next_standing _ _ _ _
      · trivial
      · trivial
  | insertAllocations =>
    unfold payStep
    dsimp only
    split <;> trivial
  | compensate failure => cases reply <;> trivial
  | finished | raised failure => trivial

theorem note_standing (noteId : String) (tables : Tables) (phase : NotePhase)
    (reply : Outcome Failure) :
    let next := noteStep noteId tables phase reply
    Standing next.1 (.noting noteId next.2) := by
  cases phase with
  | readNote =>
    cases reply with
    | refused failure | lost failure => trivial
    | done =>
      unfold noteStep reading
      dsimp only
      split
      · trivial
      · split <;> trivial
  | checks note =>
    cases reply with
    | refused failure | lost failure => trivial
    | done =>
      unfold noteStep reading checked
      dsimp only
      split
      · split <;> trivial
      · trivial
  | readBill note billId left =>
    cases reply with
    | refused failure | lost failure => trivial
    | done =>
      unfold noteStep reading
      dsimp only
      split
      · trivial
      · rename_i read hread
        obtain ⟨hbill, hroom⟩ := debitable_ok hread
        refine ⟨hroom, fun bill hsome => ?_⟩
        rw [hbill] at hsome
        rw [Option.some.inj hsome]
  | writeBill note billId left read =>
    cases reply with
    | refused failure | lost failure => trivial
    | done =>
      unfold noteStep
      dsimp only
      split <;> trivial
  | insertAllocation note billId read =>
    unfold noteStep
    dsimp only
    split <;> trivial
  | undoUnrecorded note billId read failure => cases reply <;> trivial
  | journal note prior =>
    cases reply with
    | done => trivial
    | refused failure | lost failure =>
      unfold noteStep reading unposted
      dsimp only
      split <;> trivial
  | deleteAllocation note billId read failure => cases reply <;> trivial
  | undoUnposted note billId read failure => cases reply <;> trivial
  | writeNote note applied => cases reply <;> trivial
  | finished | raised failure => trivial

theorem advance_standing (tables : Tables) (phase : Phase) (reply : Outcome Failure)
    (h : Standing tables phase) :
    Standing (advance tables phase reply).1 (advance tables phase reply).2 := by
  cases phase with
  | paying call phase => exact pay_standing call tables phase reply h
  | noting noteId phase => exact note_standing noteId tables phase reply

/-- A statement that meets the bill as its call left it: what payments write has the debits they
read, what notes write has the payments they read, and a rollback gives a bill nothing. -/
def Unraced (tables : Tables) : Phase → Prop
  | .paying _ (.writeBill billId _ _ _ read) =>
    ∀ bill, tables.bills billId = some bill → bill.paidPaise = read.paidPaise →
      bill.debitedPaise ≤ read.debitedPaise
  | .noting _ (.writeBill _ billId _ read) =>
    ∀ bill, tables.bills billId = some bill → bill.debitedPaise = read.debitedPaise →
      bill.paidPaise ≤ read.paidPaise
  | .noting _ (.undoUnrecorded _ billId read _) | .noting _ (.undoUnposted _ billId read _) =>
    ∀ bill, tables.bills billId = some bill → read.debitedPaise ≤ bill.debitedPaise
  | _ => True

/-- A bill that is touched unraced stays within what is payable. -/
theorem touches_within {tables : Tables} (h : Touches phase billId bill bill')
    (hbill : tables.bills billId = some bill) (hwithin : bill.Within)
    (hstanding : Standing tables phase) (hunraced : Unraced tables phase) : bill'.Within := by
  unfold Bill.Within at hwithin ⊢
  cases h with
  | pays hguard =>
    obtain ⟨hroom, hbilled⟩ := hstanding
    have hdebited := hunraced bill hbill hguard
    have hpayable := hbilled bill hbill
    change _ + bill.debitedPaise ≤ bill.effectivePayable
    dsimp only [Bill.paying]
    omega
  | debits hguard =>
    obtain ⟨hroom, hbilled⟩ := hstanding
    have hpaid := hunraced bill hbill hguard
    have hpayable := hbilled bill hbill
    change bill.paidPaise + _ ≤ bill.effectivePayable
    dsimp only [Bill.debiting]
    omega
  | unrecorded | unposted =>
    have hdebited := hunraced bill hbill
    change bill.paidPaise + _ ≤ bill.effectivePayable
    dsimp only [Bill.restored]
    omega

theorem advance_within {tables : Tables} (hwithin : tables.Within)
    (hstanding : Standing tables phase) (hunraced : Unraced tables phase)
    (reply : Outcome Failure) : (advance tables phase reply).1.Within := by
  intro billId bill hbill
  rcases advance_bills tables phase reply with hsame | ⟨touched, before, after, hbefore, htouch, hupd⟩
  · rw [hsame] at hbill
    exact hwithin billId bill hbill
  · rw [hupd] at hbill
    by_cases htouched : billId = touched
    · subst htouched
      rw [Function.update_self] at hbill
      obtain rfl := Option.some.inj hbill
      exact touches_within htouch hbefore (hwithin _ _ hbefore) hstanding hunraced
    · rw [Function.update_of_ne htouched] at hbill
      exact hwithin billId bill hbill

section
variable {ι : Type} [DecidableEq ι]

/-- Calls about to begin. -/
def start (calls : ι → BillCall) (tables : Tables) : World ι Tables Phase :=
  ⟨tables, fun i => (calls i).begin⟩

/-- A run of any calls on the purchases. -/
def runCalls (w : World ι Tables Phase) (events : List (ι × Outcome Failure)) :
    World ι Tables Phase :=
  run (fun _ => advance) w events

/-- No bill is over-settled, and every call stands where its bill lets it. -/
def Safe (w : World ι Tables Phase) : Prop :=
  w.store.Within ∧ ∀ i, Standing w.store (w.phase i)

omit [DecidableEq ι] in
theorem start_safe (calls : ι → BillCall) {tables : Tables} (hwithin : tables.Within) :
    Safe (start calls tables) := by
  refine ⟨hwithin, fun i => ?_⟩
  change Standing tables (calls i).begin
  cases calls i <;> trivial

theorem step_safe {w : World ι Tables Phase} (h : Safe w) (i : ι) (reply : Outcome Failure)
    (hok : Unraced w.store (w.phase i)) : Safe (step (fun _ => advance) w (i, reply)) :=
  ⟨advance_within h.1 (h.2 i) hok reply,
    step_standing h.2 (advance_standing w.store (w.phase i) reply (h.2 i))
      fun _ p hp => advance_others (w.phase i) reply p hp⟩

/-- In whatever order payments and debit notes run, no bill is settled for more than is payable on
it, where every statement meets its bill as its call left it. -/
theorem never_over_settled (calls : ι → BillCall) {tables : Tables} (hwithin : tables.Within)
    (events : List (ι × Outcome Failure))
    (hunraced : Along (fun _ => advance) (fun _ store phase _ => Unraced store phase)
      (start calls tables) events) :
    (runCalls (start calls tables) events).store.Within := by
  have hrun : Safe (runCalls (start calls tables) events) :=
    run_keeps Safe (fun _ i reply h hok => step_safe h i reply hok) events
      (start_safe calls hwithin) hunraced
  exact hrun.1

end

/-- A bill of ten rupees. -/
def timber : Bill where
  status := .received
  isOpening := false
  netPayablePaise := 1000
  paidPaise := 0
  debitedPaise := 0
  creditNotePaise := 0
  txnCurrency := "INR"
  exchangeRate := 1
  txnNetPayable := 0
  paidTxn := 0

/-- The bill, and a draft debit note on it. -/
def purchases (total : ℤ) (h : 0 < total) : Tables where
  bills := fun id => if id = "timber" then some timber else none
  payments := fun _ => none
  allocations := .empty
  fxAdjustments := []
  notes := ⟨[⟨"DN-1", some "timber", total, .draft, 0, h⟩], List.nodup_singleton _⟩
  noteAllocations := .empty

theorem purchases_within (total : ℤ) (h : 0 < total) : (purchases total h).Within := by
  intro billId bill hbill
  dsimp only [purchases] at hbill
  split at hbill
  · obtain rfl := Option.some.inj hbill
    unfold Bill.Within
    decide
  · cases hbill

/-- A payment of the bill, and the issue of the note. -/
def paymentAndNote (amount : ℤ) : Bool → BillCall
  | true => .createPayment ⟨"VPMT-1", amount, [⟨some "timber", amount⟩]⟩
  | false => .issueDebitNote "DN-1"

/-- The payment to its end, and then the note. -/
def oneAfterAnother : List (Bool × Outcome Failure) :=
  List.replicate 9 (true, .done) ++ List.replicate 7 (false, .done)

theorem paid_then_debited :
    (runCalls (start (paymentAndNote 600) (purchases 400 (by decide))) oneAfterAnother).store.Within := by
  refine never_over_settled (paymentAndNote 600) (purchases_within 400 (by decide)) oneAfterAnother ?_
  refine ⟨trivial, trivial, trivial, trivial, trivial, trivial, trivial, ?_, trivial, trivial, trivial,
    trivial, ?_, trivial, trivial, trivial, trivial⟩
  · intro bill hbill _
    obtain rfl := Option.some.inj hbill
    decide
  · intro bill hbill _
    obtain rfl := Option.some.inj hbill
    decide

/-- Both calls read the bill before either writes it. -/
def sideBySide : List (Bool × Outcome Failure) :=
  List.replicate 7 (true, .done) ++ List.replicate 3 (false, .done) ++
    [(true, .done), (false, .done), (true, .done), (false, .done), (false, .done), (false, .done)]

/-- A bill of ten rupees is paid in full, and in full debited. -/
theorem paid_and_debited :
    (purchases 1000 (by decide)).Within ∧
      ∃ w, w = runCalls (start (paymentAndNote 1000) (purchases 1000 (by decide))) sideBySide ∧
        w.phase true = .paying ⟨"VPMT-1", 1000, [⟨some "timber", 1000⟩]⟩ .finished ∧
        w.phase false = .noting "DN-1" .finished ∧
        (w.store.bills "timber").map Bill.paidPaise = some 1000 ∧
        (w.store.bills "timber").map Bill.debitedPaise = some 1000 ∧ ¬ w.store.Within := by
  refine ⟨purchases_within 1000 (by decide), _, rfl, by decide +kernel, by decide +kernel,
    by decide +kernel, by decide +kernel, fun h => ?_⟩
  have hbill := h "timber" _ rfl
  unfold Bill.Within at hbill
  revert hbill
  decide +kernel

end Caflow.Settlement.Payables
